import Geospatial.Packed.Session
import Mathlib.Data.List.Basic

/-!
# What a step of a session changes

A session has three parts that its steps change: the buffer at hand, the copies under names and the
arrays that readers hold. For each part one equation says what any step does to it
(`buffer_step`, `copies_step`, `held_step`), and every fact about runs is derived from the three.

Two frame laws follow. A step leaves a copy alone unless it names that copy, and leaves a held array
alone unless it names that array; both pass to whole runs.
-/

namespace Geospatial

namespace Named

variable {β : Type} {l : Named β} {name other : String}

theorem find?_erase_of_ne (h : name ≠ other) : (l.erase other).find? name = l.find? name := by
  induction l with
  | nil => rfl
  | cons entry rest ih =>
    obtain ⟨key, value⟩ := entry
    simp only [find?, erase] at ih ⊢
    by_cases hkey : key = other
    · have hname : (name == key) = false := by simpa [hkey] using h
      rw [List.filter_cons_of_neg (by simp [hkey]), ih, List.lookup_cons, hname]
    · rw [List.filter_cons_of_pos (by simp [hkey]), List.lookup_cons, List.lookup_cons, ih]

theorem find?_insert_of_ne (h : name ≠ other) (value : β) :
    (l.insert other value).find? name = l.find? name := by
  have hname : (name == other) = false := by simpa using h
  rw [insert, find?, List.lookup_cons, hname]
  exact find?_erase_of_ne h

theorem mem_of_find? {value : β} (h : l.find? name = some value) : (name, value) ∈ l := by
  induction l with
  | nil => cases h
  | cons entry rest ih =>
    obtain ⟨key, found⟩ := entry
    rw [find?, List.lookup_cons] at h
    by_cases hkey : name = key
    · have hself : (name == key) = true := by simpa using hkey
      rw [hself] at h
      obtain rfl := Option.some.inj h
      exact hkey ▸ List.mem_cons_self
    · have hother : (name == key) = false := by simpa using hkey
      rw [hother] at h
      exact List.mem_cons_of_mem _ (ih h)

theorem mem_of_mem_insert {entry : String × β} {value : β} (h : entry ∈ l.insert name value) :
    entry = (name, value) ∨ entry ∈ l := by
  rcases List.mem_cons.1 h with rfl | hmem
  · exact Or.inl rfl
  · exact Or.inr (List.mem_filter.1 hmem).1

end Named

/-! ### Steps that spare a name -/

namespace SessionStep

/-- The step neither takes nor gives up the array held under the name. -/
def SparesHeld (name : String) : SessionStep → Prop
  | .points (some other) => name ≠ other
  | .drop other => name ≠ other
  | _ => True

/-- The step neither makes nor takes up the copy under the name. -/
def SparesCopy (name : String) : SessionStep → Prop
  | .copy other => name ≠ other
  | .swap other => name ≠ other
  | _ => True

end SessionStep

namespace Session

variable {σ : Type} [Storage σ] (s : Session σ)

/-! ### The three parts -/

/-- What a step makes of the buffer at hand. -/
theorem buffer_step (t : SessionStep) : (s.step t).1.buffer =
    match t with
    | .points _ => (s.buffer.pointArray s.holds s.nextId).2
    | .release => s.buffer.release
    | .setOrdinate i k v => (s.buffer.setOrdinate i k v).1
    | .writeRaw writes => (s.buffer.writeRaw writes).1
    | .swap name => (s.copies.find? name).getD s.buffer
    | _ => s.buffer := by
  cases t with
  | swap name =>
    show (s.swap name).buffer = _
    unfold swap
    split <;> simp_all
  | scan name =>
    show (s.scan name).1.buffer = _
    unfold scan
    split <;> rfl
  | _ => rfl

/-- What a step makes of the copies. -/
theorem copies_step (t : SessionStep) : (s.step t).1.copies =
    match t with
    | .copy name => s.copies.insert name s.buffer.copy
    | .swap name =>
      match s.copies.find? name with
      | some _ => s.copies.insert name s.buffer
      | none => s.copies
    | _ => s.copies := by
  cases t with
  | swap name =>
    show (s.swap name).copies = _
    unfold swap
    split <;> simp_all
  | scan name =>
    show (s.scan name).1.copies = _
    unfold scan
    split <;> rfl
  | _ => rfl

/-- What a step makes of the held arrays. -/
theorem held_step (t : SessionStep) : (s.step t).1.held =
    match t with
    | .points (some name) => s.held.insert name (s.buffer.pointArray s.holds s.nextId).1
    | .drop name => s.held.erase name
    | _ => s.held := by
  cases t with
  | points name => cases name <;> rfl
  | swap name =>
    show (s.swap name).held = _
    unfold swap
    split <;> rfl
  | scan name =>
    show (s.scan name).1.held = _
    unfold scan
    split <;> rfl
  | _ => rfl

/-! ### Frames -/

/-- A copy is found again as it was, unless the step puts another under its name. -/
theorem find?_copies_step {t : SessionStep} {name : String} (h : t.SparesCopy name) :
    (s.step t).1.copies.find? name = s.copies.find? name := by
  rw [copies_step]
  cases t with
  | copy other => exact Named.find?_insert_of_ne h _
  | swap other =>
    simp only
    split
    · exact Named.find?_insert_of_ne h _
    · rfl
  | _ => rfl

/-- So is an array that is held. -/
theorem find?_held_step {t : SessionStep} {name : String} (h : t.SparesHeld name) :
    (s.step t).1.held.find? name = s.held.find? name := by
  rw [held_step]
  cases t with
  | points taken =>
    cases taken with
    | none => rfl
    | some other => exact Named.find?_insert_of_ne h _
  | drop other => exact Named.find?_erase_of_ne h
  | _ => rfl

/-- **A copy stays as it is** while no step names it, whatever is written elsewhere. -/
theorem find?_copies_run {steps : List SessionStep} {name : String}
    (h : ∀ t ∈ steps, t.SparesCopy name) :
    (s.run steps).1.copies.find? name = s.copies.find? name := by
  induction steps generalizing s with
  | nil => rfl
  | cons t rest ih =>
    rw [run_cons, ih _ fun u hu ↦ h u (List.mem_cons_of_mem _ hu)]
    exact s.find?_copies_step (h t List.mem_cons_self)

/-- **A held array stays as it is** while no step names it. -/
theorem find?_held_run {steps : List SessionStep} {name : String}
    (h : ∀ t ∈ steps, t.SparesHeld name) :
    (s.run steps).1.held.find? name = s.held.find? name := by
  induction steps generalizing s with
  | nil => rfl
  | cons t rest ih =>
    rw [run_cons, ih _ fun u hu ↦ h u (List.mem_cons_of_mem _ hu)]
    exact s.find?_held_step (h t List.mem_cons_self)

end Session

end Geospatial
