import Geospatial.Proofs.Packed.Reading
import Geospatial.Proofs.Packed.SessionStep

/-!
# The kept points never show

A packed sequence may answer out of a list that it built earlier. This module proves that nobody can
tell: in every state that a run of steps can reach, each buffer answers what its ordinates are
*now*.

**The invariant** is `UpToDate`: whatever a cache has at hand, and whoever holds it, shows the
coordinates that are stored. It is kept because every write empties the slot before the first
ordinate changes, and because a slot is only ever filled with a list that was built a moment ago.
Nothing in it speaks of the policy; an array that is watched and has been given up by its readers is
simply not at hand.

**Two runs.** `SameContents` relates two sessions that store the same ordinates and may differ in
everything else: policies, slots, held arrays, identities. Steps that only concern the keeping of
points do not leave the relation, and all other steps show the same from related states
(`shown_filterMap_essence`).
-/

namespace Geospatial

namespace PackedSequence

variable {σ : Type} [Storage σ]

/-! ### The invariant of one buffer -/

/-- What the cache has at hand shows the coordinates that are stored. -/
def UpToDate (b : PackedSequence σ) : Prop :=
  ∀ held array, b.cache.current held = some array → array.points = b.coordinates

/-- Where nothing is kept, nothing is stale. -/
theorem upToDate_of_slot_empty {b : PackedSequence σ} (h : b.cache.slot = .empty) :
    b.UpToDate := by
  intro held array hcurrent
  rw [PointCache.current, h] at hcurrent
  cases hcurrent

theorem upToDate_release (b : PackedSequence σ) : b.release.UpToDate :=
  upToDate_of_slot_empty rfl

/-- The array that is handed out shows what is stored, kept or fresh. -/
theorem points_pointArray {b : PackedSequence σ} (h : b.UpToDate) (held : Nat → Bool) (id : Nat) :
    (b.pointArray held id).1.points = b.coordinates := by
  rw [pointArray, PointCache.obtain]
  rcases hcurrent : b.cache.current held with - | array
  · rfl
  · exact h held array hcurrent

/-- Building and keeping a list leaves it up to date. -/
theorem upToDate_pointArray {b : PackedSequence σ} (h : b.UpToDate) (held : Nat → Bool)
    (id : Nat) : (b.pointArray held id).2.UpToDate := by
  intro held' array hcurrent
  show array.points = b.coordinates
  rw [pointArray, PointCache.obtain] at hcurrent
  rcases hkept : b.cache.current held with - | kept
  · -- the slot was filled anew, with the list that is stored now
    rw [hkept] at hcurrent
    have hfresh : array = ⟨id, b.coordinates⟩ := by
      cases hpolicy : b.cache.policy <;>
        simp [PointCache.current, PointCache.fill, hpolicy] at hcurrent
      · exact hcurrent.symm
      · exact hcurrent.2.symm
    rw [hfresh]
  · rw [hkept] at hcurrent
    exact h held' array hcurrent

/-- Writing in turn leaves the cache alone. -/
theorem cache_writeEach (b : PackedSequence σ) (writes : List (Nat × Float)) :
    (b.writeEach writes).1.cache = b.cache := by
  induction writes generalizing b with
  | nil => rfl
  | cons write rest ih =>
    obtain ⟨place, v⟩ := write
    have hcache := b.cache_writeAt place v
    rw [writeEach]
    split
    · rename_i next hwrite
      rw [ih, ← hcache, hwrite]
    · exact hcache

theorem layout_writeEach (b : PackedSequence σ) (writes : List (Nat × Float)) :
    (b.writeEach writes).1.layout = b.layout := by
  induction writes generalizing b with
  | nil => rfl
  | cons write rest ih =>
    obtain ⟨place, v⟩ := write
    have hlayout := b.layout_writeAt place v
    rw [writeEach]
    split
    · rename_i next hwrite
      rw [ih, ← hlayout, hwrite]
    · exact hlayout

@[simp] theorem layout_setOrdinate (b : PackedSequence σ) (i k : Nat) (v : Float) :
    (b.setOrdinate i k v).1.layout = b.layout := by
  rw [setOrdinate]
  split
  · split
    · exact b.release.layout_writeAt _ v
    · rfl
  · rfl

/-- What a write leaves of the cache: nothing is kept, unless the layout lacks the number. -/
theorem cache_setOrdinate (b : PackedSequence σ) (i k : Nat) (v : Float) :
    (b.setOrdinate i k v).1.cache = if k < b.layout.stride then b.cache.release else b.cache := by
  rw [setOrdinate]
  split
  · split
    · exact b.release.cache_writeAt _ v
    · rfl
  · rfl

/-- A write gives up the kept points, or does not take place. -/
theorem upToDate_setOrdinate {b : PackedSequence σ} (h : b.UpToDate) (i k : Nat) (v : Float) :
    (b.setOrdinate i k v).1.UpToDate := by
  by_cases hk : k < b.layout.stride
  · exact upToDate_of_slot_empty (by rw [cache_setOrdinate, if_pos hk]; rfl)
  · rwa [setOrdinate, if_neg hk]

/-- A list of writes gives them up before the first one. -/
theorem upToDate_writeRaw (b : PackedSequence σ) (writes : List (Nat × Float)) :
    (b.writeRaw writes).1.UpToDate :=
  upToDate_of_slot_empty (by rw [writeRaw, cache_writeEach]; rfl)

/-- Reading one point gives what reading it anew gives, where either gives anything. -/
theorem toOption_point {b : PackedSequence σ} (h : b.UpToDate) (held : Nat → Bool) (i : Nat) :
    (b.point held i).toOption = (b.pointAnew i).toOption := by
  rw [point]
  rcases hcurrent : b.cache.current held with - | array
  · rfl
  · simp only
    rw [h held array hcurrent, b.getElem?_coordinates]
    cases b.pointAnew i <;> rfl

/-! ### What is stored, without what is kept -/

/-- Everything about a buffer that its readers may depend on. -/
def contents (b : PackedSequence σ) : Layout × Array σ :=
  (b.layout, b.ordinates)

omit [Storage σ] in
/-- Buffers with the same contents differ in their caches alone. -/
theorem eq_with_cache {b c : PackedSequence σ} (h : b.contents = c.contents) :
    c = { b with cache := c.cache } := by
  obtain ⟨layout, ordinates, whole, cache⟩ := b
  obtain ⟨layout', ordinates', whole', cache'⟩ := c
  obtain ⟨rfl, rfl⟩ := Prod.mk.inj h
  rfl

theorem pointAnew_congr {b c : PackedSequence σ} (h : b.contents = c.contents) (i : Nat) :
    b.pointAnew i = c.pointAnew i := by
  rw [eq_with_cache h]
  rfl

theorem coordinates_congr {b c : PackedSequence σ} (h : b.contents = c.contents) :
    b.coordinates = c.coordinates := by
  rw [eq_with_cache h]
  rfl

theorem readInto_congr {b c : PackedSequence σ} (h : b.contents = c.contents) (i : Nat)
    (into : Coordinate Float) : b.readInto i into = c.readInto i into := by
  rw [eq_with_cache h]
  rfl

theorem points_toSequence_congr {b c : PackedSequence σ} (h : b.contents = c.contents) :
    b.toSequence.points = c.toSequence.points := by
  rw [eq_with_cache h]
  rfl

/-- A write to the run has the same outcome on the same contents, and leaves the same. -/
theorem writeAt_congr {b c : PackedSequence σ} (h : b.contents = c.contents) (place : Nat)
    (v : Float) : (b.writeAt place v).1.contents = (c.writeAt place v).1.contents ∧
      (b.writeAt place v).2 = (c.writeAt place v).2 := by
  rw [eq_with_cache h]
  by_cases hplace : place < b.ordinates.size <;> simp [writeAt, hplace, contents]

/-- So does a list of writes, which stops at the same one. -/
theorem writeEach_congr {b c : PackedSequence σ} (h : b.contents = c.contents)
    (writes : List (Nat × Float)) :
    (b.writeEach writes).1.contents = (c.writeEach writes).1.contents ∧
      (b.writeEach writes).2 = (c.writeEach writes).2 := by
  induction writes generalizing b c with
  | nil => exact ⟨h, rfl⟩
  | cons write rest ih =>
    obtain ⟨place, v⟩ := write
    obtain ⟨hcontents, houtcome⟩ := writeAt_congr h place v
    rw [writeEach, writeEach]
    rcases hb : b.writeAt place v with ⟨b', outcome⟩
    rcases hc : c.writeAt place v with ⟨c', outcome'⟩
    rw [hb, hc] at hcontents houtcome
    obtain rfl : outcome = outcome' := houtcome
    -- the first write that fails ends both lists
    rcases outcome with e | ⟨⟩
    · exact ⟨hcontents, rfl⟩
    · exact ih hcontents

/-- So does the write of an ordinate: the check, the release and the write see the contents only. -/
theorem setOrdinate_congr {b c : PackedSequence σ} (h : b.contents = c.contents) (i k : Nat)
    (v : Float) : (b.setOrdinate i k v).1.contents = (c.setOrdinate i k v).1.contents ∧
      (b.setOrdinate i k v).2 = (c.setOrdinate i k v).2 := by
  have hplace : b.place i k = c.place i k := by
    rw [eq_with_cache h]
    rfl
  have hlayout : b.layout = c.layout := congrArg Prod.fst h
  have hreleased : b.release.contents = c.release.contents := h
  rw [setOrdinate, setOrdinate, hplace, hlayout]
  split
  · split
    · exact writeAt_congr hreleased _ v
    · exact ⟨hreleased, rfl⟩
  · exact ⟨h, rfl⟩

/-! ### What a reader is promised -/

/-- The readers of a buffer answer what it stores now, given which arrays are held and the identity
that a fresh array would take. -/
structure ReadsStored (b : PackedSequence σ) (held : Nat → Bool) (id : Nat) : Prop where
  /-- A point is answered exactly below the length. -/
  answers : ∀ i, (∃ c, b.point held i = .ok c) ↔ i < b.length
  /-- It is the point that is read anew, made of the ordinates at its index. -/
  point : ∀ i c, b.point held i = .ok c → b.pointAnew i = .ok c ∧ b.Stores i c
  /-- The array of all points lists them in order. -/
  points : ∀ i, (b.pointArray held id).1.points[i]? = (b.point held i).toOption

/-- To be a result is to be one once the failures are forgotten. -/
theorem exists_ok_iff_toOption {ε β : Type} {r : Except ε β} {v : β} :
    r = .ok v ↔ r.toOption = some v := by
  cases r <;> simp [Except.toOption]

/-- **Up to date is all it takes.** -/
theorem readsStored_of_upToDate {b : PackedSequence σ} (h : b.UpToDate) (held : Nat → Bool)
    (id : Nat) : b.ReadsStored held id := by
  have hpoint : ∀ i c, b.point held i = .ok c ↔ b.pointAnew i = .ok c := by
    intro i c
    rw [exists_ok_iff_toOption, exists_ok_iff_toOption, toOption_point h]
  refine ⟨fun i ↦ ⟨?_, ?_⟩, fun i c hc ↦ ?_, fun i ↦ ?_⟩
  · rintro ⟨c, hc⟩
    by_contra hi
    rw [hpoint, b.pointAnew_of_le (by omega)] at hc
    cases hc
  · intro hi
    exact ⟨_, (hpoint i _).2 (b.pointAnew_of_lt hi)⟩
  · exact ⟨(hpoint i c).1 hc, b.stores_of_pointAnew ((hpoint i c).1 hc)⟩
  · rw [points_pointArray h, getElem?_coordinates, toOption_point h]

end PackedSequence

namespace Session

variable {σ : Type} [Storage σ]

/-! ### The invariant of a session -/

/-- The buffers in use: the one at hand and the copies. -/
def Owns (s : Session σ) (b : PackedSequence σ) : Prop :=
  b = s.buffer ∨ ∃ name, (name, b) ∈ s.copies

/-- Every buffer in use is up to date. -/
def UpToDate (s : Session σ) : Prop :=
  ∀ b, s.Owns b → b.UpToDate

theorem upToDate_start {b : PackedSequence σ} (h : b.cache.slot = .empty) :
    (start b).UpToDate := by
  rintro c (rfl | ⟨name, hmem⟩)
  · exact PackedSequence.upToDate_of_slot_empty h
  · cases hmem

/-- A buffer owned after a step was owned before it, or is what the step made of the one at hand. -/
theorem owns_step {s : Session σ} {t : SessionStep} {b : PackedSequence σ}
    (h : (s.step t).1.Owns b) :
    s.Owns b ∨ b = (s.step t).1.buffer ∨ b = s.buffer.copy := by
  rcases h with rfl | ⟨name, hmem⟩
  · exact Or.inr (Or.inl rfl)
  -- beside the buffer only copies are owned, and a step puts in one at most
  · rw [copies_step] at hmem
    split at hmem
    · rcases Named.mem_of_mem_insert hmem with heq | hold
      · exact Or.inr (Or.inr (congrArg Prod.snd heq))
      · exact Or.inl (Or.inr ⟨name, hold⟩)
    · split at hmem
      · rcases Named.mem_of_mem_insert hmem with heq | hold
        · exact Or.inl (Or.inl (congrArg Prod.snd heq))
        · exact Or.inl (Or.inr ⟨name, hold⟩)
      · exact Or.inl (Or.inr ⟨name, hmem⟩)
    · exact Or.inl (Or.inr ⟨name, hmem⟩)

/-- The buffer that a step leaves at hand is up to date. -/
theorem upToDate_buffer_step {s : Session σ} (h : s.UpToDate) (t : SessionStep) :
    (s.step t).1.buffer.UpToDate := by
  have hbuffer : s.buffer.UpToDate := h _ (Or.inl rfl)
  rw [buffer_step]
  split
  · exact PackedSequence.upToDate_pointArray hbuffer _ _
  · exact s.buffer.upToDate_release
  · exact PackedSequence.upToDate_setOrdinate hbuffer _ _ _
  · exact s.buffer.upToDate_writeRaw _
  · rename_i name
    rcases hfind : s.copies.find? name with - | other
    · exact hbuffer
    · exact h _ (Or.inr ⟨name, Named.mem_of_find? hfind⟩)
  · exact hbuffer

/-- **No step leaves a stale array behind.** -/
theorem upToDate_step {s : Session σ} (h : s.UpToDate) (t : SessionStep) :
    (s.step t).1.UpToDate := by
  intro b hb
  rcases owns_step hb with hold | rfl | rfl
  · exact h b hold
  · exact upToDate_buffer_step h t
  · exact s.buffer.upToDate_release

/-- **The invariant holds along every run.** -/
theorem upToDate_run {s : Session σ} (h : s.UpToDate) (steps : List SessionStep) :
    (s.run steps).1.UpToDate := by
  induction steps generalizing s with
  | nil => exact h
  | cons t rest ih => exact ih (upToDate_step h t)

/-! ### What a step shows -/

end Session

/-- What an answer tells about coordinates. Who keeps a list or holds it is left out, and so is the
wording of a failure. -/
inductive Shown where
  | failure
  | done
  | point (c : Coordinate Float)
  | points (points : List (Coordinate Float))
  | extrema (indices : Option Extrema)

/-- Reads an answer for what it tells about coordinates. -/
def Shown.ofAnswer : Except Violation SessionAnswer → Shown
  | .error _ => .failure
  | .ok .done => .done
  | .ok (.flag _) => .done
  | .ok (.point c) => .point c
  | .ok (.points list _) => .points list
  | .ok (.extrema indices) => .extrema indices

/-- A step without what it says about the keeping of points: whether a list is still held, and
under which name it is taken, is nobody's business but the cache's. -/
def SessionStep.essence : SessionStep → Option SessionStep
  | .drop _ | .isCached | .release => none
  | .points _ => some (.points none)
  | t => some t

namespace Session

variable {σ : Type} [Storage σ]

/-- What the steps of a run show, leaving out those that only concern the keeping of points. -/
def shown (s : Session σ) : List SessionStep → List Shown
  | [] => []
  | t :: rest =>
    match t.essence with
    | none => (s.step t).1.shown rest
    | some _ => Shown.ofAnswer (s.step t).2 :: (s.step t).1.shown rest

/-! ### Two runs side by side -/

/-- The same ordinates are stored, in the buffer at hand and under every name. -/
structure SameContents (s₁ s₂ : Session σ) : Prop where
  buffer : s₁.buffer.contents = s₂.buffer.contents
  copies : ∀ name, (s₁.copies.find? name).map PackedSequence.contents =
    (s₂.copies.find? name).map PackedSequence.contents

/-- A step that only concerns the keeping of points changes no contents. -/
theorem sameContents_step_left {s₁ s₂ : Session σ} (h : SameContents s₁ s₂) {t : SessionStep}
    (ht : t.essence = none) : SameContents (s₁.step t).1 s₂ := by
  cases t <;> first
    | exact ⟨h.buffer, h.copies⟩
    | cases ht

omit [Storage σ] in
/-- Copies with the same contents, taken in under one name, are found alike under every name. -/
theorem map_contents_insert {l₁ l₂ : Named (PackedSequence σ)}
    (h : ∀ name, (l₁.find? name).map PackedSequence.contents =
      (l₂.find? name).map PackedSequence.contents)
    {b c : PackedSequence σ} (hbc : b.contents = c.contents) (key name : String) :
    ((l₁.insert key b).find? name).map PackedSequence.contents =
      ((l₂.insert key c).find? name).map PackedSequence.contents := by
  by_cases hname : name = key
  · rw [hname, Named.find?_insert_self, Named.find?_insert_self]
    exact congrArg some hbc
  · rw [Named.find?_insert_of_ne hname, Named.find?_insert_of_ne hname]
    exact h name

/-- Steps of the same essence lead from the same contents to the same contents. -/
theorem sameContents_step {s₁ s₂ : Session σ} (h : SameContents s₁ s₂) {t u : SessionStep}
    (ht : t.essence = some u) : SameContents (s₁.step t).1 (s₂.step u).1 := by
  cases t with
  | points name =>
    obtain rfl := Option.some.inj ht
    exact ⟨h.buffer, h.copies⟩
  | setOrdinate i k v =>
    obtain rfl := Option.some.inj ht
    exact ⟨(PackedSequence.setOrdinate_congr h.buffer i k v).1, h.copies⟩
  | writeRaw writes =>
    obtain rfl := Option.some.inj ht
    exact ⟨(PackedSequence.writeEach_congr
      (show s₁.buffer.release.contents = s₂.buffer.release.contents from h.buffer) writes).1,
      h.copies⟩
  | copy name =>
    obtain rfl := Option.some.inj ht
    exact ⟨h.buffer, map_contents_insert h.copies
      (show s₁.buffer.copy.contents = s₂.buffer.copy.contents from h.buffer) name⟩
  -- the one step that depends on whether a copy is there, and it is in both sessions or in neither
  | swap name =>
    obtain rfl := Option.some.inj ht
    have hname := h.copies name
    show SameContents (s₁.swap name) (s₂.swap name)
    rcases h₁ : s₁.copies.find? name with - | b <;>
      rcases h₂ : s₂.copies.find? name with - | c <;>
      rw [h₁, h₂] at hname <;> rw [swap, swap, h₁, h₂]
    · exact h
    · cases hname
    · cases hname
    · exact ⟨Option.some.inj hname, map_contents_insert h.copies h.buffer name⟩
  | scan name =>
    obtain rfl := Option.some.inj ht
    constructor
    · rw [buffer_step, buffer_step]
      exact h.buffer
    · rw [copies_step, copies_step]
      exact h.copies
  | drop name => cases ht
  | isCached => cases ht
  | release => cases ht
  | _ =>
    obtain rfl := Option.some.inj ht
    exact ⟨h.buffer, h.copies⟩

/-- What a step shows of a point is what the buffer stores. -/
theorem ofAnswer_point (r : Except Violation (Coordinate Float)) :
    Shown.ofAnswer (SessionAnswer.point <$> r) = (r.toOption.map Shown.point).getD .failure := by
  cases r <;> rfl

/-- Steps of the same essence show the same, from the same contents. -/
theorem ofAnswer_step {s₁ s₂ : Session σ} (h : SameContents s₁ s₂) (h₁ : s₁.UpToDate)
    (h₂ : s₂.UpToDate) {t u : SessionStep} (ht : t.essence = some u) :
    Shown.ofAnswer (s₁.step t).2 = Shown.ofAnswer (s₂.step u).2 := by
  have hb₁ : s₁.buffer.UpToDate := h₁ _ (Or.inl rfl)
  have hb₂ : s₂.buffer.UpToDate := h₂ _ (Or.inl rfl)
  cases t with
  | point i =>
    obtain rfl := Option.some.inj ht
    show Shown.ofAnswer (SessionAnswer.point <$> s₁.buffer.point s₁.holds i) =
      Shown.ofAnswer (SessionAnswer.point <$> s₂.buffer.point s₂.holds i)
    rw [ofAnswer_point, ofAnswer_point, PackedSequence.toOption_point hb₁,
      PackedSequence.toOption_point hb₂, PackedSequence.pointAnew_congr h.buffer]
  | pointAnew i =>
    obtain rfl := Option.some.inj ht
    show Shown.ofAnswer (SessionAnswer.point <$> s₁.buffer.pointAnew i) =
      Shown.ofAnswer (SessionAnswer.point <$> s₂.buffer.pointAnew i)
    rw [PackedSequence.pointAnew_congr h.buffer]
  | readInto i c =>
    obtain rfl := Option.some.inj ht
    show Shown.ofAnswer (SessionAnswer.point <$> s₁.buffer.readInto i c) =
      Shown.ofAnswer (SessionAnswer.point <$> s₂.buffer.readInto i c)
    rw [PackedSequence.readInto_congr h.buffer]
  -- the array may be another one, and is given another identity; what it lists is the same
  | points name =>
    obtain rfl := Option.some.inj ht
    show Shown.points (s₁.buffer.pointArray s₁.holds s₁.nextId).1.points =
      Shown.points (s₂.buffer.pointArray s₂.holds s₂.nextId).1.points
    rw [PackedSequence.points_pointArray hb₁, PackedSequence.points_pointArray hb₂,
      PackedSequence.coordinates_congr h.buffer]
  | setOrdinate i k v =>
    obtain rfl := Option.some.inj ht
    show Shown.ofAnswer ((s₁.buffer.setOrdinate i k v).2.map fun _ ↦ .done) =
      Shown.ofAnswer ((s₂.buffer.setOrdinate i k v).2.map fun _ ↦ .done)
    rw [(PackedSequence.setOrdinate_congr h.buffer i k v).2]
  | writeRaw writes =>
    obtain rfl := Option.some.inj ht
    show Shown.ofAnswer ((s₁.buffer.release.writeEach writes).2.map fun _ ↦ .done) =
      Shown.ofAnswer ((s₂.buffer.release.writeEach writes).2.map fun _ ↦ .done)
    rw [(PackedSequence.writeEach_congr
      (show s₁.buffer.release.contents = s₂.buffer.release.contents from h.buffer) writes).2]
  | scan name =>
    obtain rfl := Option.some.inj ht
    show Shown.ofAnswer (SessionAnswer.extrema <$> (s₁.scan name).2) =
      Shown.ofAnswer (SessionAnswer.extrema <$> (s₂.scan name).2)
    rw [scan, scan, PackedSequence.points_toSequence_congr h.buffer]
    split <;> rfl
  | drop name => cases ht
  | isCached => cases ht
  | release => cases ht
  | _ =>
    obtain rfl := Option.some.inj ht
    rfl

/-- Of a step that was reduced to its essence nothing more can be left out. -/
theorem essence_essence {t u : SessionStep} (h : t.essence = some u) : u.essence = some u := by
  cases t <;> first
    | (obtain rfl := Option.some.inj h; rfl)
    | cases h

/-- **A run shows what its essence shows**, also from another session that stores the same. The
induction runs along the steps; a step without essence moves the left session alone. -/
theorem shown_filterMap_essence {s₁ s₂ : Session σ} (h : SameContents s₁ s₂) (h₁ : s₁.UpToDate)
    (h₂ : s₂.UpToDate) (steps : List SessionStep) :
    s₁.shown steps = s₂.shown (steps.filterMap SessionStep.essence) := by
  induction steps generalizing s₁ s₂ with
  | nil => rfl
  | cons t rest ih =>
    rcases ht : t.essence with - | u
    · rw [shown, ht, List.filterMap_cons_none ht]
      exact ih (sameContents_step_left h ht) (upToDate_step h₁ t) h₂
    · rw [shown, ht, List.filterMap_cons_some ht, shown, essence_essence ht]
      simp only
      rw [ofAnswer_step h h₁ h₂ ht,
        ih (sameContents_step h ht) (upToDate_step h₁ t) (upToDate_step h₂ u)]

/-! ### From the making of a buffer on -/

omit [Storage σ] in
/-- A buffer that was just made keeps nothing. -/
theorem slot_ofStored {ordinates : Array σ} {options : SequenceOptions} {b : PackedSequence σ}
    (hb : PackedSequence.ofStored ordinates options = .ok b) :
    b.cache.slot = .empty ∧ b.contents = (options.layout, ordinates) := by
  rw [PackedSequence.ofStored] at hb
  split at hb
  · obtain rfl := Except.ok.inj hb
    exact ⟨rfl, rfl⟩
  · cases hb

/-- **Kept points never show.** After any run over a new buffer, its copies and the arrays that were
handed out:

* every buffer in use answers what it stores now;
* an array that is taken remains what it was when it was taken, for as long as it is held;
* a copy reads the same after any further steps that do not name it;
* and a run that differs in policy, in releases and in how long arrays are held shows the same. -/
theorem run_ofStored_transparent {ordinates : Array σ} {options : SequenceOptions}
    {b : PackedSequence σ} (hb : PackedSequence.ofStored ordinates options = .ok b)
    (steps : List SessionStep) :
    let s := ((start b).run steps).1
    (∀ c, s.Owns c → c.ReadsStored s.holds s.nextId) ∧
    (∀ name later, (∀ t ∈ later, t.SparesHeld name) →
      (s.run (.points (some name) :: later)).1.held.find? name =
        some (s.buffer.pointArray s.holds s.nextId).1) ∧
    (∀ name c later, s.copies.find? name = some c → (∀ t ∈ later, t.SparesCopy name) →
      (s.run later).1.copies.find? name = some c ∧
        ∀ i, (c.point (s.run later).1.holds i).toOption = (c.point s.holds i).toOption) ∧
    ∀ options' b' steps', options'.layout = options.layout →
      PackedSequence.ofStored ordinates options' = .ok b' →
      steps'.filterMap SessionStep.essence = steps.filterMap SessionStep.essence →
      (start b').shown steps' = (start b).shown steps := by
  obtain ⟨hslot, hcontents⟩ := slot_ofStored hb
  have hstart : (start b).UpToDate := upToDate_start hslot
  have hrun := upToDate_run hstart steps
  refine ⟨fun c hc ↦ ?_, fun name later hlater ↦ ?_, fun name c later hfind hlater ↦ ⟨?_, ?_⟩, ?_⟩
  · exact PackedSequence.readsStored_of_upToDate (hrun c hc) _ _
  · rw [run_cons, find?_held_run _ hlater, held_step]
    exact Named.find?_insert_self ..
  · rw [find?_copies_run _ hlater, hfind]
  · intro i
    have hc : c.UpToDate := hrun c (Or.inr ⟨name, Named.mem_of_find? hfind⟩)
    rw [PackedSequence.toOption_point hc, PackedSequence.toOption_point hc]
  -- neither run is compared with the other, but each with one that reads nothing
  · intro options' b' steps' hlayout hb' hsteps
    obtain ⟨hslot', hcontents'⟩ := slot_ofStored hb'
    have hstart' : (start b').UpToDate := upToDate_start hslot'
    have hsame : SameContents (start b') (start b) :=
      ⟨by rw [start, start, hcontents, hcontents', hlayout], fun _ ↦ rfl⟩
    calc (start b').shown steps'
        = (start b).shown (steps'.filterMap SessionStep.essence) :=
          shown_filterMap_essence hsame hstart' hstart steps'
      _ = (start b).shown (steps.filterMap SessionStep.essence) := by rw [hsteps]
      _ = (start b).shown steps :=
          (shown_filterMap_essence ⟨rfl, fun _ ↦ rfl⟩ hstart hstart steps).symm

/-- Two coordinates, watched while "a" is held and dropped before the write; retained instead, with
no drop at all, the run shows the same. -/
theorem run_ofStored_transparent_watched :
    let watched : PackedSequence Float := ⟨.xy, #[1.0, 5.0, 3.0, 2.0], rfl, ⟨.reclaimable, .empty⟩⟩
    let retained : PackedSequence Float := ⟨.xy, #[1.0, 5.0, 3.0, 2.0], rfl, ⟨.retained, .empty⟩⟩
    PackedSequence.ofStored #[1.0, 5.0, 3.0, 2.0] ⟨.xy, .reclaimable⟩ = .ok watched ∧
    PackedSequence.ofStored #[1.0, 5.0, 3.0, 2.0] ⟨.xy, .retained⟩ = .ok retained ∧
    (start retained).shown [.points none, .point 1, .setOrdinate 1 0 8.0, .point 1] =
      (start watched).shown [.points (some "a"), .drop "a", .point 1, .release,
        .setOrdinate 1 0 8.0, .isCached, .point 1] := by
  intro watched retained
  have hwatched : PackedSequence.ofStored #[1.0, 5.0, 3.0, 2.0] ⟨.xy, .reclaimable⟩ =
      .ok watched := rfl
  have hretained : PackedSequence.ofStored #[1.0, 5.0, 3.0, 2.0] ⟨.xy, .retained⟩ =
      .ok retained := rfl
  exact ⟨hwatched, hretained,
    (run_ofStored_transparent hwatched _).2.2.2 ⟨.xy, .retained⟩ _ _ rfl hretained rfl⟩

end Session

end Geospatial
