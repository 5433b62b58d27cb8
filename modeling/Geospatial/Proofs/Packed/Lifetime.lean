import Geospatial.Proofs.Packed.Sweep
import Mathlib.Data.List.Infix

/-!
# How long points are kept

Whether a sequence keeps its points at a moment is told by its policy and by what was done to it up
to then. This module says how, for every run of steps on one buffer (`kept_points_follow_policy`).

* **Backwards from a moment.** `AskedSince` looks for a reader who took the array of all points
  after the last step that emptied the slot, and `lastStored` is the array that was put there last.
  The slot is filled exactly if there was such a reader (`isSome_array?_run`), and then with that
  array (`lastStored_of_array?_run`).
* **Forwards from a reader.** An array stays at hand as long as the steps leave it `Undisturbed`
  (`keeps_run_iff`). Once it is not at hand, all arrays that are handed out are newer
  (`keeps_or_built_since`): an array that is held on to after the slot was emptied is never taken
  for a kept one.

The inductions run over the last step of a run, since every fact about a state is told by the state
before it.
-/

namespace Geospatial

/-! ### The history of a slot -/

namespace SessionStep

variable {d : Layout} {steps : List SessionStep} {t : SessionStep}

/-- What takes the points does not empty the slot. -/
theorem empties_of_takes (h : t.takes = true) : t.empties d = false := by
  cases t with
  | points name => rfl
  | _ => cases h

/-- The step reads one point, or asks whether points are kept. -/
def reads : SessionStep → Bool
  | .point _ => true
  | .pointAnew _ => true
  | .readInto .. => true
  | .isCached => true
  | _ => false

theorem forall_mem_concat {p : SessionStep → Prop} :
    (∀ u ∈ steps ++ [t], p u) ↔ (∀ u ∈ steps, p u) ∧ p t := by
  rw [List.forall_mem_append, List.forall_mem_singleton]

/-- Somebody took the array of all points, and since then nothing has emptied the slot. -/
def AskedSince (d : Layout) (steps : List SessionStep) : Prop :=
  ∃ before t later, steps = before ++ t :: later ∧ t.takes = true ∧
    ∀ u ∈ later, u.empties d = false

theorem not_askedSince_nil : ¬AskedSince d [] := by
  rintro ⟨before, t, later, h, -, -⟩
  exact List.append_ne_nil_of_right_ne_nil before (List.cons_ne_nil t later) h.symm

/-- A last step asks itself, or leaves it at whether somebody had asked; nobody has after one that
empties the slot. -/
theorem askedSince_concat :
    AskedSince d (steps ++ [t]) ↔
      t.empties d = false ∧ (t.takes = true ∨ AskedSince d steps) := by
  constructor
  · rintro ⟨before, u, later, h, htakes, hlater⟩
    -- either the last step asked itself, or it came after the one that did
    rcases List.eq_nil_or_concat' later with rfl | ⟨later, v, rfl⟩
    · obtain ⟨-, hu⟩ := List.append_inj' h rfl
      obtain rfl := List.singleton_inj.mp hu
      exact ⟨empties_of_takes htakes, Or.inl htakes⟩
    · rw [← List.cons_append, ← List.append_assoc] at h
      obtain ⟨rfl, hv⟩ := List.append_inj' h rfl
      obtain rfl := List.singleton_inj.mp hv
      obtain ⟨hlater, hempties⟩ := forall_mem_concat.mp hlater
      exact ⟨hempties, Or.inr ⟨before, u, later, rfl, htakes, hlater⟩⟩
  · rintro ⟨hempties, htakes | ⟨before, u, later, rfl, htakes, hlater⟩⟩
    · exact ⟨steps, t, [], rfl, htakes, nofun⟩
    · exact ⟨before, u, later ++ [t], by simp, htakes, forall_mem_concat.mpr ⟨hlater, hempties⟩⟩

end SessionStep

namespace Session

variable {σ : Type} [Storage σ] {s : Session σ} {steps : List SessionStep} {t : SessionStep}
  {a : PointArray}

/-- A step that only reads leaves the session as it is. -/
theorem step_of_reads (h : t.reads = true) : (s.step t).1 = s := by
  cases t <;> first
    | rfl
    | cases h

theorem run_append (s : Session σ) (steps later : List SessionStep) :
    (s.run (steps ++ later)).1 = ((s.run steps).1.run later).1 := by
  induction steps generalizing s with
  | nil => rfl
  | cons t rest ih => exact ih (s.step t).1

theorem run_concat (s : Session σ) (steps : List SessionStep) (t : SessionStep) :
    (s.run (steps ++ [t])).1 = ((s.run steps).1.step t).1 :=
  s.run_append steps [t]

/-- By induction from the start: each step keeps a session orderly. -/
theorem orderly_run (h : s.Orderly) (hsteps : ∀ t ∈ steps, t.stays = true) :
    (s.run steps).1.Orderly := by
  induction steps generalizing s with
  | nil => exact h
  | cons t rest ih =>
    exact ih (orderly_step h (hsteps t List.mem_cons_self)) fun u hu ↦
      hsteps u (List.mem_cons_of_mem _ hu)

theorem policy_run (hsteps : ∀ t ∈ steps, t.stays = true) :
    (s.run steps).1.buffer.cache.policy = s.buffer.cache.policy := by
  induction steps generalizing s with
  | nil => rfl
  | cons t rest ih =>
    rw [run_cons, ih fun u hu ↦ hsteps u (List.mem_cons_of_mem _ hu)]
    exact policy_step (hsteps t List.mem_cons_self)

theorem layout_run (hsteps : ∀ t ∈ steps, t.stays = true) :
    (s.run steps).1.buffer.layout = s.buffer.layout := by
  induction steps generalizing s with
  | nil => rfl
  | cons t rest ih =>
    rw [run_cons, ih fun u hu ↦ hsteps u (List.mem_cons_of_mem _ hu)]
    exact layout_step (hsteps t List.mem_cons_self)

/-- Every taking of the array uses up one identity. -/
theorem nextId_run (s : Session σ) (steps : List SessionStep) :
    (s.run steps).1.nextId = s.nextId + steps.countP SessionStep.takes := by
  induction steps generalizing s with
  | nil => rfl
  | cons t rest ih =>
    rw [run_cons, ih, nextId_step, List.countP_cons]
    split <;> omega

/-- The array that a step puts into the slot: it is there afterwards, and it is new. -/
def stored (s : Session σ) (t : SessionStep) : Option PointArray :=
  (s.step t).1.buffer.cache.slot.array?.filter fun a => a.id = s.nextId

/-- The last array that a step put into the slot. -/
def lastStored (s : Session σ) : List SessionStep → Option PointArray
  | [] => none
  | t :: rest => ((s.step t).1.lastStored rest).or (s.stored t)

/-- What the last step puts into the slot is the last that was put there. -/
theorem lastStored_concat (s : Session σ) (steps : List SessionStep) (t : SessionStep) :
    s.lastStored (steps ++ [t]) = ((s.run steps).1.stored t).or (s.lastStored steps) := by
  induction steps generalizing s with
  | nil =>
    show none.or (s.stored t) = (s.stored t).or none
    rw [Option.none_or, Option.or_none]
  | cons u rest ih =>
    rw [List.cons_append, lastStored, ih, lastStored, Option.or_assoc]
    rfl

/-- **The slot is filled exactly where somebody asked since it was emptied.** -/
theorem isSome_array?_run (h : s.Orderly) (hempty : s.buffer.cache.slot.array? = none)
    (hsteps : ∀ t ∈ steps, t.stays = true) :
    (s.run steps).1.buffer.cache.slot.array?.isSome = true ↔
      s.buffer.cache.policy ≠ .disabled ∧ SessionStep.AskedSince s.buffer.layout steps := by
  -- the last step decides, so the induction runs from the end
  induction steps using List.reverseRecOn with
  | nil =>
    rw [run_nil, hempty]
    exact iff_of_false nofun fun hasked ↦ SessionStep.not_askedSince_nil hasked.2
  | append_singleton steps t ih =>
    obtain ⟨hbefore, ht⟩ := SessionStep.forall_mem_concat.mp hsteps
    rw [run_concat, array?_step (orderly_run h hbefore) ht, policy_run hbefore,
      layout_run hbefore, SessionStep.askedSince_concat]
    rcases t.empties s.buffer.layout
    · rcases t.takes
      · simpa using ih hbefore
      · by_cases hpolicy : s.buffer.cache.policy = .disabled <;> simp [hpolicy]
    · simp

/-- **What is in the slot is what was put there last.** -/
theorem lastStored_of_array?_run (h : s.Orderly) (hempty : s.buffer.cache.slot.array? = none)
    (hsteps : ∀ t ∈ steps, t.stays = true)
    (ha : (s.run steps).1.buffer.cache.slot.array? = some a) :
    s.lastStored steps = some a := by
  induction steps using List.reverseRecOn with
  | nil =>
    rw [run_nil, hempty] at ha
    cases ha
  | append_singleton steps t ih =>
    obtain ⟨hbefore, ht⟩ := SessionStep.forall_mem_concat.mp hsteps
    have horderly : (s.run steps).1.Orderly := orderly_run h hbefore
    rw [run_concat] at ha
    rw [lastStored_concat, stored, ha, Option.filter_some]
    by_cases hnew : a.id = (s.run steps).1.nextId
    · rw [if_pos (decide_eq_true hnew), Option.some_or]
    · rw [if_neg (by simpa using hnew), Option.none_or]
      refine ih hbefore ?_
      -- an array with an old identity was in the slot already
      rw [array?_step horderly ht] at ha
      split at ha
      · cases ha
      · split at ha
        · split at ha
          · cases ha
          · rcases (s.run steps).1.keeps_offered_or_fresh with hkeeps | hfresh
            · rw [← ha]
              exact (horderly.keeps_iff.mp hkeeps).1
            · exact absurd (Option.some.inj ha ▸ hfresh) hnew
        · exact ha

/-- **Points are kept exactly where they should be**: somebody asked since the slot was emptied,
and an array that is only watched is still held. -/
theorem isCached_run_iff (h : s.Orderly) (hempty : s.buffer.cache.slot.array? = none)
    (hsteps : ∀ t ∈ steps, t.stays = true) :
    (s.run steps).1.isCached = true ↔
      s.buffer.cache.policy ≠ .disabled ∧ SessionStep.AskedSince s.buffer.layout steps ∧
        (s.buffer.cache.policy = .reclaimable →
          ∃ a, s.lastStored steps = some a ∧ (s.run steps).1.holds a.id = true) := by
  have hfilled := isSome_array?_run h hempty hsteps
  have hkeeps (a : PointArray) := (orderly_run h hsteps).keeps_iff (a := a)
  simp only [policy_run hsteps] at hkeeps
  rw [isCached_iff]
  constructor
  · rintro ⟨a, ha⟩
    obtain ⟨hslot, hheld⟩ := (hkeeps a).mp ha
    obtain ⟨hpolicy, hasked⟩ := hfilled.mp (by rw [hslot]; rfl)
    exact ⟨hpolicy, hasked, fun hr ↦
      ⟨a, lastStored_of_array?_run h hempty hsteps hslot, hheld hr⟩⟩
  · rintro ⟨hpolicy, hasked, hheld⟩
    obtain ⟨a, hslot⟩ := Option.isSome_iff_exists.mp (hfilled.mpr ⟨hpolicy, hasked⟩)
    refine ⟨a, (hkeeps a).mpr ⟨hslot, fun hr ↦ ?_⟩⟩
    -- the array that somebody holds has to be the one in the slot, and both are the last that was
    -- stored
    obtain ⟨b, hlast, hb⟩ := hheld hr
    have hlast' := lastStored_of_array?_run h hempty hsteps hslot
    obtain rfl := Option.some.inj (hlast.symm.trans hlast')
    exact hb

/-! ### Asking a second time -/

/-- Nothing in these steps takes the array of the given identity out of the slot: it is to be kept,
no step empties the slot, and an array that is only watched is held all along. -/
structure Undisturbed (s : Session σ) (id : Nat) (steps : List SessionStep) : Prop where
  keeping : s.buffer.cache.policy ≠ .disabled
  spared : ∀ t ∈ steps, t.empties s.buffer.layout = false
  held : s.buffer.cache.policy = .reclaimable →
    ∀ before, before <+: steps → (s.run before).1.holds id = true

theorem Undisturbed.of_prefix {id : Nat} {before : List SessionStep}
    (h : s.Undisturbed id steps) (hbefore : before <+: steps) : s.Undisturbed id before :=
  ⟨h.keeping, fun t ht ↦ h.spared t (hbefore.subset ht),
    fun hr first hfirst ↦ h.held hr first (hfirst.trans hbefore)⟩

theorem undisturbed_nil {id : Nat} : s.Undisturbed id [] ↔
    s.buffer.cache.policy ≠ .disabled ∧
      (s.buffer.cache.policy = .reclaimable → s.holds id = true) := by
  constructor
  · intro h
    exact ⟨h.keeping, fun hr ↦ h.held hr [] List.nil_prefix⟩
  · rintro ⟨hpolicy, hheld⟩
    refine ⟨hpolicy, nofun, fun hr before hbefore ↦ ?_⟩
    obtain rfl := List.prefix_nil.mp hbefore
    exact hheld hr

/-- One more step disturbs nothing if it spares the slot and leaves the array held. -/
theorem undisturbed_concat {id : Nat} : s.Undisturbed id (steps ++ [t]) ↔
    s.Undisturbed id steps ∧ t.empties s.buffer.layout = false ∧
      (s.buffer.cache.policy = .reclaimable →
        ((s.run steps).1.step t).1.holds id = true) := by
  rw [← run_concat]
  constructor
  · intro h
    exact ⟨h.of_prefix (List.prefix_append _ _), (SessionStep.forall_mem_concat.mp h.spared).2,
      fun hr ↦ h.held hr _ List.prefix_rfl⟩
  · rintro ⟨h, hempties, hheld⟩
    refine ⟨h.keeping, SessionStep.forall_mem_concat.mpr ⟨h.spared, hempties⟩,
      fun hr before hbefore ↦ ?_⟩
    -- a moment of the longer run is one of the shorter one, or its end
    rcases List.prefix_concat_iff.mp hbefore with rfl | hold
    · exact hheld hr
    · exact h.held hr before hold

/-- **An array stays at hand as long as nothing disturbs it.** -/
theorem keeps_run_iff (h : s.Orderly) (ha : a.id < s.nextId)
    (hsteps : ∀ t ∈ steps, t.stays = true) :
    (s.run steps).1.Keeps a ↔ s.Keeps a ∧ s.Undisturbed a.id steps := by
  induction steps using List.reverseRecOn with
  | nil =>
    rw [run_nil, undisturbed_nil]
    refine ⟨fun hkeeps ↦ ⟨hkeeps, ?_, (h.keeps_iff.mp hkeeps).2⟩, fun hkeeps ↦ hkeeps.1⟩
    exact h.suits.policy_ne_disabled (h.keeps_iff.mp hkeeps).1
  | append_singleton steps t ih =>
    obtain ⟨hbefore, ht⟩ := SessionStep.forall_mem_concat.mp hsteps
    have hold : a.id < (s.run steps).1.nextId := by
      rw [nextId_run]
      omega
    rw [run_concat, keeps_step_of_lt (orderly_run h hbefore) ht hold, ih hbefore,
      policy_run hbefore, layout_run hbefore, undisturbed_concat, and_assoc]

/-- If one array at most was at hand, it is still there, or the next reader is handed one that was
built since. -/
theorem keeps_or_built_since (h : s.Orderly) (honly : ∀ b, s.Keeps b → b = a)
    (hsteps : ∀ t ∈ steps, t.stays = true) :
    (s.run steps).1.Keeps a ∨ s.nextId ≤ (s.run steps).1.offered.id := by
  induction steps using List.reverseRecOn with
  | nil =>
    rcases s.keeps_offered_or_fresh with hkeeps | hfresh
    · exact Or.inl (honly _ hkeeps ▸ hkeeps)
    · exact Or.inr (Nat.le_of_eq hfresh.symm)
  | append_singleton steps t ih =>
    obtain ⟨hbefore, ht⟩ := SessionStep.forall_mem_concat.mp hsteps
    have horderly : (s.run steps).1.Orderly := orderly_run h hbefore
    have hnext : s.nextId ≤ (s.run (steps ++ [t])).1.nextId := by
      rw [nextId_run]
      exact Nat.le_add_right ..
    rw [run_concat] at hnext ⊢
    -- identities only grow, so that once a newer array is offered every later one is newer
    rcases ih hbefore with hkept | hsince
    · rcases ((s.run steps).1.step t).1.keeps_offered_or_fresh with hkeeps | hfresh
      · have hsame := offered_of_keeps_step horderly ht hkeeps
        rw [offered_of_keeps hkept] at hsame
        exact Or.inl (hsame ▸ hkeeps)
      · exact Or.inr (hfresh ▸ hnext)
    · exact Or.inr (hsince.trans (offered_id_le_step horderly ht))

/-- Where nobody takes the array in between, what was built since is built just now. -/
theorem offered_of_built_since (h : s.Orderly) (hsteps : ∀ t ∈ steps, t.stays = true)
    (htakes : ∀ t ∈ steps, t.takes = false) (hsince : s.nextId ≤ (s.run steps).1.offered.id) :
    (s.run steps).1.offered = ⟨(s.run steps).1.nextId, (s.run steps).1.buffer.coordinates⟩ := by
  apply offered_of_not_isCached
  by_contra hcached
  obtain ⟨b, hb⟩ := isCached_iff.mp (Bool.of_not_eq_false hcached)
  have horderly : (s.run steps).1.Orderly := orderly_run h hsteps
  have hlt : b.id < (s.run steps).1.nextId := horderly.fresh b (horderly.keeps_iff.mp hb).1
  rw [nextId_run, List.countP_eq_zero.mpr fun t ht ↦ Bool.eq_false_iff.mp (htakes t ht)] at hlt
  rw [offered_of_keeps hb] at hsince
  omega

/-- What one reader is handed is at hand for the next one exactly if nothing disturbs it. -/
theorem keeps_again_iff (h : s.Orderly) (name : Option String)
    (hsteps : ∀ t ∈ steps, t.stays = true) :
    ((s.step (.points name)).1.run steps).1.Keeps s.offered ↔
      (s.step (.points name)).1.Undisturbed s.offered.id steps := by
  have hid : s.offered.id < (s.step (.points name)).1.nextId :=
    Nat.lt_succ_of_le h.offered_id_le
  rw [keeps_run_iff (orderly_step h rfl) hid hsteps]
  refine ⟨fun hkeeps ↦ hkeeps.2, fun hundisturbed ↦ ⟨?_, hundisturbed⟩⟩
  obtain ⟨hpolicy, hheld⟩ := undisturbed_nil.mp (hundisturbed.of_prefix List.nil_prefix)
  rw [policy_step (t := .points name) rfl] at hpolicy hheld
  exact (keeps_step h rfl).mpr ⟨rfl, ⟨hpolicy, rfl⟩, hheld⟩

/-- **Of two readers in turn, the second is handed the array of the first** exactly if nothing
disturbs it in between. Otherwise it is handed one that was built since. -/
theorem offered_again (h : s.Orderly) (name : Option String)
    (hsteps : ∀ t ∈ steps, t.stays = true) :
    let first := (s.step (.points name)).1
    let second := (first.run steps).1
    (second.offered.id = s.offered.id ↔ first.Undisturbed s.offered.id steps) ∧
      (second.offered.id = s.offered.id → second.offered = s.offered) ∧
      (second.offered.id ≠ s.offered.id → first.nextId ≤ second.offered.id) := by
  intro first second
  have hid : s.offered.id < first.nextId := Nat.lt_succ_of_le h.offered_id_le
  have hkeeps : second.Keeps s.offered ↔ first.Undisturbed s.offered.id steps :=
    keeps_again_iff h name hsteps
  have honly : ∀ b, first.Keeps b → b = s.offered := fun b hb ↦
    (offered_of_keeps_step h rfl hb).symm
  rw [← hkeeps]
  rcases keeps_or_built_since (orderly_step h rfl) honly hsteps with hkept | hsince
  · have hsame : second.offered = s.offered := offered_of_keeps hkept
    have hsameId : second.offered.id = s.offered.id := congrArg PointArray.id hsame
    exact ⟨iff_of_true hsameId hkept, fun _ ↦ hsame, fun hne ↦ absurd hsameId hne⟩
  · have hne : second.offered.id ≠ s.offered.id := Nat.ne_of_gt (Nat.lt_of_lt_of_le hid hsince)
    have hgone : ¬second.Keeps s.offered := fun hkept ↦
      hne (congrArg PointArray.id (offered_of_keeps hkept))
    exact ⟨iff_of_false hne hgone, fun heq ↦ absurd heq hne, fun _ ↦ hsince⟩

/-! ### From the making of a buffer on -/

omit [Storage σ] in
/-- A buffer is made with the policy that was asked for, and keeps nothing yet. -/
theorem cache_ofStored {ordinates : Array σ} {options : SequenceOptions} {b : PackedSequence σ}
    (hb : PackedSequence.ofStored ordinates options = .ok b) :
    b.cache = ⟨options.cache, .empty⟩ := by
  rw [PackedSequence.ofStored] at hb
  split at hb
  · rw [← Except.ok.inj hb]
  · cases hb

/-- **Kept points live as long as the policy says.** After any run over a new buffer that writes to
it, reads it, releases it, copies it and takes and drops arrays of points:

* points are kept exactly if they are to be kept at all, somebody took the array since the last
  write or release, and, where it is only watched, somebody still holds the array that was put
  into the slot last;
* reading one point and asking whether points are kept change nothing, and it never shows if they
  sweep a slot whose array is gone;
* whoever takes the array now and again later gets the same one exactly if nothing disturbed it
  in between: no write, no release, and, where it is only watched, somebody held it all along.
  Otherwise the later one was built since, and by the later reader if nobody took it in between;
* where nothing is to be kept, the slot is empty;
* a copy has the same policy and contents, and keeps nothing.

A write counts whether or not its place exists. Only one to an ordinate that the layout does not
have is no write: it is refused before anything is done. -/
theorem kept_points_follow_policy {ordinates : Array σ} {options : SequenceOptions}
    {b : PackedSequence σ} (hb : PackedSequence.ofStored ordinates options = .ok b)
    (hsteps : ∀ t ∈ steps, t.stays = true) :
    let s := ((start b).run steps).1
    (s.isCached = true ↔ options.cache ≠ .disabled ∧ SessionStep.AskedSince options.layout steps ∧
      (options.cache = .reclaimable →
        ∃ a, (start b).lastStored steps = some a ∧ s.holds a.id = true)) ∧
    ((∀ t, t.reads = true → (s.step t).1 = s) ∧
      ∀ marked : List (Bool × SessionStep), marked.map Prod.snd = steps →
        ((start b).runSwept marked).2 = ((start b).run steps).2) ∧
    (∀ name between, (∀ t ∈ between, t.stays = true) →
      let first := (s.step (.points name)).1
      let second := (first.run between).1
      (second.offered.id = s.offered.id ↔ first.Undisturbed s.offered.id between) ∧
      (second.offered.id = s.offered.id → second.offered = s.offered) ∧
      (second.offered.id ≠ s.offered.id → first.nextId ≤ second.offered.id ∧
        ((∀ t ∈ between, t.takes = false) →
          second.offered = ⟨second.nextId, second.buffer.coordinates⟩))) ∧
    (options.cache = .disabled → s.buffer.cache.slot = .empty) ∧
    ∀ name, ∃ c, (s.step (.copy name)).1.copies.find? name = some c ∧
      c.cache = ⟨options.cache, .empty⟩ ∧ c.contents = s.buffer.contents := by
  intro s
  have hslot : b.cache.slot = .empty := congrArg PointCache.slot (cache_ofStored hb)
  have hstart : (start b).Orderly := orderly_start hslot
  have hempty : (start b).buffer.cache.slot.array? = none := congrArg Slot.array? hslot
  have horderly : s.Orderly := orderly_run hstart hsteps
  have hlayout : (start b).buffer.layout = options.layout :=
    congrArg Prod.fst (slot_ofStored hb).2
  have hoptions : (start b).buffer.cache.policy = options.cache :=
    congrArg PointCache.policy (cache_ofStored hb)
  have hpolicy : s.buffer.cache.policy = options.cache := (policy_run hsteps).trans hoptions
  refine ⟨?_, ⟨?_, ?_⟩, ?_, ?_, ?_⟩
  · rw [← hoptions, ← hlayout]
    exact isCached_run_iff hstart hempty hsteps
  · exact fun t ht ↦ step_of_reads ht
  · rintro marked rfl
    exact answers_runSwept hstart fun step hstep ↦ hsteps _ (List.mem_map_of_mem hstep)
  · intro name between hbetween first second
    obtain ⟨hiff, hsame, hsince⟩ := offered_again horderly name hbetween
    exact ⟨hiff, hsame, fun hne ↦ ⟨hsince hne, fun htakes ↦
      offered_of_built_since (orderly_step horderly rfl) hbetween htakes (hsince hne)⟩⟩
  · intro hdisabled
    exact horderly.suits.slot_of_disabled (hpolicy.trans hdisabled)
  · intro name
    refine ⟨s.buffer.copy, Named.find?_insert_self .., ?_, rfl⟩
    rw [← hpolicy]
    rfl

/-- Watched, written to, and taken again under "b": the points are kept although "a" is dropped.
They are there for the next reader after a point was read, and are built anew once "b" is
dropped. -/
theorem kept_points_follow_policy_watched :
    let b : PackedSequence Float := ⟨.xy, #[1.0, 5.0, 3.0, 2.0], rfl, ⟨.reclaimable, .empty⟩⟩
    let steps : List SessionStep :=
      [.points (some "a"), .setOrdinate 0 0 8.0, .points (some "b"), .drop "a"]
    let s := ((start b).run steps).1
    let first := (s.step (.points none)).1
    PackedSequence.ofStored #[1.0, 5.0, 3.0, 2.0] ⟨.xy, .reclaimable⟩ = .ok b ∧
    (∀ t ∈ steps, t.stays = true) ∧ s.isCached = true ∧
    (first.run [.point 0]).1.offered = s.offered ∧
    (first.run [.drop "b"]).1.offered.id ≠ s.offered.id := by
  intro b steps s first
  have hb : PackedSequence.ofStored #[1.0, 5.0, 3.0, 2.0] ⟨.xy, .reclaimable⟩ = .ok b := rfl
  have hsteps : ∀ t ∈ steps, t.stays = true := by simp [steps, SessionStep.stays]
  obtain ⟨hcached, _, hagain, _⟩ := kept_points_follow_policy hb hsteps
  refine ⟨hb, hsteps, hcached.mpr ⟨nofun, ?_, fun _ ↦ ⟨s.offered, ?_, by decide⟩⟩, ?_, ?_⟩
  · exact ⟨[.points (some "a"), .setOrdinate 0 0 8.0], .points (some "b"), [.drop "a"], rfl, rfl,
      fun u hu ↦ List.mem_singleton.mp hu ▸ rfl⟩
  · unfold s steps b
    rfl
  · have hpoint : ∀ t ∈ [SessionStep.point 0], t.stays = true := by simp [SessionStep.stays]
    obtain ⟨hiff, hsame, -⟩ := hagain none _ hpoint
    refine hsame (hiff.mpr ⟨by decide, by simp [SessionStep.empties], fun _ before hbefore ↦ ?_⟩)
    rcases List.prefix_cons_iff.mp hbefore with rfl | ⟨rest, rfl, hrest⟩
    · decide
    · rw [List.prefix_nil.mp hrest]
      decide
  · have hdrop : ∀ t ∈ [SessionStep.drop "b"], t.stays = true := by simp [SessionStep.stays]
    obtain ⟨hiff, -, -⟩ := hagain none _ hdrop
    intro hsame
    have hheld := (hiff.mp hsame).held (by decide) [.drop "b"] List.prefix_rfl
    exact absurd hheld (by decide)

end Session

end Geospatial
