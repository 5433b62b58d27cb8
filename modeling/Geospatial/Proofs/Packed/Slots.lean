import Geospatial.Proofs.Packed.Transparency

/-!
# What is in the slot of a cache

A slot is filled by a reader who finds nothing at hand, emptied by whoever writes, and, where it
only watches its array, left with an array that nobody holds any more. This module says once what
any step does to the slot of the buffer at hand (`array?_step`), and reads off it which array the
next reader will be handed (`keeps_step`).

**The invariant** is `Orderly`: an array is in the slot the way the policy puts it there, and its
identity is below the next one. The second half is what makes a watched array that is gone stay
gone. Identities are never reused, and only an array that was just handed out can come to be held
(`holds_step`).

Steps that exchange the buffer for a copy are left out: `stays` holds of all the others.
-/

namespace Geospatial

/-! ### The slot of a cache -/

/-- The array in a slot, whether or not somebody still holds it. -/
def Slot.array? : Slot → Option PointArray
  | .empty => none
  | .kept array => some array
  | .watched array => some array

namespace PointCache

variable {c : PointCache} {held : Nat → Bool} {id : Nat} {points : List (Coordinate Float)}
  {a : PointArray}

/-- What a reader is handed is the array at hand, or else a fresh one. -/
theorem fst_obtain : (c.obtain held id points).1 = (c.current held).getD ⟨id, points⟩ := by
  rw [obtain]
  rcases c.current held with - | array <;> rfl

theorem snd_obtain_of_current (h : c.current held = some a) :
    (c.obtain held id points).2 = c := by
  rw [obtain, h]

/-- A fresh array is put into the slot in the way of the policy. -/
theorem snd_obtain_of_none (h : c.current held = none) :
    (c.obtain held id points).2 = { c with slot := fill c.policy ⟨id, points⟩ } := by
  rw [obtain, h]

/-- An array in the slot is there as the policy puts it there. -/
def Suits (c : PointCache) : Prop :=
  ∀ a, c.slot.array? = some a → c.slot = fill c.policy a

theorem suits_of_slot_empty (h : c.slot = .empty) : c.Suits := by
  intro a ha
  rw [h] at ha
  cases ha

/-- A policy that keeps nothing fills nothing in. -/
theorem array?_fill (policy : CachePolicy) (a : PointArray) :
    (fill policy a).array? = if policy = .disabled then none else some a := by
  rcases policy with - | - | - <;> rfl

theorem fill_eq_kept_iff {policy : CachePolicy} {a b : PointArray} :
    fill policy a = .kept b ↔ policy = .retained ∧ a = b := by
  rcases policy with - | - | - <;> simp [fill]

theorem fill_eq_watched_iff {policy : CachePolicy} {a b : PointArray} :
    fill policy a = .watched b ↔ policy = .reclaimable ∧ a = b := by
  rcases policy with - | - | - <;> simp [fill]

/-- **Handing out points fills the slot as the policy has it**, or not at all. -/
theorem suits_obtain (h : c.Suits) : (c.obtain held id points).2.Suits := by
  rcases hcurrent : c.current held with - | array
  · rw [snd_obtain_of_none hcurrent]
    intro a ha
    have hfill : (fill c.policy ⟨id, points⟩).array? = some a := ha
    rw [array?_fill] at hfill
    split at hfill
    · cases hfill
    · rw [← Option.some.inj hfill]
  · rwa [snd_obtain_of_current hcurrent]

/-- **Where nothing is to be kept, the slot is never filled.** -/
theorem Suits.slot_of_disabled (h : c.Suits) (hpolicy : c.policy = .disabled) :
    c.slot = .empty := by
  rcases hslot : c.slot with - | a | a
  · rfl
  · rw [← hslot, h a (by rw [hslot]; rfl), hpolicy, fill]
  · rw [← hslot, h a (by rw [hslot]; rfl), hpolicy, fill]

/-- **An array is at hand where it is in the slot** and, if it is only watched, where somebody holds
it. -/
theorem Suits.current_eq_some_iff (h : c.Suits) :
    c.current held = some a ↔
      c.slot.array? = some a ∧ (c.policy = .reclaimable → held a.id = true) := by
  rw [current]
  rcases hslot : c.slot with - | b | b
  · constructor
    · intro ha
      cases ha
    · rintro ⟨ha, -⟩
      cases ha
  · have hfill : fill c.policy b = .kept b := (h b (by rw [hslot]; rfl)).symm.trans hslot
    have hpolicy : c.policy ≠ .reclaimable := by
      rw [(fill_eq_kept_iff.mp hfill).1]
      decide
    exact ⟨fun ha ↦ ⟨ha, fun hr ↦ absurd hr hpolicy⟩, fun ha ↦ ha.1⟩
  · have hfill : fill c.policy b = .watched b := (h b (by rw [hslot]; rfl)).symm.trans hslot
    have hpolicy : c.policy = .reclaimable := (fill_eq_watched_iff.mp hfill).1
    show (if held b.id then some b else none) = some a ↔ some b = some a ∧ _
    constructor
    · intro ha
      split at ha
      · rename_i hheld
        exact ⟨ha, fun _ ↦ Option.some.inj ha ▸ hheld⟩
      · cases ha
    · rintro ⟨ha, hheld⟩
      obtain rfl := Option.some.inj ha
      rw [if_pos (hheld hpolicy)]

/-- Something in the slot shows that something is to be kept. -/
theorem Suits.policy_ne_disabled (h : c.Suits) (ha : c.slot.array? = some a) :
    c.policy ≠ .disabled := by
  intro hpolicy
  rw [h.slot_of_disabled hpolicy] at ha
  cases ha

end PointCache

/-! ### What a step does to the slot -/

namespace SessionStep

/-- The step writes to the buffer, or gives up what it keeps. A write to an ordinate that the layout
does not have is refused before it does either. -/
def empties (d : Layout) : SessionStep → Bool
  | .setOrdinate _ k _ => k < d.stride
  | .writeRaw _ => true
  | .release => true
  | _ => false

/-- The step takes the array of all points. -/
def takes : SessionStep → Bool
  | .points _ => true
  | _ => false

/-- The step leaves the buffer at hand in its place. -/
def stays : SessionStep → Bool
  | .swap _ => false
  | _ => true

end SessionStep

namespace Session

variable {σ : Type} [Storage σ]

/-- The array that a reader who asks now is handed. -/
def offered (s : Session σ) : PointArray :=
  (s.buffer.pointArray s.holds s.nextId).1

variable {s : Session σ} {t : SessionStep} {a : PointArray}

/-- The next reader is handed the array at hand, or one of the points as they are now. -/
theorem offered_eq (s : Session σ) :
    s.offered = (s.buffer.cache.current s.holds).getD ⟨s.nextId, s.buffer.coordinates⟩ :=
  PointCache.fst_obtain

/-- Taking the array of all points hands it out. -/
theorem answer_points (s : Session σ) (name : Option String) :
    (s.step (.points name)).2 = .ok (.points s.offered.points (s.namesOf s.offered.id)) := rfl

/-- **A step empties the slot, fills it or leaves it alone**; there is nothing else. -/
theorem cache_step (ht : t.stays = true) : (s.step t).1.buffer.cache =
    if t.empties s.buffer.layout then s.buffer.cache.release
    else if t.takes then
      (s.buffer.cache.obtain s.holds s.nextId s.buffer.coordinates).2
    else s.buffer.cache := by
  rw [buffer_step]
  cases t with
  | setOrdinate i k v =>
    simp only [SessionStep.empties, decide_eq_true_eq]
    exact s.buffer.cache_setOrdinate i k v
  | writeRaw writes => exact s.buffer.release.cache_writeEach _
  | swap name => cases ht
  | _ => rfl

theorem policy_step (ht : t.stays = true) :
    (s.step t).1.buffer.cache.policy = s.buffer.cache.policy := by
  rw [cache_step ht]
  split
  · rfl
  · split
    · exact PointCache.policy_obtain ..
    · rfl

theorem layout_step (ht : t.stays = true) :
    (s.step t).1.buffer.layout = s.buffer.layout := by
  rw [buffer_step]
  cases t with
  | setOrdinate i k v => exact s.buffer.layout_setOrdinate i k v
  | writeRaw writes => exact s.buffer.release.layout_writeEach writes
  | swap name => cases ht
  | _ => rfl

/-- An identity is used up where the array is taken, also where nothing is kept. -/
theorem nextId_step (s : Session σ) (t : SessionStep) :
    (s.step t).1.nextId = if t.takes then s.nextId + 1 else s.nextId := by
  cases t with
  | swap name =>
    show (s.swap name).nextId = _
    unfold swap
    split <;> rfl
  | scan name =>
    show (s.scan name).1.nextId = _
    unfold scan
    split <;> rfl
  | _ => rfl

/-- **Only the array that is handed out can come to be held.** -/
theorem holds_step {id : Nat} (h : (s.step t).1.holds id = true) :
    s.holds id = true ∨ t.takes = true ∧ id = s.offered.id := by
  obtain ⟨entry, hmem, hid⟩ := List.any_eq_true.mp h
  have hold (hbefore : entry ∈ s.held) : s.holds id = true :=
    List.any_eq_true.mpr ⟨entry, hbefore, hid⟩
  rw [held_step] at hmem
  cases t with
  | points name =>
    rcases name with - | name
    · exact Or.inl (hold hmem)
    · rcases Named.mem_of_mem_insert hmem with rfl | hmem
      · exact Or.inr ⟨rfl, (beq_iff_eq.mp hid).symm⟩
      · exact Or.inl (hold hmem)
  | drop name => exact Or.inl (hold (List.mem_filter.mp hmem).1)
  | _ => exact Or.inl (hold hmem)

/-! ### The invariant -/

/-- The slot holds what the policy puts there, with an identity that was given out already. -/
structure Orderly (s : Session σ) : Prop where
  suits : s.buffer.cache.Suits
  fresh : ∀ a, s.buffer.cache.slot.array? = some a → a.id < s.nextId

omit [Storage σ] in
/-- A session that begins with nothing kept is orderly. -/
theorem orderly_start {b : PackedSequence σ} (h : b.cache.slot = .empty) : (start b).Orderly where
  suits := PointCache.suits_of_slot_empty h
  fresh a ha := by
    have hnone : b.cache.slot.array? = some a := ha
    rw [h] at hnone
    cases hnone

/-- The array with which the next reader is served: it is at hand. -/
def Keeps (s : Session σ) (a : PointArray) : Prop :=
  s.buffer.cache.current s.holds = some a

omit [Storage σ] in
/-- What is kept is what is in the slot, as far as the policy lets go of it. -/
theorem Orderly.keeps_iff (h : s.Orderly) : s.Keeps a ↔
    s.buffer.cache.slot.array? = some a ∧
      (s.buffer.cache.policy = .reclaimable → s.holds a.id = true) :=
  h.suits.current_eq_some_iff

omit [Storage σ] in
/-- Points are reported as kept if some array is. -/
theorem isCached_iff : s.isCached = true ↔ ∃ a, s.Keeps a :=
  Option.isSome_iff_exists

omit [Storage σ] in
theorem current_of_not_isCached (h : s.isCached = false) :
    s.buffer.cache.current s.holds = none :=
  Option.isNone_iff_eq_none.mp (Option.isSome_eq_false_iff.mp h)

theorem offered_of_keeps (h : s.Keeps a) : s.offered = a := by
  rw [offered_eq, h, Option.getD_some]

theorem offered_of_not_isCached (h : s.isCached = false) :
    s.offered = ⟨s.nextId, s.buffer.coordinates⟩ := by
  rw [offered_eq, current_of_not_isCached h, Option.getD_none]

/-- What is handed out is at hand already, or takes the next identity. -/
theorem keeps_offered_or_fresh (s : Session σ) : s.Keeps s.offered ∨ s.offered.id = s.nextId := by
  rcases hcached : s.isCached
  · rw [offered_of_not_isCached hcached]
    exact Or.inr rfl
  · obtain ⟨a, ha⟩ := isCached_iff.mp hcached
    exact Or.inl (offered_of_keeps ha ▸ ha)

/-- What is offered has an identity that was given already, or the next one. -/
theorem Orderly.offered_id_le (h : s.Orderly) : s.offered.id ≤ s.nextId := by
  rcases s.keeps_offered_or_fresh with hkeeps | hfresh
  · exact Nat.le_of_lt (h.fresh _ (h.keeps_iff.mp hkeeps).1)
  · exact Nat.le_of_eq hfresh

/-! ### One step -/

/-- **What a step does to the slot.** -/
theorem array?_step (h : s.Orderly) (ht : t.stays = true) :
    (s.step t).1.buffer.cache.slot.array? =
      if t.empties s.buffer.layout then none
      else if t.takes then
        if s.buffer.cache.policy = .disabled then none else some s.offered
      else s.buffer.cache.slot.array? := by
  rw [cache_step ht]
  rcases t.empties s.buffer.layout
  · rcases t.takes
    · rfl
    · show (s.buffer.cache.obtain s.holds s.nextId s.buffer.coordinates).2.slot.array? = _
      -- if nothing was kept the slot is filled, and if something was it stays there
      rcases hcached : s.isCached
      · rw [PointCache.snd_obtain_of_none (current_of_not_isCached hcached),
          offered_of_not_isCached hcached]
        exact PointCache.array?_fill ..
      · obtain ⟨a, ha⟩ := isCached_iff.mp hcached
        have hslot : s.buffer.cache.slot.array? = some a := (h.keeps_iff.mp ha).1
        rw [PointCache.snd_obtain_of_current ha, offered_of_keeps ha, hslot]
        exact (if_neg (h.suits.policy_ne_disabled hslot)).symm
  · rfl

/-- **The invariant is kept by every step.** -/
theorem orderly_step (h : s.Orderly) (ht : t.stays = true) : (s.step t).1.Orderly where
  suits := by
    rw [cache_step ht]
    split
    · exact PointCache.suits_of_slot_empty rfl
    · split
      · exact PointCache.suits_obtain h.suits
      · exact h.suits
  fresh a ha := by
    rw [array?_step h ht] at ha
    rw [nextId_step]
    split at ha
    · cases ha
    · split at ha
      · split at ha
        · cases ha
        -- what was put in was offered, so its identity is old or has just been used up
        · rw [if_pos ‹_›, ← Option.some.inj ha]
          exact Nat.lt_succ_of_le h.offered_id_le
      · rw [if_neg ‹_›]
        exact h.fresh a ha

/-- **What is at hand after a step**: what was handed out in it, or what was at hand before, unless
the step empties the slot or leaves a watched array to nobody. -/
theorem keeps_step (h : s.Orderly) (ht : t.stays = true) : (s.step t).1.Keeps a ↔
    t.empties s.buffer.layout = false ∧
      (if t.takes then s.buffer.cache.policy ≠ .disabled ∧ s.offered = a else s.Keeps a) ∧
      (s.buffer.cache.policy = .reclaimable → (s.step t).1.holds a.id = true) := by
  rw [(orderly_step h ht).keeps_iff, array?_step h ht, policy_step ht]
  rcases hempties : t.empties s.buffer.layout
  · rcases htakes : t.takes
    · -- nothing that was not held comes to be held here
      have hold (hheld : (s.step t).1.holds a.id = true) : s.holds a.id = true := by
        rcases holds_step hheld with hold | ⟨htook, -⟩
        · exact hold
        · exact absurd (htakes.symm.trans htook) nofun
      rw [if_neg nofun, if_neg nofun, if_neg nofun, h.keeps_iff]
      exact ⟨fun ⟨hslot, hheld⟩ ↦ ⟨rfl, ⟨hslot, fun hr ↦ hold (hheld hr)⟩, hheld⟩,
        fun ⟨_, ⟨hslot, _⟩, hheld⟩ ↦ ⟨hslot, hheld⟩⟩
    · rw [if_neg nofun, if_pos rfl, if_pos rfl]
      by_cases hpolicy : s.buffer.cache.policy = .disabled <;> simp [hpolicy]
  · simp

/-- **What is at hand after a step is what a reader would have been handed before it.** -/
theorem offered_of_keeps_step (h : s.Orderly) (ht : t.stays = true) (ha : (s.step t).1.Keeps a) :
    s.offered = a := by
  obtain ⟨-, hbefore, -⟩ := (keeps_step h ht).mp ha
  split at hbefore
  · exact hbefore.2
  · exact offered_of_keeps hbefore

/-- **An array that is not at hand never comes back**, and one that is stays unless the step empties
the slot or leaves the array to nobody. -/
theorem keeps_step_of_lt (h : s.Orderly) (ht : t.stays = true) (ha : a.id < s.nextId) :
    (s.step t).1.Keeps a ↔ s.Keeps a ∧ t.empties s.buffer.layout = false ∧
      (s.buffer.cache.policy = .reclaimable → (s.step t).1.holds a.id = true) := by
  constructor
  · intro hnext
    have hoffered : s.offered = a := offered_of_keeps_step h ht hnext
    rcases s.keeps_offered_or_fresh with hkeeps | hfresh
    · obtain ⟨hempties, -, hheld⟩ := (keeps_step h ht).mp hnext
      exact ⟨hoffered ▸ hkeeps, hempties, hheld⟩
    -- an array that is kept from now on would be new, and this one is not
    · rw [hoffered] at hfresh
      omega
  · rintro ⟨hkeeps, hempties, hheld⟩
    have hpolicy : s.buffer.cache.policy ≠ .disabled :=
      h.suits.policy_ne_disabled (h.keeps_iff.mp hkeeps).1
    rw [keeps_step h ht]
    refine ⟨hempties, ?_, hheld⟩
    split
    · exact ⟨hpolicy, offered_of_keeps hkeeps⟩
    · exact hkeeps

/-- **Arrays are handed out in the order in which they were built.** -/
theorem offered_id_le_step (h : s.Orderly) (ht : t.stays = true) :
    s.offered.id ≤ (s.step t).1.offered.id := by
  rcases (s.step t).1.keeps_offered_or_fresh with hkeeps | hfresh
  · exact Nat.le_of_eq (congrArg PointArray.id (offered_of_keeps_step h ht hkeeps))
  · rw [hfresh, nextId_step]
    have hle : s.offered.id ≤ s.nextId := h.offered_id_le
    split
    · exact Nat.le_succ_of_le hle
    · exact hle

end Session

end Geospatial
