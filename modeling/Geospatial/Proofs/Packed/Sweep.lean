import Geospatial.Proofs.Packed.Slots

/-!
# Emptying a slot on a look

A slot that watches an array which nobody holds any more may stay as it is, or be emptied by the
next reader who looks at it. This module proves that it makes no difference: whichever looks sweep
the slot, and whenever they do, all steps answer the same (`answers_runSwept`).

The two sessions differ in one cache. `StandsIn` says when one cache may stand for the other: they
have the same policy and the same array at hand, whatever is in the slots. That both sessions are
`Orderly` carries this through a step, since an array that is gone from one slot and still watched
in the other can never be held again.
-/

namespace Geospatial

namespace PointCache

variable {c : PointCache} {held : Nat → Bool}

/-- Looks at the slot, and empties it if nothing is at hand. -/
def sweep (c : PointCache) (held : Nat → Bool) : PointCache :=
  match c.current held with
  | some _ => c
  | none => c.release

/-- Sweeping does nothing, or it empties a slot whose array nobody can have. -/
theorem sweep_eq_or (c : PointCache) (held : Nat → Bool) :
    c.sweep held = c ∨ c.sweep held = c.release ∧ c.current held = none := by
  rw [sweep]
  split
  · exact Or.inl rfl
  · exact Or.inr ⟨rfl, ‹_›⟩

@[simp] theorem policy_sweep : (c.sweep held).policy = c.policy := by
  rcases c.sweep_eq_or held with h | ⟨h, -⟩ <;> rw [h]
  rfl

/-- What is at hand is not swept away. -/
@[simp] theorem current_sweep : (c.sweep held).current held = c.current held := by
  rcases c.sweep_eq_or held with h | ⟨h, hnone⟩ <;> rw [h]
  rw [current_release, hnone]

end PointCache

namespace Session

variable {σ : Type} {s : Session σ} {c : PointCache} {t : SessionStep} {a : PointArray}

/-- The session with another cache for the buffer at hand. -/
def withCache (s : Session σ) (c : PointCache) : Session σ :=
  { s with buffer := { s.buffer with cache := c } }

/-- Looks at the slot of the buffer at hand. -/
def sweep (s : Session σ) : Session σ :=
  s.withCache (s.buffer.cache.sweep s.holds)

/-- The cache does what that of the session does: it has the same array at hand, and the policy by
which the next one is kept. -/
structure StandsIn (c : PointCache) (s : Session σ) : Prop where
  policy : c.policy = s.buffer.cache.policy
  current : c.current s.holds = s.buffer.cache.current s.holds

theorem StandsIn.sweep (h : StandsIn c s) : StandsIn (c.sweep s.holds) s where
  policy := by rw [PointCache.policy_sweep, h.policy]
  current := by rw [PointCache.current_sweep, h.current]

theorem Orderly.sweep (h : s.Orderly) : s.sweep.Orderly := by
  rcases s.buffer.cache.sweep_eq_or s.holds with heq | ⟨heq, -⟩
  · rw [Session.sweep, heq]
    exact h
  · rw [Session.sweep, heq]
    exact ⟨PointCache.suits_of_slot_empty rfl, nofun⟩

variable [Storage σ]

/-- With either cache the next reader is handed the same array. -/
theorem StandsIn.offered_withCache (h : StandsIn c s) : (s.withCache c).offered = s.offered := by
  rw [offered_eq, offered_eq]
  show (c.current s.holds).getD _ = _
  rw [h.current]
  rfl

omit [Storage σ] in
/-- Copies begin with nothing kept, so that they do not show the cache either. -/
theorem StandsIn.copy_withCache (h : StandsIn c s) :
    (s.withCache c).buffer.copy = s.buffer.copy := by
  show { s.buffer with cache := ⟨c.policy, .empty⟩ } = s.buffer.copy
  rw [h.policy]
  rfl

theorem scan_withCache (s : Session σ) (c : PointCache) (name : String) :
    (s.withCache c).scan name = ((s.scan name).1.withCache c, (s.scan name).2) := by
  have hpoints : (s.withCache c).buffer.toSequence.points = s.buffer.toSequence.points := rfl
  rw [scan, scan, hpoints]
  rcases Extrema.scan <$> s.buffer.toSequence.points with v | ⟨- | indices⟩ <;> rfl

/-- **Side by side, a step answers the same**, and again the sessions differ in one cache. -/
theorem StandsIn.step_withCache (h : StandsIn c s) (ht : t.stays = true) :
    ((s.withCache c).step t).2 = (s.step t).2 ∧
      ∃ c', ((s.withCache c).step t).1 = (s.step t).1.withCache c' := by
  have hcontents : s.buffer.contents = (s.withCache c).buffer.contents := rfl
  cases t with
  | point i =>
    refine ⟨?_, c, rfl⟩
    show SessionAnswer.point <$> (s.withCache c).buffer.point s.holds i =
      SessionAnswer.point <$> s.buffer.point s.holds i
    rw [PackedSequence.point, PackedSequence.point, ← h.current]
    rfl
  -- which array is handed out is asked of the cache, so that this is where sweeping might show
  | points name =>
    have hoffered : (s.withCache c).offered = s.offered := h.offered_withCache
    refine ⟨?_, ((s.withCache c).step (.points name)).1.buffer.cache, ?_⟩
    · rw [answer_points, answer_points, hoffered]
      rfl
    · rcases name with - | name
      · rfl
      · show { ((s.withCache c).step (.points none)).1 with
          held := s.held.insert name (s.withCache c).offered } = _
        rw [hoffered]
        rfl
  | isCached =>
    refine ⟨?_, c, rfl⟩
    show Except.ok (SessionAnswer.flag (c.current s.holds).isSome) = _
    rw [h.current]
    rfl
  | setOrdinate i k v =>
    obtain ⟨hnext, hanswer⟩ := PackedSequence.setOrdinate_congr hcontents i k v
    exact ⟨congrArg (Except.map fun _ ↦ SessionAnswer.done) hanswer.symm, _,
      congrArg (fun buffer ↦ { s with buffer }) (PackedSequence.eq_with_cache hnext)⟩
  | writeRaw writes =>
    have hreleased : s.buffer.release.contents = (s.withCache c).buffer.release.contents := rfl
    obtain ⟨hnext, hanswer⟩ := PackedSequence.writeEach_congr hreleased writes
    exact ⟨congrArg (Except.map fun _ ↦ SessionAnswer.done) hanswer.symm, _,
      congrArg (fun buffer ↦ { s with buffer }) (PackedSequence.eq_with_cache hnext)⟩
  | copy name =>
    refine ⟨rfl, c, ?_⟩
    show { s.withCache c with
      copies := s.copies.insert name (s.withCache c).buffer.copy } = _
    rw [h.copy_withCache]
    rfl
  | swap name => cases ht
  | scan name =>
    have hscan := s.scan_withCache c name
    exact ⟨congrArg (fun result ↦ SessionAnswer.extrema <$> result.2) hscan, c,
      congrArg Prod.fst hscan⟩
  | release => exact ⟨rfl, _, rfl⟩
  | _ => exact ⟨rfl, c, rfl⟩

/-- What a step leaves at hand is told by what was at hand and by what is held, never by what lies
in the slot besides. -/
theorem StandsIn.step {c' : PointCache} (h : StandsIn c s) (hs : s.Orderly)
    (hc : (s.withCache c).Orderly) (ht : t.stays = true)
    (hnext : ((s.withCache c).step t).1 = (s.step t).1.withCache c') :
    StandsIn c' (s.step t).1 where
  policy := by
    have hpolicy := policy_step (s := s.withCache c) ht
    rw [hnext] at hpolicy
    exact hpolicy.trans (h.policy.trans (policy_step ht).symm)
  current := by
    -- an array is told by the steps that keep it, which are the same on both sides
    have hkeeps (a : PointArray) : (s.withCache c).Keeps a ↔ s.Keeps a := by
      rw [Keeps, Keeps, ← h.current]
      rfl
    refine Option.ext fun a ↦ ?_
    have hleft := keeps_step (a := a) hc ht
    rw [hnext, h.offered_withCache, hkeeps] at hleft
    have hleft : ((s.step t).1.withCache c').Keeps a ↔ t.empties s.buffer.layout = false ∧
        (if t.takes then c.policy ≠ .disabled ∧ s.offered = a else s.Keeps a) ∧
        (c.policy = .reclaimable → (s.step t).1.holds a.id = true) := hleft
    rw [h.policy, ← keeps_step hs ht] at hleft
    exact hleft

/-- A run in which the marked steps look at the slot first. -/
def runSwept (s : Session σ) :
    List (Bool × SessionStep) → Session σ × List (Except Violation SessionAnswer)
  | [] => (s, [])
  | (looks, step) :: rest =>
    let (s, answer) := (if looks then s.sweep else s).step step
    let (s, answers) := s.runSwept rest
    (s, answer :: answers)

/-- **It never shows whether and when a slot is swept.** -/
theorem StandsIn.answers_runSwept (h : StandsIn c s) (hs : s.Orderly)
    (hc : (s.withCache c).Orderly) {steps : List (Bool × SessionStep)}
    (hsteps : ∀ step ∈ steps, step.2.stays = true) :
    ((s.withCache c).runSwept steps).2 = (s.run (steps.map Prod.snd)).2 := by
  induction steps generalizing s c with
  | nil => rfl
  | cons step rest ih =>
    obtain ⟨looks, t⟩ := step
    have ht : t.stays = true := hsteps _ List.mem_cons_self
    obtain ⟨c, heq, h, hc⟩ : ∃ c₀, (if looks then (s.withCache c).sweep else s.withCache c) =
        s.withCache c₀ ∧ StandsIn c₀ s ∧ (s.withCache c₀).Orderly := by
      -- swept before the step or not, some cache stands in for the one that was never swept
      rcases looks
      · exact ⟨c, rfl, h, hc⟩
      · exact ⟨c.sweep s.holds, rfl, h.sweep, hc.sweep⟩
    obtain ⟨hanswer, c', hnext⟩ := h.step_withCache ht
    have htail := ih (h.step hs hc ht hnext) (orderly_step hs ht) (hnext ▸ orderly_step hc ht)
      fun step hstep ↦ hsteps step (List.mem_cons_of_mem _ hstep)
    rw [List.map_cons, run_cons, ← htail, ← hanswer, ← hnext, ← heq]
    rfl

/-- **Nobody can tell when a slot was swept.** -/
theorem answers_runSwept (hs : s.Orderly) {steps : List (Bool × SessionStep)}
    (hsteps : ∀ step ∈ steps, step.2.stays = true) :
    (s.runSwept steps).2 = (s.run (steps.map Prod.snd)).2 :=
  StandsIn.answers_runSwept (c := s.buffer.cache) ⟨rfl, rfl⟩ hs hs hsteps

end Session

end Geospatial
