import Geospatial.Envelope.Change
import Geospatial.Proofs.Extrema.Refinement

/-!
# The bounds of a null box are never seen

A null box still has four bounds, and they may be anything: an envelope keeps whatever it was made
with, and a box over an empty sequence reads as undefined. That no question put to a box looks at
them is `Bounds.interchangeable_of_isNull`. This module adds that no change of an envelope carries
them over into bounds that are looked at later.

Two runs are compared, from envelopes that are `Indistinct`: the very same one, or both null. What
carries the comparison is what a change can do to a null envelope at all (`change_of_isNull`):
nothing, or something that does not depend on it. From it one change keeps envelopes indistinct
(`change_indistinct`), and so does a run of them (`changes_indistinct`).

**The runs need not take the same arguments.** A null box that is handed to a change has bounds as
well, and `EnvelopeChange.Alike` lets the two runs take different ones.
-/

namespace Geospatial

/-! ### Outcomes of two computations -/

/-- Both fail in the same way, or both succeed with answers that are related. -/
inductive SameOutcome {ε α β : Type} (R : α → β → Prop) : Except ε α → Except ε β → Prop
  | error (v : ε) : SameOutcome R (.error v) (.error v)
  | ok {a : α} {b : β} (h : R a b) : SameOutcome R (.ok a) (.ok b)

namespace SameOutcome

variable {ε α β γ δ : Type} {R : α → β → Prop} {S : γ → δ → Prop}

theorem refl {R : α → α → Prop} (h : ∀ a, R a a) (x : Except ε α) : SameOutcome R x x := by
  cases x with
  | error v => exact .error v
  | ok a => exact .ok (h a)

theorem imp {R' : α → β → Prop} {x : Except ε α} {y : Except ε β} (h : SameOutcome R x y)
    (hR : ∀ a b, R a b → R' a b) : SameOutcome R' x y := by
  cases h with
  | error v => exact .error v
  | ok h => exact .ok (hR _ _ h)

/-- Same outcomes go on to same outcomes, if their results do. -/
theorem bind {x : Except ε α} {y : Except ε β} {f : α → Except ε γ} {g : β → Except ε δ}
    (h : SameOutcome R x y) (hfg : ∀ a b, R a b → SameOutcome S (f a) (g b)) :
    SameOutcome S (x >>= f) (y >>= g) := by
  cases h with
  | error v => exact .error v
  | ok h => exact hfg _ _ h

end SameOutcome

/-! ### Changes of a null envelope -/

namespace Envelope

variable {α : Type} [Ordinate α] {e e' : Envelope α} {c c' : EnvelopeChange α}

/-- The same envelope, or two null ones. -/
def Indistinct (e e' : Envelope α) : Prop :=
  e = e' ∨ e.isNull = true ∧ e'.isNull = true

theorem Indistinct.refl (e : Envelope α) : e.Indistinct e :=
  Or.inl rfl

/-- The first point replaces whatever bounds a null envelope has. -/
theorem expandToInclude_of_isNull (he : e.isNull = true) (x y : α) :
    e.expandToInclude x y = ofPoint x y :=
  if_pos he

theorem expandBy_of_isNull (he : e.isNull = true) (dx dy : α) : e.expandBy dx dy = e :=
  if_pos he

theorem translate_of_isNull (he : e.isNull = true) (dx dy : α) : e.translate dx dy = e :=
  if_pos he

/-- **A change leaves every null envelope as it is, or has one answer for all of them.** -/
theorem change_of_isNull (c : EnvelopeChange α) :
    (∀ e : Envelope α, e.isNull = true → e.change c = .ok e) ∨
      ∃ r : Except Violation (Envelope α), ∀ e : Envelope α, e.isNull = true → e.change c = r := by
  -- each change either keeps a null envelope as it is, or does not look at its bounds
  cases c with
  | coverPoint x y =>
    refine Or.inr ⟨.ok (ofPoint x y), fun e he ↦ ?_⟩
    rw [change, expandToInclude_of_isNull he]
  | coverPosition p =>
    refine Or.inr ⟨ofPosition p, fun e he ↦ ?_⟩
    simp only [change, expandToIncludePosition, ofPosition, expandToInclude_of_isNull he]
  | coverBox b =>
    cases hb : b.isNull with
    | true =>
      refine Or.inl fun e _ ↦ ?_
      rw [change, expandToIncludeBounds_of_isNull hb]
    | false =>
      refine Or.inr ⟨.ok ⟨b.minX, b.maxX, b.minY, b.maxY⟩, fun e he ↦ ?_⟩
      rw [change, expandToIncludeBounds_of_null hb he]
  | coverPoints points =>
    cases points with
    | nil => exact Or.inl fun _ _ ↦ rfl
    | cons p points =>
      refine Or.inr ⟨.ok ((ofPoint p.1 p.2).expandToIncludeAll points), fun e he ↦ ?_⟩
      rw [change, expandToIncludeAll_cons, expandToInclude_of_isNull he]
  | expand dx dy =>
    refine Or.inl fun e he ↦ ?_
    rw [change, expandBy_of_isNull he]
  | expandByDistance d =>
    refine Or.inl fun e he ↦ ?_
    rw [change, expandByDistance, expandBy_of_isNull he]
  | translate dx dy =>
    refine Or.inl fun e he ↦ ?_
    rw [change, translate_of_isNull he]
  | span x1 x2 y1 y2 => exact Or.inr ⟨_, fun _ _ ↦ rfl⟩
  | spanPositions p q => exact Or.inr ⟨_, fun _ _ ↦ rfl⟩
  | become other => exact Or.inr ⟨_, fun _ _ ↦ rfl⟩
  | clear => exact Or.inr ⟨_, fun _ _ ↦ rfl⟩

end Envelope

/-- The same change, but for the bounds of a null box that it takes. -/
inductive EnvelopeChange.Alike {α : Type} [Ordinate α] :
    EnvelopeChange α → EnvelopeChange α → Prop
  | same (c : EnvelopeChange α) : Alike c c
  | coverNull {a b : Bounds α} (ha : a.isNull = true) (hb : b.isNull = true) :
      Alike (.coverBox a) (.coverBox b)
  | becomeNull {o o' : Envelope α} (ho : o.isNull = true) (ho' : o'.isNull = true) :
      Alike (.become o) (.become o')

/-! ### Two runs -/

namespace Envelope

section

variable {α : Type} [Ordinate α] {e e' : Envelope α} {c c' : EnvelopeChange α}

/-- One change keeps envelopes indistinct, or is the same violation for both. -/
theorem change_indistinct (he : e.Indistinct e') (hc : c.Alike c') :
    SameOutcome Indistinct (e.change c) (e'.change c') := by
  cases hc with
  | same c =>
    rcases he with rfl | ⟨hnull, hnull'⟩
    · exact SameOutcome.refl Indistinct.refl _
    -- two null envelopes keep their own bounds, or lose them in the same way
    · rcases change_of_isNull c with hkeeps | ⟨r, hanswer⟩
      · rw [hkeeps e hnull, hkeeps e' hnull']
        exact .ok (Or.inr ⟨hnull, hnull'⟩)
      · rw [hanswer e hnull, hanswer e' hnull']
        exact SameOutcome.refl Indistinct.refl r
  | coverNull ha hb =>
    rw [change, change, expandToIncludeBounds_of_isNull ha, expandToIncludeBounds_of_isNull hb]
    exact .ok he
  | becomeNull ho ho' => exact .ok (Or.inr ⟨ho, ho'⟩)

/-- **Two runs never come apart,** by induction on the changes. -/
theorem changes_indistinct {cs cs' : List (EnvelopeChange α)}
    (hcs : List.Forall₂ EnvelopeChange.Alike cs cs') (he : e.Indistinct e') :
    SameOutcome (List.Forall₂ Indistinct) (e.changes cs) (e'.changes cs') := by
  induction hcs generalizing e e' with
  | nil => exact .ok .nil
  | cons hc _ ih =>
    refine (change_indistinct he hc).bind fun r r' hr ↦ ?_
    exact (ih hr).bind fun rs rs' hrs ↦ .ok (.cons hr hrs)

end

variable {e e' : Envelope Float}

/-- Whatever is asked of indistinct envelopes has one answer. -/
theorem Indistinct.interchangeable (h : e.Indistinct e') : e.bounds.Interchangeable e'.bounds := by
  rcases h with rfl | ⟨hnull, hnull'⟩
  · exact Bounds.Interchangeable.refl _
  · exact Bounds.interchangeable_of_isNull hnull hnull'

/-- Envelopes that are indistinct have the same rectangle, or both have none. -/
theorem Indistinct.toRect? (h : e.Indistinct e') : e.toRect? = e'.toRect? := by
  rcases h with rfl | ⟨hnull, hnull'⟩
  · rfl
  · rw [Envelope.toRect?, Envelope.toRect?, hnull, hnull']
    rfl

end Envelope

/-! ### Null boxes of either kind -/

/-- The box over a sequence without coordinates is null, and all its bounds read as undefined. -/
theorem IndexedBox.exists_bounds_of_size_eq_zero {s : Sequence Float} (hs : s.size = 0) :
    ∃ b, ofSequence s = .ok b ∧
      b.bounds = .ok ⟨true, Ordinate.undefined, Ordinate.undefined, Ordinate.undefined,
        Ordinate.undefined⟩ := by
  have hl : s.points = .ok [] := Sequence.points_eq_ok_iff.mpr ⟨hs.symm, nofun⟩
  exact ⟨_, ofSequence_of_points hl, rfl⟩

/-- The readings of a null box: of an envelope whose upper bound on x lies below its lower one, with
any bounds on y, and of a box over a sequence without coordinates. -/
inductive Bounds.ReadsNull : Bounds Float → Prop
  | envelope {e : Envelope Float} (h : e.maxX < e.minX) : ReadsNull e.bounds
  | scanned {s : Sequence Float} {b : IndexedBox Float} {a : Bounds Float} (hs : s.size = 0)
      (hb : IndexedBox.ofSequence s = .ok b) (ha : b.bounds = .ok a) : ReadsNull a

theorem Bounds.ReadsNull.isNull {a : Bounds Float} (h : a.ReadsNull) : a.isNull = true := by
  cases h with
  | envelope h => exact decide_eq_true h
  | scanned hs hb ha =>
    obtain ⟨b', hb', ha'⟩ := IndexedBox.exists_bounds_of_size_eq_zero hs
    obtain rfl := Except.ok.inj (hb.symm.trans hb')
    obtain rfl := Except.ok.inj (ha.symm.trans ha')
    rfl

namespace Envelope

/-- **The bounds of a null box are never seen,** by no question and after no changes. -/
theorem null_bounds_unobserved :
    (∀ a a' : Bounds Float, a.ReadsNull → a'.ReadsNull → a.Interchangeable a') ∧
      (∀ s : Sequence Float, s.size = 0 →
        ∃ b, IndexedBox.ofSequence s = .ok b ∧
          b.bounds = .ok ⟨true, Ordinate.undefined, Ordinate.undefined, Ordinate.undefined,
            Ordinate.undefined⟩) ∧
      ∀ e e' : Envelope Float, e = e' ∨ e.maxX < e.minX ∧ e'.maxX < e'.minX →
        e.toRect? = e'.toRect? ∧
          ∀ cs cs' : List (EnvelopeChange Float), List.Forall₂ EnvelopeChange.Alike cs cs' →
            SameOutcome
              (List.Forall₂ fun r r' ↦
                (r = r' ∨ r.isNull = true ∧ r'.isNull = true) ∧
                  r.bounds.Interchangeable r'.bounds ∧ r.toRect? = r'.toRect?)
              (e.changes cs) (e'.changes cs') := by
  refine ⟨fun a a' ha ha' ↦ Bounds.interchangeable_of_isNull ha.isNull ha'.isNull,
    fun s ↦ IndexedBox.exists_bounds_of_size_eq_zero, fun e e' hstart ↦ ?_⟩
  have he : e.Indistinct e' :=
    hstart.imp id (And.imp decide_eq_true decide_eq_true)
  refine ⟨he.toRect?, fun cs cs' hcs ↦ (changes_indistinct hcs he).imp fun rs rs' hrs ↦ ?_⟩
  exact hrs.imp fun r r' hr ↦ ⟨hr, hr.interchangeable, hr.toRect?⟩

/-- The null envelope proper, and one inverted on x with an undefined value and infinity for bounds
on y: moved, grown by null boxes that differ and then by a point, they are the same. -/
theorem null_bounds_unobserved_moved :
    ∃ e : Envelope Float, e = ⟨7.0, 3.0, Ordinate.undefined, Ordinate.infinity⟩ ∧
      null.changes [.translate 1.0 2.0, .coverBox e.bounds, .coverPoint 1.0 2.0] =
        .ok [null, null, ofPoint 1.0 2.0] ∧
      e.changes [.translate 1.0 2.0, .coverBox (null : Envelope Float).bounds,
        .coverPoint 1.0 2.0] = .ok [e, e, ofPoint 1.0 2.0] ∧
      List.Forall₂ (fun r r' ↦ r.bounds.Interchangeable r'.bounds)
        [null, null, ofPoint 1.0 2.0] [e, e, ofPoint 1.0 2.0] ∧
      ∃ b a, IndexedBox.ofSequence (.ofCoordinates .xy []) = .ok b ∧ b.bounds = .ok a ∧
        a.Interchangeable e.bounds := by
  have hnull : (null : Envelope Float).maxX < (null : Envelope Float).minX := by decide
  have he : (⟨7.0, 3.0, Ordinate.undefined, Ordinate.infinity⟩ : Envelope Float).maxX <
      (⟨7.0, 3.0, Ordinate.undefined, Ordinate.infinity⟩ : Envelope Float).minX := by
    decide
  obtain ⟨hinterchangeable, hempty, hruns⟩ := null_bounds_unobserved
  obtain ⟨b, hb, ha⟩ := hempty (.ofCoordinates .xy []) rfl
  have halike : EnvelopeChange.Alike
      (.coverBox (⟨7.0, 3.0, Ordinate.undefined, Ordinate.infinity⟩ : Envelope Float).bounds)
      (.coverBox (null : Envelope Float).bounds) :=
    .coverNull (decide_eq_true he) isNull_null
  have hsame := (hruns null _ (Or.inr ⟨hnull, he⟩)).2 _ _
    (.cons (.same (.translate 1.0 2.0)) (.cons halike (.cons (.same (.coverPoint 1.0 2.0)) .nil)))
  refine ⟨_, rfl, rfl, rfl, ?_, b, _, hb, ha, hinterchangeable _ _ (.scanned rfl hb ha)
    (.envelope he)⟩
  cases hsame with
  | ok hsame => exact hsame.imp fun _ _ h ↦ h.2.1

end Envelope

end Geospatial
