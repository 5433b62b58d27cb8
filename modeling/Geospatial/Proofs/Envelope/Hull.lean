import Geospatial.Proofs.Envelope.Canonical

/-!
# Growth computes the least enclosing box

An envelope can be grown by points, by boxes of any kind and by whole sequences, in any mix. Each
step adds boxes, a point being the box of itself (`Growth.Adds`), so a run of steps is one run of
boxes and `Envelope.encloses_foldl` says of that run which boxes enclose its result. The rest
follows from it: two results with the same enclosing boxes cover each other and are equal, so
neither the order of the steps nor their repetition matters.

**A null box is no point.** It adds nothing, whatever its bounds are, and a result is null only if
nothing but null boxes was ever added.
-/

namespace Geospatial

/-! ### Runs of boxes -/

namespace Envelope

variable {α : Type} [Ordinate α] [LawfulOrdinate α] {e : Envelope α} {boxes : List (Bounds α)}

theorem wellFormed_foldl (he : e.bounds.WellFormed) (hboxes : ∀ o ∈ boxes, o.WellFormed) :
    (boxes.foldl expandToIncludeBounds e).bounds.WellFormed := by
  induction boxes generalizing e with
  | nil => exact he
  | cons o boxes ih =>
    obtain ⟨ho, hrest⟩ := List.forall_mem_cons.mp hboxes
    exact ih (wellFormed_expandToIncludeBounds he ho) hrest

/-- What has grown is null only if it began so and grew by null boxes alone. -/
theorem isNull_foldl_iff (he : e.bounds.WellFormed) (hboxes : ∀ o ∈ boxes, o.WellFormed) :
    (boxes.foldl expandToIncludeBounds e).isNull = true ↔
      e.isNull = true ∧ ∀ o ∈ boxes, o.isNull = true := by
  induction boxes generalizing e with
  | nil => simp
  | cons o boxes ih =>
    obtain ⟨ho, hrest⟩ := List.forall_mem_cons.mp hboxes
    rw [List.foldl_cons, ih (wellFormed_expandToIncludeBounds he ho) hrest,
      isNull_expandToIncludeBounds_iff he ho, List.forall_mem_cons, and_assoc]

/-- **What encloses the result is what encloses the start and every box of the run.** -/
theorem encloses_foldl (he : e.bounds.WellFormed) (hboxes : ∀ o ∈ boxes, o.WellFormed)
    (c : Bounds α) :
    c.Encloses (boxes.foldl expandToIncludeBounds e).bounds ↔
      c.Encloses e.bounds ∧ ∀ o ∈ boxes, c.Encloses o := by
  induction boxes generalizing e with
  | nil => simp
  | cons o boxes ih =>
    obtain ⟨ho, hrest⟩ := List.forall_mem_cons.mp hboxes
    rw [List.foldl_cons, ih (wellFormed_expandToIncludeBounds he ho) hrest,
      encloses_expandToIncludeBounds he ho, List.forall_mem_cons, and_assoc]

/-- **What is covered already adds nothing**, however much of it there is. -/
theorem foldl_of_encloses (h : ∀ o ∈ boxes, e.bounds.Encloses o) :
    boxes.foldl expandToIncludeBounds e = e := by
  induction boxes with
  | nil => rfl
  | cons o boxes ih =>
    obtain ⟨ho, hrest⟩ := List.forall_mem_cons.mp h
    rw [List.foldl_cons, expandToIncludeBounds_of_encloses ho]
    exact ih hrest

end Envelope

/-- Well-formed boxes that enclose the same boxes, and are null together, are equal. -/
theorem Bounds.equals_of_encloses {α : Type} [Ordinate α] [LawfulOrdinate α] {a b : Bounds α}
    (ha : a.WellFormed) (hb : b.WellFormed) (hnull : a.isNull = true ↔ b.isNull = true)
    (h : ∀ c : Bounds α, c.Encloses a ↔ c.Encloses b) : a.equals b = true := by
  cases han : a.isNull with
  | true =>
    rw [equals, han]
    exact hnull.mp han
  | false =>
    have hbn : b.isNull = false := by
      rw [← Bool.not_eq_true, ← hnull, han]
      exact Bool.false_ne_true
    -- each of the two encloses itself, and so the other one
    have hab : a.covers b = true :=
      (encloses_iff_covers hbn).mp ((h a).mp (Or.inr (covers_self han (ha.inOrder han))))
    have hba : b.covers a = true :=
      (encloses_iff_covers han).mp ((h b).mpr (Or.inr (covers_self hbn (hb.inOrder hbn))))
    exact equals_of_covers hab hba

/-! ### Steps -/

/-- One way to grow an envelope. -/
inductive Growth : Type 1 where
  | point (x y : Float)
  /-- Any kind of box, as it is read. -/
  | box (o : Bounds Float)
  | sequence (s : Sequence Float)
  /-- A packed sequence, which goes through its coordinates in a way of its own. -/
  | packed {σ : Type} [Storage σ] (b : PackedSequence σ)

/-- Every coordinate of the sequence can be read and lies in the box. -/
def Sequence.CoveredBy (s : Sequence Float) (c : Bounds Float) : Prop :=
  ∀ i < s.size, ∃ x y, (s.x i = .ok x ∧ s.y i = .ok y) ∧ c.coversPoint x y = true

namespace Growth

/-- Grows an envelope by one step. -/
def apply (e : Envelope Float) : Growth → Except Violation (Envelope Float)
  | point x y => .ok (e.expandToInclude x y)
  | box o => .ok (e.expandToIncludeBounds o)
  | sequence s => s.expandEnvelope e
  | @packed _ _ b => .ok (b.expandEnvelope e)

/-- The step is made of numbers or is a well-formed box. -/
def Sound : Growth → Prop
  | point x y => Ordinate.IsNumber x ∧ Ordinate.IsNumber y
  | box o => o.WellFormed
  | sequence s => s.OfNumbers
  | @packed _ _ b => b.toSequence.OfNumbers

/-- The step holds no point. -/
def IsVoid : Growth → Prop
  | point .. => False
  | box o => o.isNull = true
  | sequence s => s.size = 0
  | @packed _ _ b => b.length = 0

/-- Everything that the step holds lies in the box. -/
def CoveredBy (c : Bounds Float) : Growth → Prop
  | point x y => c.coversPoint x y = true
  | box o => o.isNull = false → c.covers o = true
  | sequence s => s.CoveredBy c
  | @packed _ _ b => b.toSequence.CoveredBy c

end Growth

/-- Grows an envelope by one step after the other. -/
def Envelope.grow (e : Envelope Float) (steps : List Growth) :
    Except Violation (Envelope Float) :=
  steps.foldlM Growth.apply e

/-! ### Steps as boxes -/

/-- The boxes that a run of steps comes down to. -/
structure Growth.Adds (steps : List Growth) (boxes : List (Bounds Float)) : Prop where
  grow (e : Envelope Float) : e.grow steps = .ok (boxes.foldl Envelope.expandToIncludeBounds e)
  wellFormed : ∀ o ∈ boxes, o.WellFormed
  isVoid : (∀ g ∈ steps, g.IsVoid) ↔ ∀ o ∈ boxes, o.isNull = true
  coveredBy (c : Bounds Float) : (∀ g ∈ steps, g.CoveredBy c) ↔ ∀ o ∈ boxes, c.Encloses o

namespace Growth

theorem adds_nil : Adds [] [] where
  grow _ := rfl
  wellFormed := by simp
  isVoid := by simp
  coveredBy := by simp

theorem Adds.append {steps steps' : List Growth} {boxes boxes' : List (Bounds Float)}
    (h : Adds steps boxes) (h' : Adds steps' boxes') :
    Adds (steps ++ steps') (boxes ++ boxes') where
  grow e := by
    have hfirst : steps.foldlM apply e = .ok _ := h.grow e
    rw [Envelope.grow, List.foldlM_append, hfirst, List.foldl_append]
    exact h'.grow _
  wellFormed := List.forall_mem_append.mpr ⟨h.wellFormed, h'.wellFormed⟩
  isVoid := by rw [List.forall_mem_append, List.forall_mem_append, h.isVoid, h'.isVoid]
  coveredBy c := by
    rw [List.forall_mem_append, List.forall_mem_append, h.coveredBy, h'.coveredBy]

/-- A step that grows as boxes do adds them. -/
theorem adds_singleton {g : Growth} {boxes : List (Bounds Float)}
    (grow : ∀ e, apply e g = .ok (boxes.foldl Envelope.expandToIncludeBounds e))
    (wellFormed : ∀ o ∈ boxes, o.WellFormed)
    (isVoid : g.IsVoid ↔ ∀ o ∈ boxes, o.isNull = true)
    (coveredBy : ∀ c, g.CoveredBy c ↔ ∀ o ∈ boxes, c.Encloses o) : Adds [g] boxes where
  grow e := by
    rw [Envelope.grow, List.foldlM_cons, grow]
    rfl
  wellFormed := wellFormed
  isVoid := by rw [List.forall_mem_singleton, isVoid]
  coveredBy c := by rw [List.forall_mem_singleton, coveredBy]

theorem adds_point {x y : Float} (hx : Ordinate.IsNumber x) (hy : Ordinate.IsNumber y) :
    Adds [point x y] [(Envelope.ofPoint x y).bounds] := by
  refine adds_singleton (fun e ↦ ?_) ?_ ?_ (fun c ↦ ?_)
  · rw [apply, Envelope.expandToInclude_eq_expandToIncludeBounds]
    rfl
  · rw [List.forall_mem_singleton]
    exact Or.inr (Envelope.inOrder_ofPoint hx hy)
  · rw [List.forall_mem_singleton, Envelope.bounds_isNull, Envelope.isNull_ofPoint]
    exact iff_of_false id Bool.false_ne_true
  · rw [List.forall_mem_singleton, Envelope.encloses_ofPoint]
    rfl

theorem adds_box {o : Bounds Float} (ho : o.WellFormed) : Adds [box o] [o] := by
  refine adds_singleton (fun e ↦ rfl) ?_ ?_ (fun c ↦ ?_)
  · rwa [List.forall_mem_singleton]
  · rw [List.forall_mem_singleton]
    rfl
  · rw [List.forall_mem_singleton, CoveredBy, Bounds.Encloses]
    cases o.isNull <;> simp

/-- The boxes of the points of a sequence. -/
theorem adds_sequence {s : Sequence Float} (hs : s.OfNumbers) :
    ∃ boxes, Adds [sequence s] boxes := by
  obtain ⟨l, hl, hnumbers⟩ := hs.points
  refine ⟨l.map fun p ↦ (Envelope.ofPoint p.1 p.2).bounds,
    adds_singleton (fun e ↦ ?_) ?_ ?_ (fun c ↦ ?_)⟩
  · rw [apply, Sequence.expandEnvelope_of_points hl, Envelope.expandToIncludeAll_eq_foldl]
  · rw [List.forall_mem_map]
    exact fun p hp ↦ Or.inr (Envelope.inOrder_ofPoint (hnumbers p hp).1 (hnumbers p hp).2)
  · -- no box of a point is null, so all of them are only if there is none
    have hlen : l.length = s.size := (Sequence.points_eq_ok_iff.mp hl).1
    rw [List.forall_mem_map, IsVoid, ← hlen, List.length_eq_zero_iff,
      List.eq_nil_iff_forall_not_mem]
    refine forall₂_congr fun p _ ↦ ?_
    rw [Envelope.bounds_isNull, Envelope.isNull_ofPoint]
    exact iff_of_false id Bool.false_ne_true
  · rw [List.forall_mem_map]
    simp only [Envelope.encloses_ofPoint]
    exact Sequence.forall_read_iff hl fun x y ↦ c.coversPoint x y = true

/-- Both ways of going through a packed sequence are one. -/
theorem adds_packed {σ : Type} [Storage σ] {b : PackedSequence σ}
    (hb : b.toSequence.OfNumbers) : ∃ boxes, Adds [packed b] boxes := by
  obtain ⟨boxes, hboxes⟩ := adds_sequence hb
  have hvoid := hboxes.isVoid
  have hcovered := hboxes.coveredBy
  simp only [List.forall_mem_singleton] at hvoid hcovered
  refine ⟨boxes, adds_singleton (fun e ↦ ?_) hboxes.wellFormed hvoid hcovered⟩
  rw [← hboxes.grow e, Envelope.grow, List.foldlM_cons, apply, apply,
    b.expandEnvelope_toSequence]
  rfl

/-- Every growth that is sound adds some list of boxes. -/
theorem exists_adds_singleton {g : Growth} (hg : g.Sound) : ∃ boxes, Adds [g] boxes := by
  cases g with
  | point x y => exact ⟨_, adds_point hg.1 hg.2⟩
  | box o => exact ⟨_, adds_box hg⟩
  | sequence s => exact adds_sequence hg
  | packed b => exact adds_packed hg

/-- **Every run of steps is a run of boxes.** -/
theorem exists_adds {steps : List Growth} (h : ∀ g ∈ steps, g.Sound) :
    ∃ boxes, Adds steps boxes := by
  induction steps with
  | nil => exact ⟨[], adds_nil⟩
  | cons g steps ih =>
    obtain ⟨hg, hrest⟩ := List.forall_mem_cons.mp h
    obtain ⟨first, hfirst⟩ := exists_adds_singleton hg
    obtain ⟨rest, hrest⟩ := ih hrest
    exact ⟨first ++ rest, hfirst.append hrest⟩

/-- A sequence that is covered already leaves the envelope as it is. -/
theorem expandEnvelope_of_coveredBy {e : Envelope Float} {s : Sequence Float}
    (h : s.CoveredBy e.bounds) : s.expandEnvelope e = .ok e := by
  obtain ⟨l, hl, hcovered⟩ := Sequence.exists_points_of_forall h
  rw [Sequence.expandEnvelope_of_points hl, Envelope.expandToIncludeAll_eq_foldl,
    Envelope.foldl_of_encloses]
  rw [List.forall_mem_map]
  exact fun p hp ↦ Envelope.encloses_ofPoint.mpr (hcovered p hp)

/-- A step that is covered already leaves the envelope as it is. -/
theorem apply_of_coveredBy {e : Envelope Float} {g : Growth} (h : g.CoveredBy e.bounds) :
    apply e g = .ok e := by
  cases g with
  | point x y =>
    rw [apply, Envelope.expandToInclude_eq_expandToIncludeBounds,
      Envelope.expandToIncludeBounds_of_encloses (Envelope.encloses_ofPoint.mpr h)]
  | box o =>
    rw [apply, Envelope.expandToIncludeBounds_of_encloses (Bounds.encloses_iff.mpr h)]
  | sequence s => exact expandEnvelope_of_coveredBy h
  | packed b =>
    rw [apply, ← b.expandEnvelope_toSequence]
    exact expandEnvelope_of_coveredBy h

end Growth

/-! ### The least enclosing box -/

namespace Envelope

/-- A run of sound steps goes through, and what encloses its result encloses the start and covers
every step. -/
theorem exists_grow {e : Envelope Float} (he : e.bounds.WellFormed) {steps : List Growth}
    (hsteps : ∀ g ∈ steps, g.Sound) :
    ∃ r, e.grow steps = .ok r ∧ r.bounds.WellFormed ∧
      (r.isNull = true ↔ e.isNull = true ∧ ∀ g ∈ steps, g.IsVoid) ∧
      ∀ c : Bounds Float,
        c.Encloses r.bounds ↔ c.Encloses e.bounds ∧ ∀ g ∈ steps, g.CoveredBy c := by
  obtain ⟨boxes, hadds⟩ := Growth.exists_adds hsteps
  refine ⟨_, hadds.grow e, wellFormed_foldl he hadds.wellFormed, ?_, fun c ↦ ?_⟩
  · rw [isNull_foldl_iff he hadds.wellFormed, hadds.isVoid]
  · rw [encloses_foldl he hadds.wellFormed, hadds.coveredBy]

/-- **Growth computes the least enclosing box, in any order.** -/
theorem grow_least {e : Envelope Float} (he : e.bounds.WellFormed) {steps : List Growth}
    (hsteps : ∀ g ∈ steps, g.Sound) :
    ∃ r, e.grow steps = .ok r ∧ r.bounds.WellFormed ∧
      (r.isNull = true ↔ e.isNull = true ∧ ∀ g ∈ steps, g.IsVoid) ∧
      (r.isNull = false → ∀ c : Bounds Float,
        c.covers r.bounds = true ↔
          (e.isNull = false → c.covers e.bounds = true) ∧ ∀ g ∈ steps, g.CoveredBy c) ∧
      (∀ steps' : List Growth, (∀ g, g ∈ steps' ↔ g ∈ steps) →
        ∃ r', e.grow steps' = .ok r' ∧ r'.bounds.equals r.bounds = true) ∧
      ∀ g : Growth, g.CoveredBy r.bounds → r.grow [g] = .ok r := by
  obtain ⟨r, hgrow, hwf, hnull, hencloses⟩ := exists_grow he hsteps
  refine ⟨r, hgrow, hwf, hnull, ?_, ?_, ?_⟩
  · intro hr c
    rw [← Bounds.encloses_iff_covers hr, hencloses, Bounds.encloses_iff]
    rfl
  · intro steps' hsame
    -- the same steps are sound and void together, and lie in the same boxes
    have hsteps' : ∀ g ∈ steps', g.Sound := fun g hg ↦ hsteps g ((hsame g).mp hg)
    obtain ⟨r', hgrow', hwf', hnull', hencloses'⟩ := exists_grow he hsteps'
    refine ⟨r', hgrow', Bounds.equals_of_encloses hwf' hwf ?_ fun c ↦ ?_⟩
    · rw [bounds_isNull, bounds_isNull, hnull, hnull']
      simp only [hsame]
    · rw [hencloses, hencloses']
      simp only [hsame]
  · intro g hg
    rw [grow, List.foldlM_cons, Growth.apply_of_coveredBy hg]
    rfl

/-- A null box with bounds to be ignored, two points in either order, one of them twice. -/
theorem grow_least_any_order :
    ∃ r r' : Envelope Float,
      null.grow [.point 1.0 2.0, .box ⟨true, 5.0, 6.0, 7.0, 8.0⟩,
        .point 0.0 Ordinate.infinity] = .ok r ∧
      null.grow [.point 0.0 Ordinate.infinity, .point 1.0 2.0, .point 1.0 2.0,
        .box ⟨true, 5.0, 6.0, 7.0, 8.0⟩] = .ok r' ∧
      r = ⟨0.0, 1.0, 2.0, Ordinate.infinity⟩ ∧ r'.bounds.equals r.bounds = true := by
  have hsteps : ∀ g ∈ [Growth.point 1.0 2.0, .box ⟨true, 5.0, 6.0, 7.0, 8.0⟩,
      .point 0.0 Ordinate.infinity], g.Sound := by
    simp only [List.forall_mem_cons]
    exact ⟨⟨by decide, by decide⟩, Or.inl rfl, ⟨by decide, by decide⟩, nofun⟩
  obtain ⟨r, hr, -, -, -, horder, -⟩ :=
    grow_least (e := null) (Or.inl isNull_null) hsteps
  obtain ⟨r', hr', hequals⟩ := horder [.point 0.0 Ordinate.infinity, .point 1.0 2.0,
    .point 1.0 2.0, .box ⟨true, 5.0, 6.0, 7.0, 8.0⟩] fun g ↦ by
      simp only [List.mem_cons, List.not_mem_nil, or_false]
      constructor
      · rintro (h | h | h | h) <;> simp [h]
      · rintro (h | h | h) <;> simp [h]
  refine ⟨r, r', hr, hr', ?_, hequals⟩
  have hvalue : null.grow [.point 1.0 2.0, .box ⟨true, 5.0, 6.0, 7.0, 8.0⟩,
      .point 0.0 Ordinate.infinity] = .ok ⟨0.0, 1.0, 2.0, Ordinate.infinity⟩ := by
    rfl
  exact Except.ok.inj (hr.symm.trans hvalue)

end Envelope

end Geospatial
