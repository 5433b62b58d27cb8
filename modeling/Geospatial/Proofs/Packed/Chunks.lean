import Geospatial.Proofs.Extrema.Refinement

/-!
# Growing over a run

A packed sequence grows an envelope by going over its run, one whole coordinate after the other. Any
other sequence does so by asking for the ordinates at one index after the other, and growing the
envelope before it asks for the next. `expandEnvelope_index_by_index` says that the envelope is the
same in the end, whichever it was at the start: null, inverted on one axis only, or without numbers
in its bounds.

**A run can be cut between two coordinates.** The leading pairs of two pieces are those of the whole
(`leadingPairs_append`), as long as the first piece holds whole coordinates; what stands behind the
last whole coordinate of a piece is passed over without a word, so a cut elsewhere would lose one.
-/

namespace Geospatial

/-! ### Index by index -/

namespace Sequence

section

variable {ε α β γ : Type}

/-- Working at each answer as it comes is reading all answers and then working through them; the
first reading that fails is the same. -/
theorem foldlM_bind (f : α → Except ε β) (g : γ → β → γ) (xs : List α) (c : γ) :
    xs.foldlM (fun c x ↦ do return g c (← f x)) c = do return (← xs.mapM f).foldl g c := by
  induction xs generalizing c with
  | nil => rfl
  | cons x xs ih =>
    rw [List.foldlM_cons, List.mapM_cons]
    cases f x with
    | error e => rfl
    | ok y =>
      refine (ih (g c y)).trans ?_
      cases xs.mapM f with
      | error e => rfl
      | ok ys => rfl

end

variable {α : Type} [Ordinate α] (s : Sequence α)

/-- Grows an envelope to cover the coordinate at an index. -/
def expandAt (e : Envelope α) (i : Nat) : Except Violation (Envelope α) := do
  return e.expandToInclude (← s.x i) (← s.y i)

theorem expandAt_eq_point (e : Envelope α) (i : Nat) :
    s.expandAt e i = do
      let p ← s.point i
      return e.expandToInclude p.1 p.2 := by
  rw [expandAt, point]
  cases s.x i with
  | error v => rfl
  | ok x =>
    cases s.y i with
    | error v => rfl
    | ok y => rfl

/-- **Growing is a loop over the indices,** violations included. -/
theorem foldlM_expandAt (e : Envelope α) :
    (List.range s.size).foldlM s.expandAt e = s.expandEnvelope e := by
  rw [funext fun e ↦ funext (s.expandAt_eq_point e)]
  exact foldlM_bind s.point (fun e p ↦ e.expandToInclude p.1 p.2) _ e

end Sequence

namespace PackedSequence

/-! ### Cutting a run -/

section Run

variable {σ : Type}

/-- **The leading pairs of two pieces are those of the whole,** by induction on the number of
coordinates in the first. -/
theorem leadingPairs_append {d : Layout} {l : List σ} (h : l.length % d.stride = 0)
    (l' : List σ) : leadingPairs d (l ++ l') = leadingPairs d l ++ leadingPairs d l' := by
  obtain ⟨n, hn⟩ := Nat.dvd_of_mod_eq_zero h
  clear h
  -- the induction is on the number of whole coordinates in the first part, not on its ordinates
  induction n generalizing l with
  | zero =>
    obtain rfl := List.length_eq_zero_iff.mp hn
    have hnil : leadingPairs d ([] : List σ) = [] := leadingPairs_of_lt d.stride_pos
    rw [hnil]
    rfl
  | succ n ih =>
    have htwo := d.two_le_stride
    rw [Nat.mul_succ] at hn
    have hle : d.stride ≤ l.length := by omega
    have hle' : d.stride ≤ (l ++ l').length := by
      rw [List.length_append]
      omega
    rw [leadingPairs_of_le hle (by omega) (by omega),
      leadingPairs_of_le hle' (by omega) (by omega), List.drop_append_of_le_length hle,
      ih (by rw [List.length_drop]; omega), List.getElem_append_left, List.getElem_append_left,
      List.cons_append]

/-- The second sequence goes on where the first one ends, and together they are the whole. -/
structure IsSplit (b first second : PackedSequence σ) : Prop where
  layout_first : first.layout = b.layout
  layout_second : second.layout = b.layout
  ordinates : first.ordinates ++ second.ordinates = b.ordinates

/-- Between any two coordinates a run can be cut into two. -/
theorem exists_isSplit (b : PackedSequence σ) {k : Nat} (hk : k ≤ b.length)
    (policy policy' : CachePolicy) :
    ∃ first second,
      ofStored (b.ordinates.extract 0 (k * b.layout.stride)) ⟨b.layout, policy⟩ = .ok first ∧
        ofStored (b.ordinates.extract (k * b.layout.stride)) ⟨b.layout, policy'⟩ = .ok second ∧
        first.length = k ∧ second.length = b.length - k ∧ IsSplit b first second := by
  have hle : k * b.layout.stride ≤ b.ordinates.size :=
    b.length_mul_stride ▸ Nat.mul_le_mul_right b.layout.stride hk
  have hsize : (b.ordinates.extract 0 (k * b.layout.stride)).size = k * b.layout.stride := by
    rw [Array.size_extract]
    omega
  have hsize' : (b.ordinates.extract (k * b.layout.stride)).size =
      (b.length - k) * b.layout.stride := by
    rw [Array.size_extract, Nat.sub_mul, b.length_mul_stride, Nat.min_self]
  -- both halves hold whole coordinates, since the cut is at a multiple of the stride
  have hwhole : (b.ordinates.extract 0 (k * b.layout.stride)).size %
      (⟨b.layout, policy⟩ : SequenceOptions).layout.stride = 0 := by
    rw [hsize]
    exact Nat.mul_mod_left ..
  have hwhole' : (b.ordinates.extract (k * b.layout.stride)).size %
      (⟨b.layout, policy'⟩ : SequenceOptions).layout.stride = 0 := by
    rw [hsize']
    exact Nat.mul_mod_left ..
  obtain ⟨first, hfirst, hoptions, hrun⟩ := exists_ofStored hwhole
  obtain ⟨second, hsecond, hoptions', hrun'⟩ := exists_ofStored hwhole'
  have hlayout : first.layout = b.layout := congrArg SequenceOptions.layout hoptions
  have hlayout' : second.layout = b.layout := congrArg SequenceOptions.layout hoptions'
  refine ⟨first, second, hfirst, hsecond, ?_, ?_, hlayout, hlayout', ?_⟩
  · rw [length, hrun, hlayout, hsize, Nat.mul_div_cancel _ b.layout.stride_pos]
  · rw [length, hrun', hlayout', hsize', Nat.mul_div_cancel _ b.layout.stride_pos]
  · rw [hrun, hrun', Array.extract_append_extract, Nat.min_eq_left (Nat.zero_le _),
      Nat.max_eq_right hle, Array.extract_size]

end Run

variable {σ : Type} [Storage σ] {b first second : PackedSequence σ}

/-- Cut between two coordinates, a sequence has the points of the first part and then those of the
second. -/
theorem IsSplit.points (h : IsSplit b first second) : b.points = first.points ++ second.points := by
  have hwhole : first.ordinates.toList.length % b.layout.stride = 0 := by
    rw [Array.length_toList, ← h.layout_first]
    exact first.whole
  rw [PackedSequence.points, PackedSequence.points, PackedSequence.points, h.layout_first,
    h.layout_second, ← h.ordinates, Array.toList_append, leadingPairs_append hwhole,
    List.map_append]

/-- An envelope that is grown over both pieces has been grown over the whole. -/
theorem IsSplit.expandEnvelope (h : IsSplit b first second) (e : Envelope Float) :
    second.expandEnvelope (first.expandEnvelope e) = b.expandEnvelope e := by
  rw [PackedSequence.expandEnvelope, PackedSequence.expandEnvelope, PackedSequence.expandEnvelope,
    h.points, Envelope.expandToIncludeAll_append]

/-- **Growing over the run is growing index by index,** from whichever envelope, and the run may be
cut between any two coordinates. -/
theorem expandEnvelope_index_by_index (b : PackedSequence σ) (e : Envelope Float) :
    (List.range b.length).foldlM b.toSequence.expandAt e = .ok (b.expandEnvelope e) ∧
      ∀ k ≤ b.length, ∀ policy policy' : CachePolicy, ∃ first second,
        ofStored (b.ordinates.extract 0 (k * b.layout.stride)) ⟨b.layout, policy⟩ = .ok first ∧
          ofStored (b.ordinates.extract (k * b.layout.stride)) ⟨b.layout, policy'⟩ = .ok second ∧
          first.length = k ∧ second.length = b.length - k ∧
          second.expandEnvelope (first.expandEnvelope e) = b.expandEnvelope e := by
  constructor
  · exact (b.toSequence.foldlM_expandAt e).trans (b.expandEnvelope_toSequence e)
  · intro k hk policy policy'
    obtain ⟨first, second, hfirst, hsecond, hlength, hlength', hsplit⟩ :=
      b.exists_isSplit hk policy policy'
    exact ⟨first, second, hfirst, hsecond, hlength, hlength', hsplit.expandEnvelope e⟩

/-- An envelope that is inverted along y and so passes for a box, grown over a coordinate without a
y and then over another one. -/
theorem expandEnvelope_index_by_index_inverted :
    ∃ (b first second : PackedSequence Float) (e : Envelope Float),
      ofStored #[1.0, Ordinate.undefined, 9.0, -3.0, 2.0, 9.0] ⟨.xym, .retained⟩ = .ok b ∧
        ofStored #[1.0, Ordinate.undefined, 9.0] ⟨.xym, .disabled⟩ = .ok first ∧
        ofStored #[-3.0, 2.0, 9.0] ⟨.xym, .retained⟩ = .ok second ∧
        e = ⟨0.0, 1.0, 5.0, -5.0⟩ ∧ first.length = 1 ∧
        (List.range b.length).foldlM b.toSequence.expandAt e = .ok ⟨-3.0, 1.0, 2.0, 2.0⟩ ∧
        second.expandEnvelope (first.expandEnvelope e) = ⟨-3.0, 1.0, 2.0, 2.0⟩ := by
  obtain ⟨b, hb⟩ : ∃ b : PackedSequence Float,
      ofStored #[1.0, Ordinate.undefined, 9.0, -3.0, 2.0, 9.0] ⟨.xym, .retained⟩ = .ok b :=
    ⟨_, rfl⟩
  have hvalue : b.expandEnvelope ⟨0.0, 1.0, 5.0, -5.0⟩ = ⟨-3.0, 1.0, 2.0, 2.0⟩ := by
    cases hb
    rfl
  obtain ⟨hloop, hsplit⟩ := b.expandEnvelope_index_by_index ⟨0.0, 1.0, 5.0, -5.0⟩
  obtain ⟨first, second, hfirst, hsecond, hlength, -, hpieces⟩ :=
    hsplit 1 (by cases hb; decide) .disabled .retained
  refine ⟨b, first, second, _, hb, ?_, ?_, rfl, hlength, hloop.trans (congrArg _ hvalue),
    hpieces.trans hvalue⟩
  · cases hb
    exact hfirst
  · cases hb
    exact hsecond

end PackedSequence

end Geospatial
