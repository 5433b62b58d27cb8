import Geospatial.Proofs.Extrema.Coverage
import Geospatial.Proofs.Storage.Monotone

/-!
# The envelope of narrowed ordinates

Ordinates may be kept in fewer bits than they come in. Rounding merges values that differ, so the
coordinate that realizes a bound can be another one afterwards; what holds is that rounding commutes
with taking the envelope, as long as it keeps the order of numbers:

* `Side.IsExtreme.map` — what is extreme among values is extreme among their images;
* `Side.FirstAt.le_of_map` — and is found no later among them, for the place where it stood before
  still attains the extreme value, and only an earlier one can have joined it.

**Bounds agree as numbers,** not bit for bit. A negative zero that is the least of all values may be
preceded by a small positive one that is rounded to zero, and the first of two equal values stays.
-/

namespace Geospatial

open Ordinate (IsNumber)

/-! ### One side -/

namespace Side

variable {α : Type} [Ordinate α] {side : Side} {n : α → α} {values : List α}

variable (hn : ∀ ⦃v w⦄, v ≤ w → n v ≤ n w) (hnumbers : ∀ v ∈ values, IsNumber v)

include hn in
/-- A monotone map keeps what reaches what. -/
theorem Reaches.map {v w : α} (h : side.Reaches v w) : side.Reaches (n v) (n w) := by
  cases side <;> exact hn h

include hn hnumbers

/-- The image of a value that is attained is attained at the same place. -/
theorem Attains.map {v : Extreme α} (h : side.Attains values v) :
    side.Attains (values.map n) ⟨v.index, n v.value⟩ := by
  refine ⟨?_, hn h.isNumber, fun w hw _ ↦ ?_⟩
  · rw [List.getElem?_map, h.found, Option.map_some]
  · obtain ⟨u, hu, rfl⟩ := List.mem_map.mp hw
    exact (h.reaches u hu (hnumbers u hu)).map hn

theorem IsExtreme.map {bound : α} (h : side.IsExtreme values bound) :
    side.IsExtreme (values.map n) (n bound) := by
  obtain ⟨i, h⟩ := h
  exact ⟨i, h.map hn hnumbers⟩

/-- **The first extremum moves forward at most.** -/
theorem FirstAt.le_of_map {i i' : Nat} (h : side.FirstAt values i)
    (h' : side.FirstAt (values.map n) i') : i' ≤ i := by
  obtain ⟨u, hu⟩ : ∃ u, values[0]? = some u :=
    ⟨_, List.getElem?_eq_getElem (Nat.zero_lt_of_lt h.lt)⟩
  have hnumber := hnumbers u (List.mem_of_getElem? hu)
  have hu' : (values.map n)[0]? = some (n u) := by rw [List.getElem?_map, hu, Option.map_some]
  obtain ⟨v, hv, -⟩ := h.of_isNumber u hu hnumber
  obtain ⟨v', -, -, hbefore⟩ := h'.of_isNumber (n u) hu' (hn hnumber)
  -- the old place attains the new extreme value, which the new place is the first to do
  have hattains := hv.map hn hnumbers
  by_contra hlt
  exact (hbefore i (Nat.lt_of_not_ge hlt) _ hattains.found).1 hattains

end Side

/-! ### All sides -/

/-- No index stands behind the one for the same bound. -/
structure Extrema.NoLater (ix ix' : Extrema) : Prop where
  minX : ix.minX ≤ ix'.minX
  minY : ix.minY ≤ ix'.minY
  maxX : ix.maxX ≤ ix'.maxX
  maxY : ix.maxY ≤ ix'.maxY

/-- The bounds after a change of numbers. -/
def Bounds.map {α : Type} (n : α → α) (a : Bounds α) : Bounds α :=
  ⟨a.isNull, n a.minX, n a.maxX, n a.minY, n a.maxY⟩

theorem map_fst_map_prodMap {α : Type} (n : α → α) (points : List (α × α)) :
    (points.map (Prod.map n n)).map Prod.fst = (points.map Prod.fst).map n := by
  rw [List.map_map, List.map_map]
  rfl

theorem map_snd_map_prodMap {α : Type} (n : α → α) (points : List (α × α)) :
    (points.map (Prod.map n n)).map Prod.snd = (points.map Prod.snd).map n := by
  rw [List.map_map, List.map_map]
  rfl

section Points

variable {α : Type} [Ordinate α] {n : α → α} {points : List (α × α)}
  (hn : ∀ ⦃v w⦄, v ≤ w → n v ≤ n w) (hnumbers : ∀ p ∈ points, IsNumber p.1 ∧ IsNumber p.2)

include hnumbers hn

/-- Values that become equal can only bring a first extreme one forward. -/
theorem Extrema.First.noLater {ix ix' : Extrema} (h : ix.First points)
    (h' : ix'.First (points.map (Prod.map n n))) : ix'.NoLater ix := by
  obtain ⟨hminX, hminY, hmaxX, hmaxY⟩ := h'
  rw [map_fst_map_prodMap] at hminX hmaxX
  rw [map_snd_map_prodMap] at hminY hmaxY
  have hxs := isNumber_fst hnumbers
  have hys := isNumber_snd hnumbers
  exact ⟨h.minX.le_of_map hn hxs hminX, h.minY.le_of_map hn hys hminY,
    h.maxX.le_of_map hn hxs hmaxX, h.maxY.le_of_map hn hys hmaxY⟩

variable [LawfulOrdinate α]

/-- Bounds that are attained before and after are those of before, mapped. -/
theorem Envelope.AttainedBy.equals_map {e e' : Envelope α} (h : e.AttainedBy points)
    (h' : e'.AttainedBy (points.map (Prod.map n n))) :
    e'.bounds.equals (e.bounds.map n) = true := by
  obtain ⟨hnull', hminX, hmaxX, hminY, hmaxY⟩ := h'
  rw [map_fst_map_prodMap] at hminX hmaxX
  rw [map_snd_map_prodMap] at hminY hmaxY
  have hxs := isNumber_fst hnumbers
  have hys := isNumber_snd hnumbers
  have hnull : (e.bounds.map n).isNull = false := h.notNull
  simp only [Bounds.equals, bounds_isNull, hnull', hnull, Bool.false_eq_true, if_false,
    Bool.not_false, Bool.true_and, Bool.and_eq_true]
  exact ⟨⟨⟨hmaxX.beq (h.maxX.map hn hxs), hmaxY.beq (h.maxY.map hn hys)⟩,
    hminX.beq (h.minX.map hn hxs)⟩, hminY.beq (h.minY.map hn hys)⟩

/-- **The scan of the images finds each bound no later.** -/
theorem Extrema.rel_noLater_scan :
    Option.Rel Extrema.NoLater (scan (points.map (Prod.map n n))) (scan points) := by
  rcases eq_or_ne points [] with rfl | hne
  · exact .none
  · obtain ⟨ix, hscan, hfirst, -⟩ := exists_scan_first hne
    obtain ⟨ix', hscan', hfirst', -⟩ :=
      exists_scan_first (mt (List.map_eq_nil_iff (f := Prod.map n n)).mp hne)
    rw [hscan, hscan']
    exact .some (hfirst.noLater hn hnumbers hfirst')

/-- **The envelope of the images has the images of the bounds,** and is null when the envelope
is. -/
theorem Envelope.equals_map_expandToIncludeAll {e : Envelope α} (he : e.isNull = true) :
    (e.expandToIncludeAll (points.map (Prod.map n n))).bounds.equals
      ((e.expandToIncludeAll points).bounds.map n) = true := by
  rcases eq_or_ne points [] with rfl | hne
  · rw [Bounds.equals_of_isNull_left he]
    exact he
  · have hled : LedByNumbers points := fun p hp ↦ hnumbers p (List.mem_of_mem_head? hp)
    have hled' : LedByNumbers (points.map (Prod.map n n)) := by
      intro p hp
      obtain ⟨q, hq, rfl⟩ := List.mem_map.mp (List.mem_of_mem_head? hp)
      exact ⟨hn (hnumbers q hq).1, hn (hnumbers q hq).2⟩
    have h := attainedBy_expandToIncludeAll he hne hled
    have h' := attainedBy_expandToIncludeAll he (mt List.map_eq_nil_iff.mp hne) hled'
    exact h.equals_map hn hnumbers h'

end Points

/-- Equal boxes are null together. -/
theorem Bounds.isNull_eq_of_equals {α : Type} [Ordinate α] {a b : Bounds α}
    (h : a.equals b = true) : a.isNull = b.isNull := by
  cases ha : a.isNull with
  | true => exact (h.symm.trans (equals_of_isNull_left ha))
  | false =>
    cases hb : b.isNull with
    | true => exact ha.symm.trans ((equals_of_isNull_right hb).symm.trans h)
    | false => rfl

/-! ### Packed sequences -/

namespace PackedSequence

section

variable {σ : Type} [Storage σ]

/-- Doubles that make up whole coordinates are stored, each rounded to the storage type. -/
theorem exists_ofDoubles {values : Array Float} {options : SequenceOptions}
    (h : values.size % options.layout.stride = 0) :
    ∃ s : PackedSequence σ, ofDoubles values options = .ok s ∧ s.options = options ∧
      s.ordinates = values.map Storage.narrow := by
  refine exists_ofStored ?_
  rw [Array.size_map]
  exact h

/-- A sequence that is built from doubles stores each one narrowed. -/
theorem ordinates_of_ofDoubles {values : Array Float} {options : SequenceOptions}
    {s : PackedSequence σ} (h : ofDoubles values options = .ok s) :
    s.layout = options.layout ∧ s.ordinates = values.map Storage.narrow := by
  rw [ofDoubles, ofStored] at h
  split at h
  · cases h
    exact ⟨rfl, rfl⟩
  · cases h

/-- Its points are the pairs of doubles, rounded. -/
theorem points_of_narrowed {s : PackedSequence σ} {values : Array Float}
    (h : s.ordinates = values.map Storage.narrow) :
    s.points = (leadingPairs s.layout values.toList).map
      (Prod.map (Storage.rounded σ) (Storage.rounded σ)) := by
  rw [points, h, Array.toList_map, leadingPairs_map, List.map_map]
  rfl

theorem values_of_narrowed {s : PackedSequence σ} {values : Array Float}
    (h : s.ordinates = values.map Storage.narrow) :
    s.values = values.toList.map (Storage.rounded σ) := by
  rw [PackedSequence.values, h, Array.toList_map, List.map_map]
  rfl

/-- Sequences of one layout that hold the same numbers are equal. -/
theorem beq_of_values_eq {s t : PackedSequence σ} (hlayout : s.layout = t.layout)
    (hvalues : s.values = t.values) (hnumbers : ∀ v ∈ t.values, IsNumber v) :
    (s == t) = true := by
  have hsize : s.ordinates.size = t.ordinates.size := by
    simpa [values] using congrArg List.length hvalues
  have hrun : s.ordinates.isEqv t.ordinates Storage.same = true := by
    refine Array.isEqv_iff_rel.mpr ⟨hsize, fun i hi ↦ ?_⟩
    have hi' : i < t.ordinates.size := hsize ▸ hi
    have hsame : Storage.widen s.ordinates[i] = Storage.widen t.ordinates[i] := by
      simpa [values, hi, hi'] using congrArg (·[i]?) hvalues
    have hnumber : IsNumber (Storage.widen t.ordinates[i]) :=
      hnumbers _ (List.mem_map_of_mem (Array.getElem_mem_toList _))
    -- equality is that of numbers, and an undefined value would not be equal to itself
    rw [Storage.same, hsame]
    exact LawfulOrdinate.beq_iff_le_ge.mpr ⟨hnumber, hnumber⟩
  have hlayouts : (s.layout == t.layout) = true := beq_iff_eq.mpr hlayout
  exact Bool.and_eq_true_iff.mpr ⟨hlayouts, hrun⟩

/-- Rounding twice is rounding once: what was read back is stored as it was. -/
theorem exists_repacked {s : PackedSequence σ} {values : Array Float}
    (hrun : s.ordinates = values.map Storage.narrow)
    (hnumbers : ∀ v ∈ values, IsNumber (Storage.rounded σ v))
    (hidem : ∀ v ∈ values, Storage.rounded σ (Storage.rounded σ v) = Storage.rounded σ v) :
    ∃ again : PackedSequence σ, ofDoubles s.values.toArray s.options = .ok again ∧
      again.values = s.values ∧ (again == s) = true := by
  have hvalues := values_of_narrowed hrun
  have hsize : s.values.toArray.size % s.options.layout.stride = 0 := by
    rw [List.size_toArray, PackedSequence.values, List.length_map, Array.length_toList]
    exact s.whole
  obtain ⟨again, hagain, hoptions', hrun'⟩ := exists_ofDoubles (σ := σ) hsize
  have hsame : again.values = s.values := by
    -- a value that was rounded once is not changed by rounding it again
    rw [values_of_narrowed hrun', hvalues, List.map_map]
    exact List.map_congr_left fun v hv ↦ hidem v (Array.mem_toList_iff.mp hv)
  have hlayout : again.layout = s.layout := congrArg SequenceOptions.layout hoptions'
  refine ⟨again, hagain, hsame, beq_of_values_eq hlayout hsame ?_⟩
  rw [hvalues]
  exact List.forall_mem_map.mpr fun v hv ↦ hnumbers v (Array.mem_toList_iff.mp hv)

/-- **Narrowing commutes with taking the envelope.** Of the same doubles, kept as they are and
rounded to a storage type that keeps their order, the envelopes are null together and the bounds of
the second are those of the first, rounded; a scan finds each bound of the second no later; and
what the second holds is stored again as it is, if rounding twice is rounding once. -/
theorem expandEnvelope_of_narrowed [MonotoneStorage σ] {values : Array Float}
    {options : SequenceOptions} (hnumbers : ∀ v ∈ values, v.isNaN = false)
    (hwhole : values.size % options.layout.stride = 0) :
    ∃ (wide : PackedSequence Float) (narrowed : PackedSequence σ),
      ofDoubles values options = .ok wide ∧ ofDoubles values options = .ok narrowed ∧
      (narrowed.expandEnvelope .null).isNull = (wide.expandEnvelope .null).isNull ∧
      (narrowed.expandEnvelope .null).bounds.equals
        ((wide.expandEnvelope .null).bounds.map (Storage.rounded σ)) = true ∧
      (∃ b b', IndexedBox.ofSequence wide.toSequence = .ok b ∧
        IndexedBox.ofSequence narrowed.toSequence = .ok b' ∧
        Option.Rel Extrema.NoLater b'.indices b.indices) ∧
      ((∀ v : Float, v.isNaN = false →
          Storage.rounded σ (Storage.rounded σ v) = Storage.rounded σ v) →
        ∃ again : PackedSequence σ,
          ofDoubles narrowed.values.toArray narrowed.options = .ok again ∧
            again.values = narrowed.values ∧ (again == narrowed) = true) := by
  obtain ⟨wide, hwide, hoptions, hrun⟩ := exists_ofDoubles (σ := Float) hwhole
  obtain ⟨narrowed, hnarrowed, hoptions', hrun'⟩ := exists_ofDoubles (σ := σ) hwhole
  have hlayout : narrowed.layout = wide.layout :=
    congrArg SequenceOptions.layout (hoptions'.trans hoptions.symm)
  have hmonotone : ∀ ⦃v w : Float⦄, v ≤ w → Storage.rounded σ v ≤ Storage.rounded σ w :=
    fun _ _ ↦ MonotoneStorage.rounded_le_rounded
  -- doubles are stored as they are, so that the wide points are the pairs themselves
  have hpoints : wide.points = leadingPairs wide.layout values.toList :=
    (points_of_narrowed hrun).trans (List.map_id _)
  have hpoints' :
      narrowed.points = wide.points.map (Prod.map (Storage.rounded σ) (Storage.rounded σ)) := by
    rw [points_of_narrowed hrun', hlayout, hpoints]
  have hnumber : ∀ v ∈ values, IsNumber v := fun v hv ↦ Binary.isNumber_iff.mpr (hnumbers v hv)
  have hpairs : ∀ p ∈ wide.points, IsNumber p.1 ∧ IsNumber p.2 := by
    rw [hpoints]
    intro p hp
    obtain ⟨hx, hy⟩ := mem_of_mem_leadingPairs hp
    exact ⟨hnumber p.1 (Array.mem_toList_iff.mp hx), hnumber p.2 (Array.mem_toList_iff.mp hy)⟩
  have hequals : (narrowed.expandEnvelope .null).bounds.equals
      ((wide.expandEnvelope .null).bounds.map (Storage.rounded σ)) = true := by
    -- rounding is monotone, so that it commutes with taking extremes
    rw [expandEnvelope, hpoints']
    exact Envelope.equals_map_expandToIncludeAll hmonotone hpairs Envelope.isNull_null
  refine ⟨wide, narrowed, hwide, hnarrowed, Bounds.isNull_eq_of_equals hequals, hequals,
    ⟨_, _, IndexedBox.ofSequence_of_points wide.points_toSequence,
      IndexedBox.ofSequence_of_points narrowed.points_toSequence, ?_⟩, fun hidem ↦ ?_⟩
  · rw [hpoints']
    exact Extrema.rel_noLater_scan hmonotone hpairs
  · exact exists_repacked hrun' (fun v hv ↦ hmonotone (hnumber v hv))
      fun v hv ↦ hidem v (hnumbers v hv)

end

/-- Two x that are one number of 32 bits and two y beyond its range: the second coordinate realizes
both upper bounds, and the first does so once they are narrowed. The box of the narrowed coordinates
has no width, and lies at infinity. -/
theorem expandEnvelope_of_narrowed_merged :
    ∃ (wide : PackedSequence Float) (narrowed again : PackedSequence Storage.Single)
      (b b' : IndexedBox Float),
      ofDoubles #[16777216.0, 1e39, 16777217.0, 2e39] ⟨.xy, .disabled⟩ = .ok wide ∧
        ofDoubles #[16777216.0, 1e39, 16777217.0, 2e39] ⟨.xy, .disabled⟩ = .ok narrowed ∧
        (wide.expandEnvelope .null).bounds = ⟨false, 16777216.0, 16777217.0, 1e39, 2e39⟩ ∧
        (narrowed.expandEnvelope .null).bounds =
          ⟨false, 16777216.0, 16777216.0, Ordinate.infinity, Ordinate.infinity⟩ ∧
        (narrowed.expandEnvelope .null).bounds.equals
          ((wide.expandEnvelope .null).bounds.map (Storage.rounded Storage.Single)) = true ∧
        IndexedBox.ofSequence wide.toSequence = .ok b ∧ b.indices = some ⟨0, 0, 1, 1⟩ ∧
        IndexedBox.ofSequence narrowed.toSequence = .ok b' ∧ b'.indices = some ⟨0, 0, 0, 0⟩ ∧
        Option.Rel Extrema.NoLater b'.indices b.indices ∧
        ofDoubles narrowed.values.toArray narrowed.options = .ok again ∧
        (again == narrowed) = true := by
  have hnumbers : ∀ v ∈ #[16777216.0, 1e39, 16777217.0, 2e39], Float.isNaN v = false := by
    decide +kernel
  have hwhole : (#[16777216.0, 1e39, 16777217.0, 2e39] : Array Float).size %
      (⟨.xy, .disabled⟩ : SequenceOptions).layout.stride = 0 := rfl
  obtain ⟨wide, narrowed, hwide, hnarrowed, -, hequals, ⟨b, b', hb, hb', hrel⟩, hrepack⟩ :=
    expandEnvelope_of_narrowed (σ := Storage.Single) hnumbers hwhole
  obtain ⟨again, hagain, -, hsame⟩ := hrepack fun _ ↦ Storage.rounded_rounded
  have hpoints : wide.points = [(16777216.0, 1e39), (16777217.0, 2e39)] := by
    obtain ⟨hlayout, hrun⟩ := ordinates_of_ofDoubles hwide
    rw [points_of_narrowed hrun, hlayout]
    rfl
  have hpoints' : narrowed.points =
      [(16777216.0, Ordinate.infinity), (16777216.0, Ordinate.infinity)] := by
    obtain ⟨hlayout, hrun⟩ := ordinates_of_ofDoubles hnarrowed
    rw [points_of_narrowed hrun, hlayout]
    decide +kernel
  refine ⟨wide, narrowed, again, b, b', hwide, hnarrowed, ?_, ?_, hequals, hb, ?_, hb', ?_, hrel,
    hagain, hsame⟩
  · rw [expandEnvelope, hpoints, Envelope.bounds, Bounds.mk.injEq]
    decide +kernel
  · rw [expandEnvelope, hpoints', Envelope.bounds, Bounds.mk.injEq]
    decide +kernel
  · rw [IndexedBox.ofSequence_of_points wide.points_toSequence, hpoints] at hb
    rw [← Except.ok.inj hb]
    show Extrema.scan [((16777216.0 : Float), (1e39 : Float)), (16777217.0, 2e39)] = _
    decide +kernel
  · rw [IndexedBox.ofSequence_of_points narrowed.points_toSequence, hpoints'] at hb'
    rw [← Except.ok.inj hb']
    show Extrema.scan [((16777216.0 : Float), Ordinate.infinity),
      (16777216.0, Ordinate.infinity)] = _
    decide +kernel

end PackedSequence

end Geospatial
