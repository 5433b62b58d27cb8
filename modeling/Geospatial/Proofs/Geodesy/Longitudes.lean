import Geospatial.Proofs.Geodesy.Exact
import Geospatial.Proofs.Geodesy.Meridian

/-!
# The longitudes of an arc

Projection never leaves the longitudes of the arc: what it finds is an endpoint, exactly, or lies
between them. Along a meridian there is one longitude only. Everywhere else two tests on the solved
offset decide (`Projected`), and they are those of a clamp where the arc runs east.

**Nothing about the sphere is used.** Whatever the functions of trigonometry answer, the two tests
stand behind the formulas, so this is about the tests. All that is asked of a function is that an
arc cosine lies in the half turn.

**Westward the two tests overlap.** An offset that is not negative is beyond a width that is, so no
foot is ever found inside.
-/

namespace Geospatial

open scoped ExactReals

namespace Arc

section

variable {α : Type} [Trigonometry α]

/-- Off the meridians, what is found and where the offset lies. -/
inductive Projected (a : Arc α) (p : LonLat α) : LineProjection α → Prop
  | before (h : a.offset p < 0.0) : Projected a p (.ofPlace .outsideStart a.start)
  | past (hstart : ¬a.offset p < 0.0) (h : a.width < a.offset p) :
      Projected a p (.ofPlace .outsideEnd a.stop)
  | within (hstart : ¬a.offset p < 0.0) (hstop : ¬a.width < a.offset p) :
      Projected a p ⟨.inside, a.start.lon + a.offset p, a.footLat p⟩

/-- Off the meridians a projection is one of three: before the arc, behind it or inside. -/
theorem projected {a : Arc α} (h : (a.start.lon == a.stop.lon) = false) (p : LonLat α) :
    Projected a p (a.project p) := by
  rw [project_off_meridian h]
  split
  next hbefore => exact .before hbefore
  next hstart =>
    split
    next hpast => exact .past hstart hpast
    next hstop => exact .within hstart hstop

end

/-! ### In exact arithmetic -/

section

variable [AngleFunctions ℝ] {a : Arc ℝ} {p : LonLat ℝ} {r : LineProjection ℝ}

/-- What is found inside is between the meridians of the endpoints. -/
theorem Projected.lon_mem (h : Projected a p r) (hinside : r.position = .inside) :
    r.lon ∈ Set.Icc a.start.lon a.stop.lon := by
  cases h with
  | before => cases hinside
  | past => cases hinside
  | within hstart hstop =>
    have hwidth : a.offset p ≤ a.stop.lon - a.start.lon := not_lt.mp hstop
    exact ⟨le_add_of_nonneg_right (Ordinate.not_lt_zero_iff.mp hstart), by linarith⟩

/-- **Eastward exactly one position applies,** the one that the offset tells. -/
theorem Projected.position_iff (h : Projected a p r) (heast : a.start.lon < a.stop.lon) :
    (r.position = .outsideStart ↔ a.offset p < 0) ∧
      (r.position = .outsideEnd ↔ a.width < a.offset p) ∧
      (r.position = .inside ↔ 0 ≤ a.offset p ∧ a.offset p ≤ a.width) := by
  have hwidth : 0 < a.width := sub_pos.mpr heast
  cases h with
  | before h =>
    have hneg : a.offset p < 0 := not_le.mp fun hle ↦ Ordinate.not_lt_zero_iff.mpr hle h
    exact ⟨iff_of_true rfl hneg, iff_of_false nofun (hneg.trans hwidth).not_gt,
      iff_of_false nofun fun hle ↦ hneg.not_ge hle.1⟩
  | past hstart h =>
    exact ⟨iff_of_false nofun (Ordinate.not_lt_zero_iff.mp hstart).not_gt, iff_of_true rfl h,
      iff_of_false nofun fun hle ↦ h.not_ge hle.2⟩
  | within hstart hstop =>
    exact ⟨iff_of_false nofun (Ordinate.not_lt_zero_iff.mp hstart).not_gt, iff_of_false nofun hstop,
      iff_of_true rfl ⟨Ordinate.not_lt_zero_iff.mp hstart, not_lt.mp hstop⟩⟩

/-- Westward an offset that is not before the start is past the end. -/
theorem Projected.not_inside (h : Projected a p r) (hwest : a.stop.lon < a.start.lon) :
    r.position ≠ .inside := by
  intro hinside
  obtain ⟨hlower, hupper⟩ := h.lon_mem hinside
  exact hwest.not_ge (hlower.trans hupper)

/-- A latitude that was solved is an arc cosine. -/
theorem Projected.lat_mem (h : Projected a p r)
    (hacos : ∀ v ∈ Set.Icc (-1 : ℝ) 1, AngleFunctions.acos v ∈ Set.Icc 0 Real.pi)
    (hinside : r.position = .inside) : r.lat ∈ Set.Icc 0 Real.pi := by
  cases h with
  | before => cases hinside
  | past => cases hinside
  | within => exact hacos _ (Trigonometry.clampToUnit_mem _)

/-- What is found is an endpoint, or it is found inside. -/
theorem Projected.place (h : Projected a p r) :
    r = .ofPlace .outsideStart a.start ∨ r = .ofPlace .outsideEnd a.stop ∨
      r.position = .inside := by
  cases h with
  | before => exact Or.inl rfl
  | past => exact Or.inr (Or.inl rfl)
  | within => exact Or.inr (Or.inr rfl)

/-- Along a meridian what is found has the one longitude. -/
theorem place_alongMeridian (h : a.start.lon = a.stop.lon) (p : LonLat ℝ) :
    (a.project p).lon = a.start.lon ∧
      (a.project p = .ofPlace .outsideStart a.start ∨ a.project p = .ofPlace .outsideEnd a.stop ∨
        (a.project p).position = .inside) := by
  obtain ⟨hstart, hstop, -⟩ := alongMeridian_ends (le_refl a.start.lat) (le_refl a.stop.lat)
    (le_refl p.lat)
  rw [project_of_meridian (beq_iff_eq.mpr h)]
  refine ⟨rfl, ?_⟩
  cases hposition : (alongMeridian a.start.lat a.stop.lat p.lat).1 with
  | outsideStart =>
    rw [hstart hposition]
    exact Or.inl rfl
  | outsideEnd =>
    -- the end is on the same meridian, so that its longitude is the one that is reported
    rw [hstop hposition, h]
    exact Or.inr (Or.inl rfl)
  | inside => exact Or.inr (Or.inr rfl)

/-- **What is found is an endpoint exactly, or has a longitude between theirs.** -/
theorem project_place (a : Arc ℝ) (p : LonLat ℝ) :
    a.project p = .ofPlace .outsideStart a.start ∨ a.project p = .ofPlace .outsideEnd a.stop ∨
      (a.project p).position = .inside ∧
        (a.project p).lon ∈ Set.uIcc a.start.lon a.stop.lon := by
  by_cases hmeridian : a.start.lon = a.stop.lon
  · obtain ⟨hlon, hplace⟩ := place_alongMeridian hmeridian p
    exact hplace.imp_right (Or.imp_right fun hinside ↦ ⟨hinside, hlon ▸ Set.left_mem_uIcc⟩)
  · have hprojected := projected (beq_eq_false_iff_ne.mpr hmeridian) p
    exact hprojected.place.imp_right (Or.imp_right fun hinside ↦
      ⟨hinside, Set.Icc_subset_uIcc (hprojected.lon_mem hinside)⟩)

/-- **Projection stays within the longitudes of the arc,** whatever the functions of trigonometry
are, as long as an arc cosine lies in the half turn.

* What is found is the start, or the end, or it is found inside with a longitude between theirs.
* Eastward exactly one of the three happens, as the solved offset lies before 0, beyond the width or
  between them; and a latitude found inside lies in the half turn.
* Westward nothing is found inside.
* In degrees, given as numbers or as positions, the position is the one that is found in radians. -/
theorem project_stays_within_longitudes
    (hacos : ∀ v ∈ Set.Icc (-1 : ℝ) 1, AngleFunctions.acos v ∈ Set.Icc 0 Real.pi)
    (a : Arc ℝ) (p : LonLat ℝ) :
    let r := a.project p
    (r = .ofPlace .outsideStart a.start ∨ r = .ofPlace .outsideEnd a.stop ∨
      r.position = .inside ∧ r.lon ∈ Set.uIcc a.start.lon a.stop.lon) ∧
    (a.start.lon < a.stop.lon →
      ((r.position = .outsideStart ↔ a.offset p < 0) ∧
        (r.position = .outsideEnd ↔ a.width < a.offset p) ∧
        (r.position = .inside ↔ 0 ≤ a.offset p ∧ a.offset p ≤ a.width)) ∧
      (r.position = .inside → r.lat ∈ Set.Icc 0 Real.pi)) ∧
    (a.stop.lon < a.start.lon → r.position ≠ .inside) ∧
    (a.projectDegrees p).position = (a.toRadians.project p.toRadians).position ∧
    ∀ place start stop : Position ℝ, LonLat.ofPosition place = .ok p →
      LonLat.ofPosition start = .ok a.start → LonLat.ofPosition stop = .ok a.stop →
      LineProjection.position <$> projectPosition place start stop =
        .ok (a.toRadians.project p.toRadians).position := by
  intro r
  refine ⟨project_place a p, fun heast ↦ ?_, fun hwest ↦ ?_, rfl,
    fun place start stop hplace hstart hstop ↦ ?_⟩
  · have hprojected := projected (beq_eq_false_iff_ne.mpr heast.ne) p
    exact ⟨hprojected.position_iff heast, hprojected.lat_mem hacos⟩
  · exact (projected (beq_eq_false_iff_ne.mpr hwest.ne') p).not_inside hwest
  · rw [projectPosition, hplace, hstart, hstop]
    rfl

end

/-- Half way along a quarter of the equator a place is found inside, there and in degrees it is
found alike, and westward it is not found inside. -/
theorem project_stays_within_longitudes_equator :
    let a : Arc ℝ := ⟨⟨0, 0⟩, ⟨Real.pi / 2, 0⟩⟩
    let p : LonLat ℝ := ⟨Real.pi / 4, 0⟩
    let coordinate (q : LonLat ℝ) : Position ℝ := .coordinate { x := q.lon, y := q.lat }
    a.start.lon < a.stop.lon ∧ (a.project p).position = .inside ∧
      (a.project p).lat ∈ Set.Icc 0 Real.pi ∧ (a.reversed.project p).position ≠ .inside ∧
      LineProjection.position <$>
          projectPosition (coordinate p) (coordinate a.start) (coordinate a.stop) =
        .ok (a.toRadians.project p.toRadians).position := by
  intro a p coordinate
  have hacos : ∀ v ∈ Set.Icc (-1 : ℝ) 1, Real.arccos v ∈ Set.Icc 0 Real.pi :=
    fun v _ ↦ ⟨Real.arccos_nonneg v, Real.arccos_le_pi v⟩
  have heast : a.start.lon < a.stop.lon := Real.pi_div_two_pos
  have hrest : Real.pi / 2 - Real.pi / 4 = Real.pi / 4 := by ring
  have hoffset : a.offset p = Real.pi / 4 := by
    simp [offset, tanOffset, tanFoot, sine, cosine, sinWidth, width, LonLat.cosArc, LonLat.cosLat,
      Trigonometry.complement_real, hrest, a, p]
  have hwidth : a.width = Real.pi / 2 := sub_zero _
  obtain ⟨-, heastward, -, -, hpositions⟩ := project_stays_within_longitudes hacos a p
  obtain ⟨⟨-, -, hinside⟩, hlat⟩ := heastward heast
  have hfound : (a.project p).position = .inside := by
    rw [hinside, hoffset, hwidth]
    constructor <;> linarith [Real.pi_pos]
  obtain ⟨-, -, hwestward, -⟩ := project_stays_within_longitudes hacos a.reversed p
  exact ⟨heast, hfound, hlat hfound, hwestward heast, hpositions _ _ _ rfl rfl rfl⟩

end Arc

end Geospatial
