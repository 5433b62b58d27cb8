import Geospatial.Geodesy.Projection
import Geospatial.Proofs.Binary.Value
import Geospatial.Proofs.Ordinate.Compare

/-!
# Projection onto a piece of a meridian

Along a meridian the nearest place is a matter of latitudes: the latitude is kept where it lies
between those of the endpoints, and otherwise the nearer endpoint takes its place.

`alongMeridian` decides this in one way for pieces that run north and in another for those that run
south. The first is read off as a clamp (`clamped_alongMeridian`); the second is then no separate
case, because turning the piece round exchanges its ends and changes nothing else
(`alongMeridian_reversed`).

**Nearest by order.** A latitude of the span is nearest to a given one if it lies between that one
and every other of the span. This asks for comparisons alone and so has a meaning for infinite
latitudes as well; of finite ones it says that no other has a smaller distance
(`NearestWithin.abs_sub_le`).
-/

namespace Geospatial

open Ordinate (IsNumber)

/-- The same position in the arc that runs the other way. -/
def LinePosition.reversed : LinePosition → LinePosition
  | .outsideStart => .outsideEnd
  | .outsideEnd => .outsideStart
  | .inside => .inside

namespace LinePosition

@[simp] theorem reversed_reversed (position : LinePosition) :
    position.reversed.reversed = position := by
  cases position <;> rfl

@[simp] theorem reversed_eq_inside_iff {position : LinePosition} :
    position.reversed = .inside ↔ position = .inside := by
  cases position <;> simp [reversed]

end LinePosition

namespace Arc

/-- The arc that runs the other way. -/
def reversed {α : Type} (a : Arc α) : Arc α :=
  ⟨a.stop, a.start⟩

section

variable {α : Type} [Ordinate α]

/-- The values from the smaller of two to the greater one. -/
def Spanned (a b v : α) : Prop :=
  lesser a b ≤ v ∧ v ≤ greater a b

/-- A value of the span that lies between the given one and every other value of the span. -/
structure NearestWithin (a b lat v : α) : Prop where
  spanned : Spanned a b v
  between : ∀ u, Spanned a b u → (lat ≤ v ∧ v ≤ u) ∨ (u ≤ v ∧ v ≤ lat)

/-- What is found where a value is clamped between a lower and an upper end. -/
inductive Clamped (lower upper lat : α) : LinePosition × α → Prop
  | below (h : lat < lower) : Clamped lower upper lat (.outsideStart, lower)
  | above (h : upper < lat) : Clamped lower upper lat (.outsideEnd, upper)
  | within (h : lower ≤ lat ∧ lat ≤ upper) : Clamped lower upper lat (.inside, lat)

variable [LawfulOrdinate α] {a b lat v : α}

/-- With the ends in order, being spanned is lying between them. -/
theorem spanned_iff (h : a ≤ b) : Spanned a b v ↔ a ≤ v ∧ v ≤ b := by
  have hfirst := Ordinate.inOrder_fst_le (c := v) (Ordinate.isNumber_left h)
    (Ordinate.isNumber_right h)
  have hlast := Ordinate.le_inOrder_snd (c := v) (Ordinate.isNumber_right h)
    (Ordinate.isNumber_left h)
  rw [Spanned, Ordinate.lesser_eq_inOrder_fst, Ordinate.greater_eq_inOrder_snd, hfirst, hlast,
    or_iff_left_of_imp (Ordinate.le_trans h),
    or_iff_left_of_imp fun hv ↦ Ordinate.le_trans hv h]

/-- Which of the two ends is named first makes no difference. -/
theorem spanned_comm (ha : IsNumber a) (hb : IsNumber b) : Spanned a b v ↔ Spanned b a v := by
  simp only [Spanned, Ordinate.lesser_eq_inOrder_fst, Ordinate.greater_eq_inOrder_snd,
    Ordinate.inOrder_fst_le ha hb, Ordinate.inOrder_fst_le hb ha, Ordinate.le_inOrder_snd ha hb,
    Ordinate.le_inOrder_snd hb ha]
  exact and_congr or_comm or_comm

/-- Which end comes first does not matter for what is nearest. -/
theorem NearestWithin.comm (ha : IsNumber a) (hb : IsNumber b) (h : NearestWithin a b lat v) :
    NearestWithin b a lat v :=
  ⟨(spanned_comm ha hb).mp h.spanned, fun u hu ↦ h.between u ((spanned_comm ha hb).mpr hu)⟩

variable {position : LinePosition}

/-- What is clamped to an interval is the nearest that it has. -/
theorem Clamped.nearestWithin (hab : a ≤ b) (h : Clamped a b lat (position, v)) :
    NearestWithin a b lat v := by
  cases h with
  | below h =>
    refine ⟨(spanned_iff hab).mpr ⟨Ordinate.isNumber_left hab, hab⟩, fun u hu ↦ ?_⟩
    exact Or.inl ⟨Ordinate.le_of_lt h, ((spanned_iff hab).mp hu).1⟩
  | above h =>
    refine ⟨(spanned_iff hab).mpr ⟨hab, Ordinate.isNumber_right hab⟩, fun u hu ↦ ?_⟩
    exact Or.inr ⟨((spanned_iff hab).mp hu).2, Ordinate.le_of_lt h⟩
  | within h =>
    refine ⟨(spanned_iff hab).mpr h, fun u hu ↦ ?_⟩
    have hlat := Ordinate.isNumber_right h.1
    have hu' := Ordinate.isNumber_right ((spanned_iff hab).mp hu).1
    exact (LawfulOrdinate.le_total hlat hu').imp (fun hle ↦ ⟨hlat, hle⟩) fun hle ↦ ⟨hle, hlat⟩

/-- The label says whether anything had to be clamped. -/
theorem Clamped.inside_iff (hab : a ≤ b) (h : Clamped a b lat (position, v)) :
    position = .inside ↔ Spanned a b lat := by
  rw [spanned_iff hab]
  cases h with
  | below h => exact iff_of_false nofun fun hspan ↦ Ordinate.not_le_of_lt h hspan.1
  | above h => exact iff_of_false nofun fun hspan ↦ Ordinate.not_le_of_lt h hspan.2
  | within h => exact iff_of_true rfl h

end

/-- What is found outside is an end, and what is found inside is what was given. -/
theorem Clamped.ends {α : Type} [Ordinate α] {a b lat v : α} {position : LinePosition}
    (h : Clamped a b lat (position, v)) :
    (position = .outsideStart → v = a) ∧ (position = .outsideEnd → v = b) ∧
      (position = .inside → v = lat) := by
  cases h with
  | below => exact ⟨fun _ ↦ rfl, nofun, nofun⟩
  | above => exact ⟨nofun, fun _ ↦ rfl, nofun⟩
  | within => exact ⟨nofun, nofun, fun _ ↦ rfl⟩

/-! ### North and south -/

section

variable {α : Type} [Trigonometry α] [LawfulOrdinate α] {start stop lat : α}

/-- **Northward the latitude is clamped.** -/
theorem clamped_alongMeridian (h : start ≤ stop) (hlat : IsNumber lat) :
    Clamped start stop lat (alongMeridian start stop lat) := by
  rw [alongMeridian, if_neg (Ordinate.not_lt_of_le h)]
  split
  next hlt => exact .below hlt
  next hstart =>
    split
    next hlt => exact .above hlt
    next hstop =>
      have hle := (Ordinate.not_lt_iff_le hlat (Ordinate.isNumber_left h)).mp hstart
      exact .within ⟨hle, (Ordinate.not_lt_iff_le (Ordinate.isNumber_right h) hlat).mp hstop⟩

/-- With the ends exchanged, the same latitude is found under the label of the other end. -/
theorem alongMeridian_reversed_of_lt (h : start < stop) :
    alongMeridian stop start lat =
      ((alongMeridian start stop lat).1.reversed, (alongMeridian start stop lat).2) := by
  rw [alongMeridian, if_pos h, alongMeridian, if_neg (Ordinate.not_lt_of_le (Ordinate.le_of_lt h))]
  by_cases hstop : stop < lat
  · -- a latitude beyond the upper end is not below the lower one as well
    have hstart : ¬lat < start :=
      fun hlt ↦ Ordinate.lt_irrefl (Ordinate.lt_trans (Ordinate.lt_trans h hstop) hlt)
    rw [if_pos hstop, if_neg hstart, if_pos hstop]
    rfl
  · rw [if_neg hstop, if_neg hstop]
    split
    · rfl
    · rfl

/-- **Turned round, the piece has its ends exchanged,** and the latitude that is found is the
same. -/
theorem alongMeridian_reversed (hstart : IsNumber start) (hstop : IsNumber stop)
    (hne : (start == stop) = false) :
    alongMeridian stop start lat =
      ((alongMeridian start stop lat).1.reversed, (alongMeridian start stop lat).2) := by
  by_cases hlt : start < stop
  · exact alongMeridian_reversed_of_lt hlt
  · have hge : stop ≤ start := (Ordinate.not_lt_iff_le hstart hstop).mp hlt
    have hgt : stop < start := by
      rw [Ordinate.lt_iff_not_le hstop hstart]
      intro hle
      exact Bool.eq_false_iff.mp hne (LawfulOrdinate.beq_iff_le_ge.mpr ⟨hle, hge⟩)
    rw [alongMeridian_reversed_of_lt hgt, LinePosition.reversed_reversed]

/-- Either way the latitude is clamped between the ends, which are exchanged southward. -/
theorem clamped_or_clamped_reversed (hstart : IsNumber start) (hstop : IsNumber stop)
    (hlat : IsNumber lat) :
    start ≤ stop ∧ Clamped start stop lat (alongMeridian start stop lat) ∨
      stop ≤ start ∧ Clamped stop start lat
        ((alongMeridian start stop lat).1.reversed, (alongMeridian start stop lat).2) := by
  by_cases h : stop < start
  · refine Or.inr ⟨Ordinate.le_of_lt h, ?_⟩
    rw [alongMeridian_reversed_of_lt h, LinePosition.reversed_reversed]
    exact clamped_alongMeridian (Ordinate.le_of_lt h) hlat
  · have hle := (Ordinate.not_lt_iff_le hstop hstart).mp h
    exact Or.inl ⟨hle, clamped_alongMeridian hle hlat⟩

/-- What is found along a meridian is the nearest latitude of the span. -/
theorem nearestWithin_alongMeridian (hstart : IsNumber start) (hstop : IsNumber stop)
    (hlat : IsNumber lat) : NearestWithin start stop lat (alongMeridian start stop lat).2 := by
  rcases clamped_or_clamped_reversed hstart hstop hlat with ⟨hle, h⟩ | ⟨hle, h⟩
  · exact h.nearestWithin hle
  · exact (h.nearestWithin hle).comm hstop hstart

/-- Whichever way the meridian runs, a latitude is inside exactly where it is spanned. -/
theorem alongMeridian_inside_iff (hstart : IsNumber start) (hstop : IsNumber stop)
    (hlat : IsNumber lat) :
    (alongMeridian start stop lat).1 = .inside ↔ Spanned start stop lat := by
  rcases clamped_or_clamped_reversed hstart hstop hlat with ⟨hle, h⟩ | ⟨hle, h⟩
  · exact h.inside_iff hle
  · rw [spanned_comm hstart hstop, ← h.inside_iff hle, LinePosition.reversed_eq_inside_iff]

/-- The position names what was found. -/
theorem alongMeridian_ends (hstart : IsNumber start) (hstop : IsNumber stop)
    (hlat : IsNumber lat) :
    ((alongMeridian start stop lat).1 = .outsideStart → (alongMeridian start stop lat).2 = start) ∧
      ((alongMeridian start stop lat).1 = .outsideEnd →
        (alongMeridian start stop lat).2 = stop) ∧
      ((alongMeridian start stop lat).1 = .inside → (alongMeridian start stop lat).2 = lat) := by
  rcases clamped_or_clamped_reversed hstart hstop hlat with ⟨-, h⟩ | ⟨-, h⟩
  · exact h.ends
  · obtain ⟨hlower, hupper, hwithin⟩ := h.ends
    exact ⟨fun hout ↦ hupper (congrArg LinePosition.reversed hout),
      fun hout ↦ hlower (congrArg LinePosition.reversed hout),
      fun hin ↦ hwithin (congrArg LinePosition.reversed hin)⟩

/-- What lies in the span is left where it is. -/
theorem alongMeridian_of_spanned (hstart : IsNumber start) (hstop : IsNumber stop)
    (h : Spanned start stop lat) : alongMeridian start stop lat = (.inside, lat) := by
  have hlat := Ordinate.isNumber_right h.1
  have hinside := (alongMeridian_inside_iff hstart hstop hlat).mpr h
  exact Prod.ext hinside ((alongMeridian_ends hstart hstop hlat).2.2 hinside)

end

/-! ### Doubles -/

/-- Of finite latitudes none of the span has a smaller distance. -/
theorem NearestWithin.abs_sub_le {a b lat v u : Float} (h : NearestWithin a b lat v)
    (hu : Spanned a b u) {x y z : ℝ} (hx : Binary.valueOf lat = some x)
    (hy : Binary.valueOf v = some y) (hz : Binary.valueOf u = some z) : |y - x| ≤ |z - x| := by
  rcases h.between u hu with ⟨hlower, hupper⟩ | ⟨hlower, hupper⟩
  · rw [Binary.le_iff_valueOf_le hx hy, EReal.coe_le_coe_iff] at hlower
    rw [Binary.le_iff_valueOf_le hy hz, EReal.coe_le_coe_iff] at hupper
    rw [abs_of_nonneg (by linarith), abs_of_nonneg (by linarith)]
    linarith
  · rw [Binary.le_iff_valueOf_le hz hy, EReal.coe_le_coe_iff] at hlower
    rw [Binary.le_iff_valueOf_le hy hx, EReal.coe_le_coe_iff] at hupper
    rw [abs_of_nonpos (by linarith), abs_of_nonpos (by linarith)]
    linarith

/-- **Onto a meridian a place is projected by its latitude,** whichever way the piece runs.

The longitude is that of the start and the latitude is the nearest one of those from the lower to
the upper endpoint. It is found inside exactly where the given latitude is one of them; otherwise
the position names the endpoint whose latitude is returned. Turning the piece round changes neither
the place nor, but for which end is named, the position; projecting what was found again finds it
inside; and the longitude of the given place plays no part. -/
theorem project_clamps_along_meridian {a : Arc Float} {p : LonLat Float}
    (hmeridian : (a.start.lon == a.stop.lon) = true) (hstart : IsNumber a.start.lat)
    (hstop : IsNumber a.stop.lat) (hlat : IsNumber p.lat) :
    let r := a.project p
    r.lon = a.start.lon ∧
      (NearestWithin a.start.lat a.stop.lat p.lat r.lat ∧
        ∀ u, Spanned a.start.lat a.stop.lat u → ∀ x y z : ℝ, Binary.valueOf p.lat = some x →
          Binary.valueOf r.lat = some y → Binary.valueOf u = some z → |y - x| ≤ |z - x|) ∧
      (r.position = .inside ↔ Spanned a.start.lat a.stop.lat p.lat) ∧
      (r.position = .inside → r.lat = p.lat) ∧
      (r.position = .outsideStart → r.lat = a.start.lat) ∧
      (r.position = .outsideEnd → r.lat = a.stop.lat) ∧
      ((a.start.lat == a.stop.lat) = false →
        ((a.reversed.project p).lon == r.lon) = true ∧ (a.reversed.project p).lat = r.lat ∧
          (a.reversed.project p).position = r.position.reversed) ∧
      a.project r.place = ⟨.inside, r.lon, r.lat⟩ ∧
      ∀ lon, a.project ⟨lon, p.lat⟩ = r := by
  intro r
  have hr : r = _ := project_of_meridian hmeridian p
  have hnearest := nearestWithin_alongMeridian hstart hstop hlat
  obtain ⟨houtsideStart, houtsideEnd, hinside⟩ := alongMeridian_ends hstart hstop hlat
  -- equal longitudes may still be zeros of two signs, so that they are compared and not identified
  have hturned : (a.reversed.start.lon == a.reversed.stop.lon) = true :=
    (Ordinate.beq_comm _ _).trans hmeridian
  rw [hr]
  refine ⟨rfl, ⟨hnearest, fun u hu x y z ↦ hnearest.abs_sub_le hu⟩,
    alongMeridian_inside_iff hstart hstop hlat, hinside, houtsideStart, houtsideEnd,
    fun hne ↦ ?_, ?_, fun lon ↦ project_of_meridian hmeridian ⟨lon, p.lat⟩⟩
  · have hreversed : alongMeridian a.stop.lat a.start.lat p.lat = _ :=
      alongMeridian_reversed hstart hstop hne
    obtain ⟨hposition, hlat'⟩ := Prod.ext_iff.mp hreversed
    rw [project_of_meridian hturned p]
    exact ⟨hturned, hlat', hposition⟩
  · have hagain := alongMeridian_of_spanned hstart hstop hnearest.spanned
    rw [project_of_meridian hmeridian]
    exact congrArg (fun found ↦ LineProjection.mk found.1 a.start.lon found.2) hagain

/-- A piece that runs south, with a place north of its start: the start is named, and its latitude
is the nearest. -/
theorem project_clamps_along_meridian_southward :
    let a : Arc Float := ⟨⟨0.0, 10.0⟩, ⟨-0.0, 0.0⟩⟩
    let p : LonLat Float := ⟨3.0, 12.0⟩
    ((a.start.lon == a.stop.lon) = true ∧ IsNumber a.start.lat ∧ IsNumber a.stop.lat ∧
      IsNumber p.lat) ∧
    (a.project p).position = .outsideStart ∧ (a.project p).lat = 10.0 ∧
      (a.reversed.project p).position = .outsideEnd ∧ (a.reversed.project p).lat = 10.0 ∧
      NearestWithin 10.0 0.0 12.0 (a.project p).lat := by
  intro a p
  have hmeridian : (a.start.lon == a.stop.lon) = true := by decide
  have hstart : IsNumber a.start.lat := by decide
  have hstop : IsNumber a.stop.lat := by decide
  have hlat : IsNumber p.lat := by decide
  obtain ⟨-, ⟨hnearest, -⟩, -, -, hend, -, hturned, -, -⟩ :=
    project_clamps_along_meridian hmeridian hstart hstop hlat
  have hposition : (a.project p).position = .outsideStart := by
    rw [project_of_meridian hmeridian]
    decide
  obtain ⟨-, hlat', hposition'⟩ := hturned (by decide)
  rw [hposition] at hposition'
  exact ⟨⟨hmeridian, hstart, hstop, hlat⟩, hposition, hend hposition, hposition',
    hlat'.trans (hend hposition), hnearest⟩

end Arc

end Geospatial
