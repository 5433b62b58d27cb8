import Geospatial.Proofs.Binary.Comparison
import Geospatial.Proofs.Bounds.Agreement
import Mathlib.Data.Set.BooleanAlgebra
import Mathlib.Order.CompletePartialOrder

/-!
# The points of a box

A box stands for the set of points that it covers, its `region`. The predicates on two boxes never
look at points, only at bounds; this module says what they mean for the regions:

* `covers_iff_subset` — one box covers another when the other's region is not empty and lies within
  its own;
* `equals_iff_region_eq` — boxes are equal when they have the same region;
* `containsProperly_iff_ssubset` — and contain one another properly when one region is strictly
  within the other;
* `intersects_iff_nonempty` — boxes intersect when their regions have a point in common.

All of it rests on two points of a box in order, its lower and its upper corner: what holds of both
corners holds of the bounds.

**What the predicates say of regions they say of well-formed boxes only.** A bound that is no number
leaves the region empty without making the box null, and the predicates then answer what the region
does not show. What they say of one another, that covering is transitive and proper containment its
strict part, holds of any boxes.
-/

namespace Geospatial.Bounds

variable {α : Type} [Ordinate α] {a b c : Bounds α} {x y : α}

/-- The points that the box covers. -/
def region (a : Bounds α) : Set (α × α) :=
  {p | a.coversPoint p.1 p.2 = true}

/-- A point is in the region where it lies between the bounds on both axes. -/
theorem mem_region_iff :
    (x, y) ∈ a.region ↔ a.isNull = false ∧ (a.minX ≤ x ∧ x ≤ a.maxX) ∧ a.minY ≤ y ∧ y ≤ a.maxY :=
  coversPoint_iff

theorem region_of_isNull (h : a.isNull = true) : a.region = ∅ := by
  refine Set.eq_empty_of_forall_notMem fun p hp ↦ ?_
  rw [(mem_region_iff.mp hp).1] at h
  cases h

/-- Containing properly is covering without being equal. -/
theorem containsProperly_iff :
    a.containsProperly b = true ↔ a.covers b = true ∧ ¬a.equals b = true := by
  rw [containsProperly, Bool.and_eq_true, Bool.not_eq_true', Bool.not_eq_true, and_comm]

/-- Meeting, as the comparisons that decide it: neither box lies beyond the other on an axis. -/
theorem intersects_iff :
    a.intersects b = true ↔ (a.isNull = false ∧ b.isNull = false) ∧
      (¬a.maxX < b.minX ∧ ¬b.maxX < a.minX) ∧ ¬a.maxY < b.minY ∧ ¬b.maxY < a.minY := by
  simp only [intersects, Bool.and_eq_true, Bool.not_eq_true', Bool.or_eq_false_iff,
    decide_eq_false_iff_not, and_assoc]

theorem isNull_of_intersects (h : a.intersects b = true) : a.isNull = false ∧ b.isNull = false :=
  (intersects_iff.mp h).1

/-- Neither of two boxes is the first. -/
theorem intersects_comm (a b : Bounds α) : a.intersects b = b.intersects a := by
  rw [Bool.eq_iff_iff, intersects_iff, intersects_iff]
  exact and_congr and_comm (and_congr and_comm and_comm)

variable [LawfulOrdinate α]

/-! ### Order -/

theorem covers_trans (hab : a.covers b = true) (hbc : b.covers c = true) : a.covers c = true := by
  obtain ⟨⟨ha, -⟩, ⟨hminX, hmaxX⟩, hminY, hmaxY⟩ := covers_iff.mp hab
  obtain ⟨⟨-, hc⟩, ⟨hminX', hmaxX'⟩, hminY', hmaxY'⟩ := covers_iff.mp hbc
  exact covers_iff.mpr ⟨⟨ha, hc⟩,
    ⟨Ordinate.le_trans hminX hminX', Ordinate.le_trans hmaxX' hmaxX⟩,
    Ordinate.le_trans hminY hminY', Ordinate.le_trans hmaxY' hmaxY⟩

/-- Boxes that cover each other are equal. -/
theorem equals_iff_covers (ha : a.isNull = false) (hb : b.isNull = false) :
    a.equals b = true ↔ a.covers b = true ∧ b.covers a = true := by
  constructor
  · intro h
    simp only [equals, ha, hb, Bool.false_eq_true, if_false, Bool.not_false, Bool.true_and,
      Bool.and_eq_true, LawfulOrdinate.beq_iff_le_ge] at h
    obtain ⟨⟨⟨hmaxX, hmaxY⟩, hminX⟩, hminY⟩ := h
    exact ⟨covers_iff.mpr ⟨⟨ha, hb⟩, ⟨hminX.1, hmaxX.2⟩, hminY.1, hmaxY.2⟩,
      covers_iff.mpr ⟨⟨hb, ha⟩, ⟨hminX.2, hmaxX.1⟩, hminY.2, hmaxY.1⟩⟩
  · rintro ⟨hab, hba⟩
    exact equals_of_covers hab hba

/-- Proper containment is the strict part of covering. -/
theorem containsProperly_iff_not_covers :
    a.containsProperly b = true ↔ a.covers b = true ∧ ¬b.covers a = true := by
  rw [containsProperly_iff]
  refine and_congr_right fun h ↦ not_congr ?_
  obtain ⟨ha, hb⟩ := (covers_iff.mp h).1
  rw [equals_iff_covers ha hb, and_iff_right h]

theorem containsProperly_self : a.containsProperly a = false := by
  rw [← Bool.not_eq_true, containsProperly_iff_not_covers]
  exact fun h ↦ h.2 h.1

theorem containsProperly_trans (hab : a.containsProperly b = true)
    (hbc : b.containsProperly c = true) : a.containsProperly c = true := by
  rw [containsProperly_iff_not_covers] at hab hbc ⊢
  exact ⟨covers_trans hab.1 hbc.1, fun hca ↦ hab.2 (covers_trans hbc.1 hca)⟩

/-! ### Corners -/

/-- The corners of a box are among its points. -/
theorem lower_mem_region (ha : a.isNull = false) (h : a.InOrder) : (a.minX, a.minY) ∈ a.region :=
  mem_region_iff.mpr ⟨ha, ⟨Ordinate.isNumber_left h.x, h.x⟩, Ordinate.isNumber_left h.y, h.y⟩

theorem upper_mem_region (ha : a.isNull = false) (h : a.InOrder) : (a.maxX, a.maxY) ∈ a.region :=
  mem_region_iff.mpr ⟨ha, ⟨h.x, Ordinate.isNumber_right h.x⟩, h.y, Ordinate.isNumber_right h.y⟩

/-- A well-formed box has points exactly where it is not null. -/
theorem nonempty_region_iff (h : a.WellFormed) : a.region.Nonempty ↔ a.isNull = false := by
  constructor
  · rintro ⟨p, hp⟩
    exact (mem_region_iff.mp hp).1
  · exact fun ha ↦ ⟨_, lower_mem_region ha (h.inOrder ha)⟩

/-! ### Covering -/

/-- What is covered is a part of the region. -/
theorem region_subset_of_covers (h : a.covers b = true) : b.region ⊆ a.region := by
  rintro ⟨x, y⟩ hp
  obtain ⟨⟨ha, -⟩, ⟨hminX, hmaxX⟩, hminY, hmaxY⟩ := covers_iff.mp h
  obtain ⟨-, ⟨hx, hx'⟩, hy, hy'⟩ := mem_region_iff.mp hp
  exact mem_region_iff.mpr ⟨ha, ⟨Ordinate.le_trans hminX hx, Ordinate.le_trans hx' hmaxX⟩,
    Ordinate.le_trans hminY hy, Ordinate.le_trans hy' hmaxY⟩

/-- The two corners of a box are enough to cover it. -/
theorem covers_of_region_subset (hb : b.isNull = false) (hbo : b.InOrder)
    (h : b.region ⊆ a.region) : a.covers b = true := by
  obtain ⟨ha, ⟨hminX, -⟩, hminY, -⟩ := mem_region_iff.mp (h (lower_mem_region hb hbo))
  obtain ⟨-, ⟨-, hmaxX⟩, -, hmaxY⟩ := mem_region_iff.mp (h (upper_mem_region hb hbo))
  exact covers_iff.mpr ⟨⟨ha, hb⟩, ⟨hminX, hmaxX⟩, hminY, hmaxY⟩

/-- **Covering is inclusion** of what is not empty. -/
theorem covers_iff_subset (hb : b.WellFormed) :
    a.covers b = true ↔ b.region.Nonempty ∧ b.region ⊆ a.region := by
  rw [nonempty_region_iff hb]
  constructor
  · exact fun h ↦ ⟨(covers_iff.mp h).1.2, region_subset_of_covers h⟩
  · rintro ⟨hnull, h⟩
    exact covers_of_region_subset hnull (hb.inOrder hnull) h

/-! ### Equality -/

/-- **Equal boxes have the same points,** and no others do. -/
theorem equals_iff_region_eq (ha : a.WellFormed) (hb : b.WellFormed) :
    a.equals b = true ↔ a.region = b.region := by
  cases han : a.isNull with
  | true =>
    rw [equals_of_isNull_left han, region_of_isNull han, ← Bool.not_eq_false,
      ← nonempty_region_iff hb, Set.not_nonempty_iff_eq_empty, eq_comm]
  | false =>
    -- the region of a box that is not null is not empty, and so tells it from a null one
    have hane := (nonempty_region_iff ha).mpr han
    cases hbn : b.isNull with
    | true =>
      rw [equals_of_isNull_right hbn, han, region_of_isNull hbn]
      exact iff_of_false Bool.false_ne_true hane.ne_empty
    | false =>
      have hbne := (nonempty_region_iff hb).mpr hbn
      rw [equals_iff_covers han hbn, covers_iff_subset ha, covers_iff_subset hb,
        and_iff_right hane, and_iff_right hbne, Set.Subset.antisymm_iff, and_comm]

/-- **Proper containment is strict inclusion.** -/
theorem containsProperly_iff_ssubset (ha : a.WellFormed) (hb : b.WellFormed) :
    a.containsProperly b = true ↔ b.region.Nonempty ∧ b.region ⊂ a.region := by
  rw [containsProperly_iff, covers_iff_subset hb, equals_iff_region_eq ha hb, and_assoc,
    Set.ssubset_iff_subset_ne]
  exact and_congr_right' (and_congr_right' ne_comm)

/-! ### Intersecting -/

/-- The box between the greater lower bounds and the smaller upper bounds of two others. -/
def overlap (a b : Bounds α) : Envelope α :=
  ⟨greater a.minX b.minX, lesser a.maxX b.maxX, greater a.minY b.minY, lesser a.maxY b.maxY⟩

/-- **That no bound keeps two boxes apart** is that the bounds of their overlap are in order. -/
theorem intersects_iff_inOrder (ha : a.isNull = false) (hao : a.InOrder) (hb : b.isNull = false)
    (hbo : b.InOrder) : a.intersects b = true ↔ (overlap a b).bounds.InOrder := by
  have hx : (overlap a b).minX ≤ (overlap a b).maxX ↔ ¬a.maxX < b.minX ∧ ¬b.maxX < a.minX :=
    Ordinate.greater_le_lesser_iff hao.x hbo.x
  have hy : (overlap a b).minY ≤ (overlap a b).maxY ↔ ¬a.maxY < b.minY ∧ ¬b.maxY < a.minY :=
    Ordinate.greater_le_lesser_iff hao.y hbo.y
  rw [intersects_iff, and_iff_right ⟨ha, hb⟩, ← hx, ← hy]
  exact ⟨fun h ↦ ⟨h.1, h.2⟩, fun h ↦ ⟨h.x, h.y⟩⟩

/-- A point lies in both boxes when it lies between the bounds of their overlap. -/
theorem mem_inter_region_iff (ha : a.isNull = false) (hao : a.InOrder) (hb : b.isNull = false)
    (hbo : b.InOrder) :
    (x, y) ∈ a.region ∩ b.region ↔
      ((overlap a b).minX ≤ x ∧ x ≤ (overlap a b).maxX) ∧
        (overlap a b).minY ≤ y ∧ y ≤ (overlap a b).maxY := by
  have hx : (overlap a b).minX ≤ x ∧ x ≤ (overlap a b).maxX ↔
      (a.minX ≤ x ∧ x ≤ a.maxX) ∧ b.minX ≤ x ∧ x ≤ b.maxX :=
    Ordinate.within_shared_iff hao.x hbo.x
  have hy : (overlap a b).minY ≤ y ∧ y ≤ (overlap a b).maxY ↔
      (a.minY ≤ y ∧ y ≤ a.maxY) ∧ b.minY ≤ y ∧ y ≤ b.maxY :=
    Ordinate.within_shared_iff hao.y hbo.y
  rw [Set.mem_inter_iff, mem_region_iff, mem_region_iff, ha, hb, hx, hy, eq_self, true_and,
    true_and]
  exact and_and_and_comm

/-- Where two boxes meet, the inner bounds are in order. -/
theorem inOrder_overlap (ha : a.WellFormed) (hb : b.WellFormed) (h : a.intersects b = true) :
    (overlap a b).bounds.InOrder := by
  obtain ⟨han, hbn⟩ := isNull_of_intersects h
  exact (intersects_iff_inOrder han (ha.inOrder han) hbn (hb.inOrder hbn)).mp h

/-- What two boxes that intersect have in common is what lies between the bounds of their
overlap. -/
theorem mem_inter_region_of_intersects (ha : a.WellFormed) (hb : b.WellFormed)
    (h : a.intersects b = true) :
    (x, y) ∈ a.region ∩ b.region ↔
      ((overlap a b).minX ≤ x ∧ x ≤ (overlap a b).maxX) ∧
        (overlap a b).minY ≤ y ∧ y ≤ (overlap a b).maxY := by
  obtain ⟨han, hbn⟩ := isNull_of_intersects h
  exact mem_inter_region_iff han (ha.inOrder han) hbn (hb.inOrder hbn)

/-- **Boxes intersect when they have a point in common.** -/
theorem intersects_iff_nonempty (ha : a.WellFormed) (hb : b.WellFormed) :
    a.intersects b = true ↔ (a.region ∩ b.region).Nonempty := by
  constructor
  · -- the lower corner of the overlap lies in both
    intro h
    have hover := inOrder_overlap ha hb h
    exact ⟨((overlap a b).minX, (overlap a b).minY), (mem_inter_region_of_intersects ha hb h).mpr
      ⟨⟨Ordinate.isNumber_left hover.x, hover.x⟩, Ordinate.isNumber_left hover.y, hover.y⟩⟩
  · rintro ⟨⟨x, y⟩, hp⟩
    have han := (mem_region_iff.mp hp.1).1
    have hbn := (mem_region_iff.mp hp.2).1
    have hao := ha.inOrder han
    have hbo := hb.inOrder hbn
    obtain ⟨⟨hx, hx'⟩, hy, hy'⟩ := (mem_inter_region_iff han hao hbn hbo).mp hp
    exact (intersects_iff_inOrder han hao hbn hbo).mpr
      ⟨Ordinate.le_trans hx hx', Ordinate.le_trans hy hy'⟩

/-! ### Inclusion -/

/-- What is covered is shared. -/
theorem intersects_of_covers (ha : a.WellFormed) (hb : b.WellFormed) (h : a.covers b = true) :
    a.intersects b = true := by
  obtain ⟨hne, hsubset⟩ := (covers_iff_subset hb).mp h
  rwa [intersects_iff_nonempty ha hb, Set.inter_eq_right.mpr hsubset]

/-- **Covering is inclusion and proper containment is strict inclusion,** point by point. -/
theorem covers_denotes_inclusion {a b : Bounds Float} (ha : a.WellFormed) (hb : b.WellFormed)
    (han : a.isNull = false) (hbn : b.isNull = false) :
    (a.covers b = true ↔ ∀ x y, b.coversPoint x y = true → a.coversPoint x y = true) ∧
      (a.containsProperly b = true ↔
        (∀ x y, b.coversPoint x y = true → a.coversPoint x y = true) ∧
          ∃ x y, a.coversPoint x y = true ∧ b.coversPoint x y = false) ∧
      (a.covers b = true ∧ b.covers a = true ↔ a.equals b = true) ∧
      (∀ c : Bounds Float, a.covers b = true → b.covers c = true → a.covers c = true) ∧
      (a.covers b = true → a.intersects b = true) ∧
      a.containsProperly a = false ∧
      (∀ c : Bounds Float, a.containsProperly b = true → b.containsProperly c = true →
        a.containsProperly c = true) ∧
      a.containsProperly b = (a.covers b && !b.covers a) ∧
      ∀ p q : Bounds Float, p.isNull = true ∨ q.isNull = true →
        p.covers q = false ∧ p.containsProperly q = false := by
  have hbne := (nonempty_region_iff hb).mpr hbn
  -- covering is read as the inclusion of regions, and covering properly as the strict one
  have hcovers : a.covers b = true ↔ b.region ⊆ a.region := by
    rw [covers_iff_subset hb, and_iff_right hbne]
  have hproper : a.containsProperly b = true ↔ b.region ⊂ a.region := by
    rw [containsProperly_iff_ssubset ha hb, and_iff_right hbne]
  refine ⟨hcovers.trans Prod.forall, ?_, (equals_iff_covers han hbn).symm,
    fun _ ↦ covers_trans, intersects_of_covers ha hb, containsProperly_self,
    fun _ ↦ containsProperly_trans, ?_, ?_⟩
  · rw [hproper, Set.ssubset_iff_exists]
    simp only [Set.subset_def, Prod.forall, Prod.exists, region, Set.mem_ofPred_eq,
      Bool.not_eq_true]
  · rw [Bool.eq_iff_iff, containsProperly_iff_not_covers, Bool.and_eq_true, Bool.not_eq_true',
      Bool.not_eq_true]
  · rintro p q (hp | hq)
    · exact ⟨covers_of_isNull_left hp, containsProperly_of_isNull_left hp⟩
    · exact ⟨covers_of_isNull_right hq, containsProperly_of_isNull_right hq⟩

/-- A box that reaches to infinity, one without extent on its edge, and the corner of both, where a
negative zero stands for a positive one. -/
theorem covers_denotes_inclusion_on_edge :
    ∃ a b c : Bounds Float,
      a = ⟨false, 0.0, Ordinate.infinity, -1.0, 1.0⟩ ∧ b = ⟨false, -0.0, 0.0, -1.0, 1.0⟩ ∧
        c = ⟨false, 0.0, -0.0, 1.0, 1.0⟩ ∧
        a.containsProperly b = true ∧ b.containsProperly c = true ∧
        a.containsProperly c = true ∧ b.covers a = false ∧
        ∀ x y, b.coversPoint x y = true → a.coversPoint x y = true := by
  have hab : (⟨false, 0.0, Ordinate.infinity, -1.0, 1.0⟩ : Bounds Float).containsProperly
      ⟨false, -0.0, 0.0, -1.0, 1.0⟩ = true := by
    decide
  have hbc : (⟨false, -0.0, 0.0, -1.0, 1.0⟩ : Bounds Float).containsProperly
      ⟨false, 0.0, -0.0, 1.0, 1.0⟩ = true := by
    decide
  obtain ⟨-, hpoints, -, -, -, -, htrans, hproper, -⟩ :=
    covers_denotes_inclusion (a := ⟨false, 0.0, Ordinate.infinity, -1.0, 1.0⟩)
      (b := ⟨false, -0.0, 0.0, -1.0, 1.0⟩) (Or.inr ⟨by decide, by decide⟩)
      (Or.inr ⟨by decide, by decide⟩) rfl rfl
  rw [hab, eq_comm, Bool.and_eq_true, Bool.not_eq_true'] at hproper
  exact ⟨_, _, _, rfl, rfl, rfl, hab, hbc, htrans _ hab hbc, hproper.2, (hpoints.mp hab).1⟩

end Geospatial.Bounds
