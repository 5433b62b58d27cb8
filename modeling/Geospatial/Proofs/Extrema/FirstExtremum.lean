import Geospatial.Proofs.Extrema.Refinement

/-!
# The first extremum wins

A scan makes four searches at once, one for each side of each axis, and all four are one search:
keep the value that stands furthest out, and let a later one take over only when it is strictly
beyond.
`Side` says what further out means, `Side.Leads` what a search has found among the values seen so
far, and `leads_extend` keeps it for one value more.

Two outcomes stay apart from the first value on. Where it is no number, nothing goes beyond it and
the search never moves. Where it is a number, values that are none never take over, so the search
compares numbers only and `Side.Leads` can speak of all of them.

**The answer leaves no choice.** `Side.FirstAt` describes the index that a search must give without
mentioning the search, and no two indices meet the description (`FirstAt.unique`).
-/

namespace Geospatial

open Ordinate (IsNumber)

/-! ### Sides -/

/-- The two ends of an axis. -/
inductive Side where
  | lower
  | upper

namespace Side

variable {α : Type} [Ordinate α] {side : Side} {a b c : α}

/-- The first value stands strictly further out. -/
def Beyond : Side → α → α → Prop
  | lower, a, b => a < b
  | upper, a, b => b < a

/-- The first value stands at least as far out. -/
def Reaches : Side → α → α → Prop
  | lower, a, b => a ≤ b
  | upper, a, b => b ≤ a

theorem reaches_self (ha : IsNumber a) : side.Reaches a a := by
  cases side <;> exact ha

/-! ### What a search must answer -/

/-- The value is found at the index and stands as far out as any number among the values. -/
structure Attains (side : Side) (values : List α) (v : Extreme α) : Prop where
  found : values[v.index]? = some v.value
  isNumber : IsNumber v.value
  reaches : ∀ w ∈ values, IsNumber w → side.Reaches v.value w

theorem Attains.lt {values : List α} {v : Extreme α} (h : side.Attains values v) :
    v.index < values.length :=
  (List.getElem?_eq_some_iff.mp h.found).1

/-- The least index at which the extreme value is attained, or the first index where the first value
is no number. -/
structure FirstAt (side : Side) (values : List α) (i : Nat) : Prop where
  lt : i < values.length
  of_not_isNumber : ∀ u, values[0]? = some u → ¬IsNumber u → i = 0
  of_isNumber : ∀ u, values[0]? = some u → IsNumber u →
    ∃ v, side.Attains values ⟨i, v⟩ ∧
      (∀ w ∈ values, ¬side.Beyond w v) ∧
      ∀ j < i, ∀ w, values[j]? = some w →
        ¬side.Attains values ⟨j, w⟩ ∧ (w == v) = false

/-- **There is only one first index.** -/
theorem FirstAt.unique {values : List α} {i j : Nat} (hi : side.FirstAt values i)
    (hj : side.FirstAt values j) : i = j := by
  obtain ⟨u, hu⟩ : ∃ u, values[0]? = some u :=
    ⟨_, List.getElem?_eq_getElem (Nat.zero_lt_of_lt hi.lt)⟩
  by_cases hnumber : IsNumber u
  · obtain ⟨v, hv, -, hbefore⟩ := hi.of_isNumber u hu hnumber
    obtain ⟨w, hw, -, hbefore'⟩ := hj.of_isNumber u hu hnumber
    rcases Nat.lt_trichotomy i j with hlt | heq | hgt
    · exact absurd hv (hbefore' i hlt v hv.found).1
    · exact heq
    · exact absurd hw (hbefore j hgt w hw.found).1
  · rw [hi.of_not_isNumber u hu hnumber, hj.of_not_isNumber u hu hnumber]

/-! ### One search -/

/-- What a search has found among the values seen so far. -/
inductive Leads (side : Side) : List α → Extreme α → Prop
  | undefined {u : α} {rest : List α} (hu : ¬IsNumber u) : Leads side (u :: rest) ⟨0, u⟩
  | number {values : List α} {v : Extreme α} (hfirst : ∀ u, values[0]? = some u → IsNumber u)
      (hattains : side.Attains values v)
      (hbefore : ∀ j < v.index, ∀ w, values[j]? = some w → IsNumber w → side.Beyond v.value w) :
      Leads side values v

/-- A first value leads itself, number or not. -/
theorem leads_singleton (u : α) : side.Leads [u] ⟨0, u⟩ := by
  by_cases hu : IsNumber u
  · refine .number ?_ ⟨rfl, hu, ?_⟩ nofun
    · rintro _ ⟨⟩
      exact hu
    · intro w hw _
      rw [List.mem_singleton.mp hw]
      exact reaches_self hu
  · exact .undefined hu

/-- Where the first value is no number, the extreme value is none. -/
theorem Leads.not_isNumber {values : List α} {v : Extreme α} (h : side.Leads values v) {u : α}
    (hu : values[0]? = some u) (hnot : ¬IsNumber u) : ¬IsNumber v.value := by
  cases h with
  | undefined h => exact h
  | number hfirst => exact absurd (hfirst u hu) hnot

/-- Where the first value is a number, the extreme value is attained. -/
theorem Leads.attains {values : List α} {v : Extreme α} (h : side.Leads values v) {u : α}
    (hu : values[0]? = some u) (hnumber : IsNumber u) : side.Attains values v := by
  cases h with
  | undefined hnot =>
    obtain rfl := Option.some.inj hu
    exact absurd hnumber hnot
  | number _ hattains => exact hattains

variable [LawfulOrdinate α]

theorem Beyond.reaches (h : side.Beyond a b) : side.Reaches a b := by
  cases side <;> exact Ordinate.le_of_lt h

theorem Reaches.trans (hab : side.Reaches a b) (hbc : side.Reaches b c) : side.Reaches a c := by
  cases side
  · exact Ordinate.le_trans hab hbc
  · exact Ordinate.le_trans hbc hab

theorem Reaches.not_beyond (h : side.Reaches a b) : ¬side.Beyond b a := by
  cases side <;> exact Ordinate.not_lt_of_le h

theorem Reaches.isNumber (h : side.Reaches a b) : IsNumber a ∧ IsNumber b := by
  cases side
  · exact ⟨Ordinate.isNumber_left h, Ordinate.isNumber_right h⟩
  · exact ⟨Ordinate.isNumber_right h, Ordinate.isNumber_left h⟩

/-- Between numbers nothing is left open. -/
theorem not_beyond_iff (ha : IsNumber a) (hb : IsNumber b) :
    ¬side.Beyond b a ↔ side.Reaches a b := by
  cases side
  · exact Ordinate.not_lt_iff_le hb ha
  · exact Ordinate.not_lt_iff_le ha hb

/-- What is beyond a value is beyond all that this reaches. -/
theorem Beyond.trans_reaches (hab : side.Beyond a b) (hbc : side.Reaches b c) :
    side.Beyond a c := by
  by_contra h
  have hca := (not_beyond_iff hbc.isNumber.2 hab.reaches.isNumber.1).mp h
  exact (hbc.trans hca).not_beyond hab

/-- What is equal is not beyond, so the two zeros tie. -/
theorem Beyond.beq_eq_false (h : side.Beyond a b) : (b == a) = false := by
  rw [← Bool.not_eq_true, LawfulOrdinate.beq_iff_le_ge]
  rintro ⟨hba, hab⟩
  cases side
  · exact Ordinate.not_lt_of_le hba h
  · exact Ordinate.not_lt_of_le hab h

/-- A value that is beyond becomes the extreme one. -/
theorem Attains.replace {values : List α} {v : Extreme α} {x : α} (h : side.Attains values v)
    (hx : side.Beyond x v.value) : side.Attains (values ++ [x]) ⟨values.length, x⟩ := by
  refine ⟨List.getElem?_concat_length, hx.reaches.isNumber.1, fun w hw hnumber ↦ ?_⟩
  rcases List.mem_append.mp hw with hw | hw
  · exact hx.reaches.trans (h.reaches w hw hnumber)
  · rw [List.mem_singleton.mp hw]
    exact reaches_self hx.reaches.isNumber.1

/-- Any other value leaves the extreme one in place. -/
theorem Attains.keep {values : List α} {v : Extreme α} {x : α} (h : side.Attains values v)
    (hx : ¬side.Beyond x v.value) : side.Attains (values ++ [x]) v := by
  refine ⟨?_, h.isNumber, fun w hw hnumber ↦ ?_⟩
  · rw [List.getElem?_append_left h.lt, h.found]
  · rcases List.mem_append.mp hw with hw | hw
    · exact h.reaches w hw hnumber
    · rw [List.mem_singleton.mp hw] at hnumber ⊢
      exact (not_beyond_iff h.isNumber hnumber).mp hx

/-- **A later value takes over exactly when it is beyond.** -/
theorem leads_extend {values : List α} {v : Extreme α} (h : side.Leads values v) (x : α) {c : Prop}
    [Decidable c] (hc : c ↔ side.Beyond x v.value) :
    side.Leads (values ++ [x]) (if c then ⟨values.length, x⟩ else v) := by
  cases h with
  | undefined hu =>
    -- an undefined start is never passed, whatever comes later
    rw [if_neg fun hif ↦ hu (hc.mp hif).reaches.isNumber.2]
    exact .undefined hu
  | number hfirst hattains hbefore =>
    have hlt := hattains.lt
    have hfirst' : ∀ u, (values ++ [x])[0]? = some u → IsNumber u := by
      rwa [List.getElem?_append_left (by omega)]
    split
    -- the new value is beyond all before it, or the old one stays ahead
    next hif =>
      have hx := hc.mp hif
      refine .number hfirst' (hattains.replace hx) fun j hj w hw hnumber ↦ ?_
      rw [List.getElem?_append_left hj] at hw
      exact hx.trans_reaches (hattains.reaches w (List.mem_of_getElem? hw) hnumber)
    next hif =>
      refine .number hfirst' (hattains.keep fun hx ↦ hif (hc.mpr hx)) fun j hj w hw hnumber ↦ ?_
      rw [List.getElem?_append_left (hj.trans hlt)] at hw
      exact hbefore j hj w hw hnumber

/-- What leads was found at the first index. -/
theorem Leads.firstAt {values : List α} {v : Extreme α} (h : side.Leads values v) :
    side.FirstAt values v.index := by
  cases h with
  | undefined hu =>
    refine ⟨Nat.zero_lt_succ _, fun _ _ _ ↦ rfl, ?_⟩
    rintro _ ⟨⟩ hnumber
    exact absurd hnumber hu
  | number hfirst hattains hbefore =>
    refine ⟨hattains.lt, fun u hu hnumber ↦ absurd (hfirst u hu) hnumber,
      fun _ _ _ ↦ ⟨v.value, hattains, ?_, ?_⟩⟩
    · intro w hw hbeyond
      exact (hattains.reaches w hw hbeyond.reaches.isNumber.1).not_beyond hbeyond
    -- earlier values are strictly within, so that none of them is equal either
    · intro j hj w hw
      constructor
      · intro hequal
        exact (hequal.reaches _ (List.mem_of_getElem? hattains.found) hattains.isNumber).not_beyond
          (hbefore j hj w hw hequal.isNumber)
      · by_cases hnumber : IsNumber w
        · exact (hbefore j hj w hw hnumber).beq_eq_false
        · rw [← Bool.not_eq_true, LawfulOrdinate.beq_iff_le_ge]
          exact fun hequal ↦ hnumber (Ordinate.isNumber_left hequal.1)

end Side

/-! ### Four searches at once -/

/-- Each of the four searches has found what it must among the points seen so far. -/
structure Extremes.Lead {α : Type} [Ordinate α] (s : Extremes α) (points : List (α × α)) :
    Prop where
  minX : Side.lower.Leads (points.map Prod.fst) s.minX
  minY : Side.lower.Leads (points.map Prod.snd) s.minY
  maxX : Side.upper.Leads (points.map Prod.fst) s.maxX
  maxY : Side.upper.Leads (points.map Prod.snd) s.maxY

/-- Each of the four indices is the first one at which its bound is attained. -/
structure Extrema.First {α : Type} [Ordinate α] (ix : Extrema) (points : List (α × α)) :
    Prop where
  minX : Side.lower.FirstAt (points.map Prod.fst) ix.minX
  minY : Side.lower.FirstAt (points.map Prod.snd) ix.minY
  maxX : Side.upper.FirstAt (points.map Prod.fst) ix.maxX
  maxY : Side.upper.FirstAt (points.map Prod.snd) ix.maxY

/-- All four indices are below a size. -/
structure Extrema.Below (ix : Extrema) (n : Nat) : Prop where
  minX : ix.minX < n
  minY : ix.minY < n
  maxX : ix.maxX < n
  maxY : ix.maxY < n

section

variable {α : Type} [Ordinate α] {s : Extremes α} {points : List (α × α)}

/-- First indices are indices of points. -/
theorem Extrema.First.below {ix : Extrema} (h : ix.First points) : ix.Below points.length where
  minX := by simpa using h.minX.lt
  minY := by simpa using h.minY.lt
  maxX := by simpa using h.maxX.lt
  maxY := by simpa using h.maxY.lt

/-- The scan begins with a point that leads on all four sides. -/
theorem Extremes.lead_ofPoint (p : α × α) : (ofPoint 0 p).Lead [p] :=
  ⟨Side.leads_singleton _, Side.leads_singleton _, Side.leads_singleton _,
    Side.leads_singleton _⟩

variable [LawfulOrdinate α]

/-- One more point, by one search on each side. -/
theorem Extremes.lead_extend (h : s.Lead points) (p : α × α) :
    (s.extend points.length p).Lead (points ++ [p]) := by
  have hx : points.length = (points.map Prod.fst).length := (List.length_map ..).symm
  have hy : points.length = (points.map Prod.snd).length := (List.length_map ..).symm
  constructor
  · rw [extend, List.map_append, hx]
    exact Side.leads_extend h.minX p.1 Iff.rfl
  · rw [extend, List.map_append, hy]
    exact Side.leads_extend h.minY p.2 Iff.rfl
  · rw [extend, List.map_append, hx]
    exact Side.leads_extend h.maxX p.1 Iff.rfl
  · rw [extend, List.map_append, hy]
    exact Side.leads_extend h.maxY p.2 Iff.rfl

/-- A list of points, by the induction that every scan shares. -/
theorem Extremes.lead_scan (p : α × α) (rest : List (α × α)) :
    ((ofPoint 0 p).extendFrom 1 rest).Lead (p :: rest) :=
  extendFrom_of_extend Lead (fun _ _ q h ↦ lead_extend h q) (lead_ofPoint p) rest

/-- A scan of points finds the first extremum on every side, and nothing else would be one. -/
theorem Extrema.exists_scan_first (hne : points ≠ []) :
    ∃ ix, scan points = some ix ∧ ix.First points ∧
      ∀ ix' : Extrema, ix'.First points → ix' = ix := by
  obtain ⟨p, rest, rfl⟩ := List.exists_cons_of_ne_nil hne
  have hlead := Extremes.lead_scan p rest
  have hfirst : ((Extremes.ofPoint 0 p).extendFrom 1 rest).indices.First (p :: rest) :=
    ⟨hlead.minX.firstAt, hlead.minY.firstAt, hlead.maxX.firstAt, hlead.maxY.firstAt⟩
  refine ⟨_, rfl, hfirst, ?_⟩
  rintro ⟨minX, minY, maxX, maxY⟩ h
  rw [Extrema.mk.injEq]
  exact ⟨h.minX.unique hfirst.minX, h.minY.unique hfirst.minY, h.maxX.unique hfirst.maxX,
    h.maxY.unique hfirst.maxY⟩

end

namespace IndexedBox

/-- Where all points can be read and there are some, the indices exist, are in range and are the
only first ones. -/
theorem exists_first_of_points {s : Sequence Float} {l : List (Float × Float)}
    (hl : s.points = .ok l) (hne : s.size ≠ 0) :
    ∃ ix : Extrema, ofSequence s = .ok ⟨s, some ix⟩ ∧ ix.Below s.size ∧ ix.First l ∧
      ∀ ix' : Extrema, ix'.First l → ix' = ix := by
  have hsize : l.length = s.size := (Sequence.points_eq_ok_iff.mp hl).1
  have hcons : l ≠ [] := fun h ↦ hne (by rw [← hsize, h, List.length_nil])
  obtain ⟨ix, hscan, hfirst, hunique⟩ := Extrema.exists_scan_first hcons
  refine ⟨ix, ?_, hsize ▸ hfirst.below, hfirst, hunique⟩
  rw [ofSequence_of_points hl, hscan]

/-- **A scan finds the first extremum on every side of every axis,** whatever the sequence that is
read, and a packed one among them. -/
theorem ofSequence_first_extrema :
    (∀ s : Sequence Float, s.Readable → s.size ≠ 0 →
      ∃ (l : List (Float × Float)) (ix : Extrema), s.points = .ok l ∧
        ofSequence s = .ok ⟨s, some ix⟩ ∧ ix.Below s.size ∧ ix.First l ∧
        ∀ ix' : Extrema, ix'.First l → ix' = ix) ∧
    ∀ (σ : Type) [Storage σ] (b : PackedSequence σ), b.length ≠ 0 →
      ∃ ix : Extrema, ofSequence b.toSequence = .ok ⟨b.toSequence, some ix⟩ ∧
        ix.Below b.length ∧ ix.First b.points ∧
        ∀ ix' : Extrema, ix'.First b.points → ix' = ix := by
  constructor
  · intro s hs hne
    obtain ⟨l, hl⟩ := Sequence.exists_points hs
    exact ⟨l, (exists_first_of_points hl hne).imp fun ix h ↦ ⟨hl, h⟩⟩
  · intro σ _ b hne
    exact exists_first_of_points b.points_toSequence hne

/-- A negative zero ties with the positive one before it, a later undefined x changes nothing, and
an undefined first y stays in place. -/
theorem ofSequence_first_extrema_zeros_tie :
    ∃ s : Sequence Float, s.Readable ∧ s.size = 5 ∧
      ∃ (l : List (Float × Float)) (ix : Extrema), s.points = .ok l ∧
        ofSequence s = .ok ⟨s, some ix⟩ ∧ ix = ⟨0, 0, 3, 0⟩ ∧ ix.First l := by
  let s : Sequence Float := .ofCoordinates .xy
    [{ x := 0.0, y := Ordinate.undefined }, { x := -0.0, y := 1.0 },
      { x := Ordinate.undefined, y := -1.0 }, { x := 3.0, y := 2.0 }, { x := 3.0, y := 0.0 }]
  have hs : s.Readable := Sequence.readable_ofCoordinates .xy _
  obtain ⟨l, ix, hl, hscan, -, hfirst, -⟩ := ofSequence_first_extrema.1 s hs (by decide)
  have hvalue : ofSequence s = .ok ⟨s, some ⟨0, 0, 3, 0⟩⟩ := by
    rfl
  have hix := (IndexedBox.mk.inj (Except.ok.inj (hscan.symm.trans hvalue))).2
  exact ⟨s, hs, rfl, l, ix, hl, hscan, Option.some.inj hix, hfirst⟩

end IndexedBox

end Geospatial
