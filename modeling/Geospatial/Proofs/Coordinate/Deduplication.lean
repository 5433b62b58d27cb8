import Geospatial.Proofs.Binary.Words
import Geospatial.Proofs.Coordinate.Plane

/-!
# Sets of coordinates

A set of coordinates contains what is equal on the plane to something that was inserted
(`CoordinateSet.Collects`). Each insertion keeps that (`Collects.insert`), and by induction along a
list of insertions every one of them reports what the coordinates before it say
(`Collects.getElem?_insertEach`).

**Equality alone decides.** Equal coordinates have the same digest, so a set that looks at the
digest first, or at any hash of it, finds the same members (`contains_eq_any_hash`).

**An undefined coordinate is new every time.** It does not equal itself, so each of its insertions
adds one more member, and none of them is ever found.
-/

namespace Geospatial

/-! ### The digest of a coordinate -/

namespace Coordinate

variable {a b : Coordinate Float}

/-- A digest tells the words of x and y and nothing else. -/
theorem digest_eq_iff : a.digest = b.digest ↔
    Word.ofFloat a.x = Word.ofFloat b.x ∧ Word.ofFloat a.y = Word.ofFloat b.y := by
  simp only [digest, List.cons.injEq, and_true]

/-- Equal coordinates have the same digest, whatever their heights and measures. -/
theorem digest_eq_of_beq (h : (a == b) = true) : a.digest = b.digest :=
  digest_eq_iff.mpr
    ⟨Word.ofFloat_eq_of_beq (beq_iff.mp h).1, Word.ofFloat_eq_of_beq (beq_iff.mp h).2⟩

/-- It is enough that one of the coordinates has numbers. -/
theorem beq_of_digest_eq (ha : a.Numeric) (h : a.digest = b.digest) : (a == b) = true := by
  obtain ⟨hx, hy⟩ := digest_eq_iff.mp h
  exact beq_iff.mpr ⟨(Word.ofFloat_eq_iff ha.1).mp hx, (Word.ofFloat_eq_iff ha.2).mp hy⟩

end Coordinate

namespace CoordinateSet

variable {s : CoordinateSet} {seen : List (Coordinate Float)} {c : Coordinate Float}

/-! ### Membership -/

/-- **Which hash is taken of the digests does not matter.** -/
theorem contains_eq_any_hash {β : Type} [BEq β] [LawfulBEq β] (hash : List Word → β)
    (s : CoordinateSet) (c : Coordinate Float) :
    s.contains c = s.members.any fun d ↦ hash d.digest == hash c.digest && d == c := by
  rw [contains]
  congr 1
  funext d
  cases hdc : d == c with
  | false => rw [Bool.and_false, Bool.and_false]
  | true => rw [Coordinate.digest_eq_of_beq hdc, BEq.rfl, BEq.rfl]

/-- Looking among the members with the same digest finds what looking among all would. -/
theorem contains_eq_any (s : CoordinateSet) (c : Coordinate Float) :
    s.contains c = s.members.any (· == c) := by
  rw [contains_eq_any_hash fun _ ↦ ()]
  rfl

/-- The set contains what is equal to a coordinate of the list. -/
def Collects (s : CoordinateSet) (seen : List (Coordinate Float)) : Prop :=
  ∀ c, s.contains c = seen.any (· == c)

theorem collects_empty : empty.Collects [] :=
  fun _ ↦ rfl

/-- What equals a coordinate equals all that the coordinate equals. -/
theorem any_beq_of_beq {d : Coordinate Float} (hcd : (c == d) = true)
    (h : seen.any (· == c) = true) : seen.any (· == d) = true := by
  rw [List.any_eq_true] at h ⊢
  obtain ⟨b, hb, hbc⟩ := h
  exact ⟨b, hb, Coordinate.beq_trans hbc hcd⟩

theorem any_beq_concat (seen : List (Coordinate Float)) (c d : Coordinate Float) :
    (seen ++ [c]).any (· == d) = (seen.any (· == d) || c == d) := by
  rw [List.any_append, List.any_cons, List.any_nil, Bool.or_false]

/-- A coordinate equals one of a list that ends in it if it equals itself. -/
theorem any_beq_concat_self (seen : List (Coordinate Float)) (c : Coordinate Float) :
    (seen ++ [c]).any (· == c) = (c == c) := by
  rw [any_beq_concat, Bool.or_eq_right_iff_imp]
  intro h
  obtain ⟨b, -, hbc⟩ := List.any_eq_true.mp h
  exact Coordinate.beq_self_of_beq hbc

/-- **One more insertion collects one more coordinate,** whether or not it goes into the set. -/
theorem Collects.insert (h : s.Collects seen) (c : Coordinate Float) :
    (s.insert c).2.Collects (seen ++ [c]) := by
  intro d
  rw [any_beq_concat, contains_eq_any, members_insert]
  split
  next hc =>
    -- what equals the coordinate equals the member that kept it out
    rw [← contains_eq_any, h d, eq_comm, Bool.or_eq_left_iff_imp]
    exact fun hcd ↦ any_beq_of_beq hcd (h c ▸ hc)
  next hc => rw [any_beq_concat, ← contains_eq_any, h d]

/-! ### A run of insertions -/

theorem insertEach_cons (s : CoordinateSet) (c : Coordinate Float)
    (rest : List (Coordinate Float)) :
    s.insertEach (c :: rest) =
      (⟨(s.insert c).1, (s.insert c).2.contains c⟩ :: ((s.insert c).2.insertEach rest).1,
        ((s.insert c).2.insertEach rest).2) :=
  rfl

theorem length_insertEach (s : CoordinateSet) (cs : List (Coordinate Float)) :
    (s.insertEach cs).1.length = cs.length := by
  induction cs generalizing s with
  | nil => rfl
  | cons c rest ih => rw [insertEach_cons, List.length_cons, ih, List.length_cons]

/-- **Every insertion of a run reports what the coordinates before it say.** -/
theorem Collects.getElem?_insertEach (h : s.Collects seen) {cs : List (Coordinate Float)} {i : Nat}
    (hi : i < cs.length) :
    (s.insertEach cs).1[i]? = some ⟨!(seen ++ cs.take i).any (· == cs[i]), cs[i] == cs[i]⟩ := by
  -- by induction on the run; what was collected grows by the coordinate at its head
  induction cs generalizing s seen i with
  | nil => exact absurd hi (Nat.not_lt_zero i)
  | cons c rest ih =>
    rw [insertEach_cons]
    cases i with
    | zero =>
      have hfound : (s.insert c).2.contains c = (c == c) :=
        (h.insert c c).trans (any_beq_concat_self seen c)
      rw [List.getElem?_cons_zero, insert_fst, h c, hfound, List.take_zero, List.append_nil,
        List.getElem_cons_zero]
    | succ i =>
      rw [List.getElem?_cons_succ, ih (h.insert c) (Nat.lt_of_succ_lt_succ hi), List.take_succ_cons,
        List.append_assoc, List.singleton_append, List.getElem_cons_succ]

/-- The set grows by one for each coordinate that was new. -/
theorem size_insertEach (s : CoordinateSet) (cs : List (Coordinate Float)) :
    (s.insertEach cs).2.size = s.size + (s.insertEach cs).1.countP (·.isNew) := by
  induction cs generalizing s with
  | nil => rfl
  | cons c rest ih =>
    rw [insertEach_cons, ih, size_insert, List.countP_cons, Nat.add_right_comm, Nat.add_assoc]

/-! ### Coherence -/

/-- **Equality, digest and order of coordinates agree, so a set tells them apart by their place.**
Equal coordinates have the same digest, and numbers with the same digest are equal; the order ties
where coordinates are equal, turns round with them, is transitive and leaves only undefined values
out; none of it looks at a height or a measure. Of coordinates inserted one after the other, one is
new if nothing before it equals it, is found right after if it is defined, and is counted if it was
new. -/
theorem deduplicates_by_place :
    (∀ a b : Coordinate Float, (a == b) = true → a.digest = b.digest) ∧
    (∀ a b : Coordinate Float, a.Numeric → a.digest = b.digest → (a == b) = true) ∧
    (∀ a b : Coordinate Float, a.comparePlane? b = some .eq ↔ (a == b) = true) ∧
    (∀ a b : Coordinate Float, b.comparePlane? a = (a.comparePlane? b).map .swap) ∧
    (∀ a b c : Coordinate Float, a.precedes b = true → b.precedes c = true →
      a.precedes c = true) ∧
    (∀ a b : Coordinate Float, a.comparePlane? b = none → ¬(a.Numeric ∧ b.Numeric)) ∧
    (∀ (a b : Coordinate Float) (z m z' m' : Option Float),
      let a' := { a with z := z, m := m }
      let b' := { b with z := z', m := m' }
      (a' == b') = (a == b) ∧ a'.comparePlane? b' = a.comparePlane? b ∧
        a'.precedes b' = a.precedes b ∧ a'.digest = a.digest) ∧
    (∀ (hash : List Word → UInt64) (s : CoordinateSet) (c : Coordinate Float),
      s.contains c = s.members.any fun d ↦ hash d.digest == hash c.digest && d == c) ∧
    ∀ cs : List (Coordinate Float),
      (empty.insertEach cs).1.length = cs.length ∧
      (empty.insertEach cs).2.size = (empty.insertEach cs).1.countP (·.isNew) ∧
      ∀ (i : Nat) (hi : i < cs.length), ∃ report, (empty.insertEach cs).1[i]? = some report ∧
        (report.isNew = true ↔ ∀ d ∈ cs.take i, (d == cs[i]) = false) ∧
        (report.isFound = true ↔ cs[i].Numeric) := by
  refine ⟨fun _ _ ↦ Coordinate.digest_eq_of_beq, fun _ _ ↦ Coordinate.beq_of_digest_eq,
    fun _ _ ↦ Coordinate.comparePlane?_eq_eq_iff, Coordinate.comparePlane?_swap,
    fun _ _ _ ↦ Coordinate.precedes_trans,
    fun _ _ ↦ Coordinate.not_numeric_of_comparePlane?_eq_none,
    fun _ _ _ _ _ _ ↦ ⟨rfl, rfl, rfl, rfl⟩, contains_eq_any_hash, fun cs ↦ ?_⟩
  refine ⟨length_insertEach empty cs, ?_, fun i hi ↦ ?_⟩
  · rw [size_insertEach]
    exact Nat.zero_add _
  · refine ⟨_, collects_empty.getElem?_insertEach hi, ?_, Coordinate.beq_self_iff⟩
    rw [List.nil_append, Bool.not_eq_true', List.any_eq_false]
    exact forall₂_congr fun _ _ ↦ Bool.not_eq_true _ ▸ Iff.rfl

/-- A place inserted again with a negative zero and a height is not new; an undefined one is new
both times and never found. -/
theorem deduplicates_by_place_undefined_twice :
    let place : Coordinate Float := { x := 0.0, y := 1.0 }
    let raised : Coordinate Float := { x := -0.0, y := 1.0, z := some 5.0 }
    let undefined : Coordinate Float := { x := Ordinate.undefined, y := 2.0 }
    let run := empty.insertEach [place, undefined, raised, undefined]
    run.2.size = 3 ∧ place.digest = raised.digest ∧
      (∃ report, run.1[2]? = some report ∧ report.isNew = false ∧ report.isFound = true) ∧
      ∃ report, run.1[3]? = some report ∧ report.isNew = true ∧ report.isFound = false := by
  intro place raised undefined run
  obtain ⟨hdigest, -, -, -, -, -, -, -, hset⟩ := deduplicates_by_place
  obtain ⟨-, hsize, hreports⟩ := hset [place, undefined, raised, undefined]
  obtain ⟨third, hthird, hnew, hfound⟩ := hreports 2 (by decide)
  obtain ⟨fourth, hfourth, hnew', hfound'⟩ := hreports 3 (by decide)
  refine ⟨hsize.trans (by decide), hdigest _ _ (by decide),
    ⟨third, hthird, ?_, hfound.mpr (by decide)⟩, fourth, hfourth, hnew'.mpr (by decide), ?_⟩
  · exact Bool.eq_false_iff.mpr fun h ↦ absurd (hnew.mp h) (by decide)
  · exact Bool.eq_false_iff.mpr fun h ↦ absurd (hfound'.mp h) (by decide)

end CoordinateSet

end Geospatial
