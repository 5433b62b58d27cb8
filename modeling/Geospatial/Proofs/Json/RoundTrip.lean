import Geospatial.Json.Codec
import Geospatial.Proofs.Decimal.ReadBack

/-!
# Values and their forms in JSON

What is read from the form of a value, when the members of its object have been put in any order and
others have been put among them (`Rearranged`).

**Members are found by their names.** The fields of a record have distinct names, so under each of
them a rearranged object has what the form has, a value or nothing (`fields?_of_rearranged`).

**Numbers are read back** where they are finite, and where they are not there is no number to read.
So a record is read back exactly when the floats that it must have are finite, and a height or a
measure that is not finite is lost (`RoundTrips`, `Coordinate.finitePart`).
-/

namespace Geospatial

/-- The coordinate without a height or a measure that is not finite. -/
def Coordinate.finitePart (c : Coordinate Float) : Coordinate Float :=
  { c with z := c.z.filter Float.isFinite, m := c.m.filter Float.isFinite }

namespace Json

open Decimal

/-- The value with the members of its object in any order, among others whose names are none of the
given ones. -/
inductive Rearranged (names : List String) : Json → Json → Prop
  | same (v : Json) : Rearranged names v v
  | object {members others arranged : List (Option String × Json)}
      (perm : arranged.Perm (members ++ others))
      (unknown : ∀ member ∈ others, ∃ name ∉ names, member.1 = some name) :
      Rearranged names (.object members) (.object arranged)

/-- Whichever way its form is rearranged, a value is read from it exactly when it can be told, and
then the kept part of it is what is read. -/
def RoundTrips {β : Type} (names : List String) (encode : β → Json) (decode? : Json → Option β)
    (told : β → Prop) (kept : β → β) : Prop :=
  ∀ b v, Rearranged names (encode b) v →
    ((∃ b', decode? v = some b') ↔ told b) ∧ ∀ b', decode? v = some b' → b' = kept b

/-! ### Members and their names -/

section

variable {names : List String} {name : String} {members others : List (Option String × Json)}
  {ms : List (String × Json)} {v : Json}

/-- Where every element has an answer, so has the list. -/
theorem mapM_eq_some_map {α β : Type} {f : α → Option β} {g : α → β} {l : List α}
    (h : ∀ a ∈ l, f a = some (g a)) : l.mapM f = some (l.map g) := by
  induction l with
  | nil => rfl
  | cons a l ih =>
    rw [List.mapM_cons, h a List.mem_cons_self, ih fun b hb ↦ h b (List.mem_cons_of_mem a hb)]
    rfl

theorem under_append (members others : List (Option String × Json)) (name : String) :
    under (members ++ others) name = under members name ++ under others name := by
  rw [under, List.filter_append, List.map_append]
  rfl

/-- In which order members come does not matter to what is found under a name. -/
theorem under_perm (h : members.Perm others) (name : String) :
    (under members name).Perm (under others name) :=
  (h.filter _).map _

/-- A name that no member has finds none. -/
theorem under_eq_nil (h : ∀ member ∈ members, member.1 ≠ some name) : under members name = [] := by
  rw [under, List.map_eq_nil_iff, List.filter_eq_nil_iff]
  intro member hmember
  rw [beq_iff_eq]
  exact h member hmember

/-- Where names are distinct, what is found under one of them is what is looked up. -/
theorem under_ofMembers (hdistinct : (ms.map (·.1)).Nodup) (name : String) :
    under (ms.map fun member ↦ (some member.1, member.2)) name = (ms.lookup name).toList := by
  induction ms with
  | nil => rfl
  | cons member ms ih =>
    obtain ⟨own, v⟩ := member
    obtain ⟨hfresh, hdistinct⟩ := List.nodup_cons.mp hdistinct
    rw [List.map_cons, ← List.singleton_append, under_append, ih hdistinct]
    by_cases hname : name = own
    -- the names are distinct, so that nothing else is under this one
    · have hnone : ms.lookup own = none := by
        rw [List.lookup_eq_none_iff]
        intro member hmember
        exact bne_iff_ne.mpr fun heq ↦ hfresh (List.mem_map.mpr ⟨member, hmember, heq.symm⟩)
      rw [hname, hnone, List.lookup_cons_self]
      simp [under]
    · have hskip : ((own, v) :: ms).lookup name = ms.lookup name := by
        rw [List.lookup_cons, beq_eq_false_iff_ne.mpr hname]
      rw [hskip, under_eq_nil, List.nil_append]
      simpa using Ne.symm hname

/-- In a rearranged form every field is found as it is in the form. -/
theorem under_arranged {arranged : List (Option String × Json)}
    (hdistinct : (ms.map (·.1)).Nodup)
    (hperm : arranged.Perm ((ms.map fun member ↦ (some member.1, member.2)) ++ others))
    (hunknown : ∀ member ∈ others, ∃ name ∉ names, member.1 = some name) (hname : name ∈ names) :
    under arranged name = (ms.lookup name).toList := by
  -- the other members have names of their own
  have hothers : under others name = [] := by
    refine under_eq_nil fun member hmember heq ↦ ?_
    obtain ⟨other, hother, hsome⟩ := hunknown member hmember
    exact hother (Option.some.inj (hsome.symm.trans heq) ▸ hname)
  have hsame := under_perm hperm name
  rw [under_append, hothers, List.append_nil, under_ofMembers hdistinct] at hsame
  cases hlookup : ms.lookup name with
  | none =>
    rw [hlookup] at hsame
    exact hsame.eq_nil
  | some v =>
    rw [hlookup] at hsame
    exact hsame.eq_singleton

/-- **The fields of a rearranged object are those of the form.** -/
theorem fields?_of_rearranged (hdistinct : (ms.map (·.1)).Nodup)
    (h : Rearranged names (ofMembers ms) v) :
    v.fields? names = some (names.map fun name ↦ ms.lookup name) := by
  -- the same object is one whose members were not moved, with nothing added
  obtain ⟨others, arranged, rfl, hperm, hunknown⟩ : ∃ others arranged, v = .object arranged ∧
      arranged.Perm ((ms.map fun member ↦ (some member.1, member.2)) ++ others) ∧
      ∀ member ∈ others, ∃ name ∉ names, member.1 = some name := by
    unfold ofMembers at h
    cases h with
    | same => exact ⟨[], _, rfl, by rw [List.append_nil], by simp⟩
    | object hperm hunknown => exact ⟨_, _, rfl, hperm, hunknown⟩
  have hnamed : (arranged.all fun member ↦ member.1.isSome) = true := by
    rw [List.all_eq_true]
    intro member hmember
    rcases List.mem_append.mp (hperm.mem_iff.mp hmember) with hown | hother
    · obtain ⟨own, -, rfl⟩ := List.mem_map.mp hown
      rfl
    · obtain ⟨name, -, hname⟩ := hunknown member hother
      rw [hname]
      rfl
  rw [fields?, if_pos hnamed]
  refine mapM_eq_some_map fun name hname ↦ ?_
  rw [under_arranged hdistinct hperm hunknown hname]
  cases ms.lookup name <;> rfl

end

/-! ### Floats -/

/-- A finite double is written as a numeral that reads back as it. -/
theorem ofFloat_of_isFinite {x : Float} (h : x.isFinite = true) :
    ∃ n, ofFloat x = .number n ∧ n.toFloat = x := by
  obtain ⟨n, hn⟩ := SignedNumeral.exists_ofFloat?_iff.mpr h
  exact ⟨n, by rw [ofFloat, hn], SignedNumeral.toFloat_of_ofFloat? hn⟩

theorem ofFloat_of_not_isFinite {x : Float} (h : ¬x.isFinite = true) : ofFloat x = .null := by
  unfold ofFloat
  split
  next n hn => exact absurd (SignedNumeral.exists_ofFloat?_iff.mp ⟨n, hn⟩) h
  next => rfl

/-- **A float is read back if it is finite;** otherwise there is no number to read. -/
theorem float?_ofFloat (x : Float) : (ofFloat x).float? = if x.isFinite then some x else none := by
  split
  next h =>
    obtain ⟨n, hform, hn⟩ := ofFloat_of_isFinite h
    rw [hform, float?, hn]
    simp only [Binary.isInf_of_isFinite h, Bool.false_eq_true, if_false]
  next h =>
    rw [ofFloat_of_not_isFinite h]
    rfl

/-- A field is read back and passed on where it is finite, and refused otherwise. -/
theorem bind_float?_ofFloat {β : Type} (x : Float) (f : Float → Option β) :
    (ofFloat x).float?.bind f = if x.isFinite then f x else none := by
  rw [float?_ofFloat]
  split <;> rfl

/-- A height or a measure is kept if it is finite. -/
theorem optional?_ofFloat (z : Option Float) :
    optional? float? (z.map ofFloat) = some (z.filter Float.isFinite) := by
  cases z with
  | none => rfl
  | some x =>
    have hread := float?_ofFloat x
    rw [Option.map_some]
    by_cases h : x.isFinite = true
    · obtain ⟨n, hform, -⟩ := ofFloat_of_isFinite h
      rw [if_pos h, hform] at hread
      rw [hform, optional?, hread, Option.filter_some, if_pos h, Option.map_some]
      rintro ⟨⟩
    · rw [ofFloat_of_not_isFinite h, Option.filter_some, if_neg h]
      rfl

/-! ### Records -/

section

variable {v : Json}

/-- However its members are arranged, a coordinate is read back if x and y are finite. -/
theorem coordinate?_of_rearranged {c : Coordinate Float}
    (h : Rearranged ["x", "y", "z", "m"] (ofCoordinate c) v) :
    coordinate? v = if c.x.isFinite ∧ c.y.isFinite then some c.finitePart else none := by
  have hfields : v.fields? ["x", "y", "z", "m"] =
      some [some (ofFloat c.x), some (ofFloat c.y), c.z.map ofFloat, c.m.map ofFloat] := by
    rw [fields?_of_rearranged _ h]
    · rcases c with ⟨x, y, _ | z, _ | m⟩ <;> rfl
    · rcases c with ⟨x, y, _ | z, _ | m⟩ <;> simp
  rw [coordinate?, hfields]
  simp only [Option.bind_eq_bind, Option.bind_some, bind_float?_ofFloat, optional?_ofFloat, ite_and]
  rfl

theorem envelope?_of_rearranged {e : Envelope Float}
    (h : Rearranged ["min_x", "max_x", "min_y", "max_y"] (ofEnvelope e) v) :
    envelope? v =
      if e.minX.isFinite ∧ e.maxX.isFinite ∧ e.minY.isFinite ∧ e.maxY.isFinite then some e
      else none := by
  have hfields : v.fields? ["min_x", "max_x", "min_y", "max_y"] =
      some [some (ofFloat e.minX), some (ofFloat e.maxX), some (ofFloat e.minY),
        some (ofFloat e.maxY)] := by
    rw [fields?_of_rearranged _ h]
    · rfl
    · simp
  rw [envelope?, hfields]
  simp only [Option.bind_eq_bind, Option.bind_some, bind_float?_ofFloat, ite_and]
  rfl

theorem lineProjection?_of_rearranged {p : LineProjection Float}
    (h : Rearranged ["position", "lon", "lat"] (ofLineProjection p) v) :
    lineProjection? v = if p.lon.isFinite ∧ p.lat.isFinite then some p else none := by
  have hfields : v.fields? ["position", "lon", "lat"] =
      some [some (ofLinePosition p.position), some (ofFloat p.lon), some (ofFloat p.lat)] := by
    rw [fields?_of_rearranged _ h]
    · rfl
    · simp
  rw [lineProjection?, hfields]
  simp only [Option.bind_eq_bind, Option.bind_some, linePosition?_ofLinePosition,
    bind_float?_ofFloat, ite_and]
  rfl

/-- Options have no numbers and are always read back. -/
theorem sequenceOptions?_of_rearranged {o : SequenceOptions}
    (h : Rearranged ["dim", "cache"] (ofSequenceOptions o) v) :
    sequenceOptions? v = some o := by
  have hfields : v.fields? ["dim", "cache"] =
      some [some (ofLayout o.layout), some (ofCachePolicy o.cache)] := by
    rw [fields?_of_rearranged _ h]
    · rfl
    · simp
  rw [sequenceOptions?, hfields]
  simp only [Option.bind_eq_bind, Option.bind_some, layout?_ofLayout, cachePolicy?_ofCachePolicy]
  rfl

end

/-! ### Round trips -/

section

variable {β : Type} {names : List String} {encode : β → Json} {decode? : Json → Option β}

/-- A round trip is shown by saying what is read from each arrangement. -/
theorem roundTrips_of_eq {told : β → Prop} [DecidablePred told] {kept : β → β}
    (h : ∀ b v, Rearranged names (encode b) v →
      decode? v = if told b then some (kept b) else none) :
    RoundTrips names encode decode? told kept := by
  intro b v hv
  rw [h b v hv]
  split
  next hb => exact ⟨⟨fun _ ↦ hb, fun _ ↦ ⟨_, rfl⟩⟩, fun _ heq ↦ (Option.some.inj heq).symm⟩
  next hb =>
    refine ⟨⟨?_, fun hb' ↦ absurd hb' hb⟩, ?_⟩
    · rintro ⟨_, ⟨⟩⟩
    · rintro _ ⟨⟩

/-- A form that is a string cannot be rearranged. -/
theorem roundTrips_ofText {text : β → String} (h : ∀ b, decode? (ofText (text b)) = some b) :
    RoundTrips [] (fun b ↦ ofText (text b)) decode? (fun _ ↦ True) id := by
  refine roundTrips_of_eq fun b v hv ↦ ?_
  cases hv
  rw [h, if_pos trivial]
  rfl

end

theorem isSome_filter_iff {α : Type} {p : α → Bool} {o : Option α} :
    (o.filter p).isSome = o.isSome ↔ ∀ a ∈ o, p a = true := by
  cases o with
  | none => simp
  | some a => cases h : p a <;> simp [h]

/-- A layout tells which of the two further ordinates are present. -/
theorem ofPresence_inj {z z' m m' : Bool} :
    Layout.ofPresence z m = Layout.ofPresence z' m' ↔ z = z' ∧ m = m' := by
  revert z z' m m'
  decide

/-- The layout of a coordinate is kept exactly where its height and its measure are. -/
theorem layout_finitePart_iff (c : Coordinate Float) :
    c.finitePart.layout = c.layout ↔
      (∀ z ∈ c.z, z.isFinite = true) ∧ ∀ m ∈ c.m, m.isFinite = true := by
  rw [Coordinate.layout, Coordinate.layout, ofPresence_inj, ← isSome_filter_iff,
    ← isSome_filter_iff]
  rfl

/-- **Every value is read back from its form, however the form is rearranged.** It is read exactly
when the floats that it must have are finite, and then as it was, but that a coordinate has lost a
height or a measure that is not finite. Its layout is thereby kept exactly when it has none such. -/
theorem forms_round_trip :
    RoundTrips ["x", "y", "z", "m"] ofCoordinate coordinate?
      (fun c ↦ c.x.isFinite ∧ c.y.isFinite) Coordinate.finitePart ∧
    (∀ c : Coordinate Float, c.finitePart.layout = c.layout ↔
      (∀ z ∈ c.z, z.isFinite = true) ∧ ∀ m ∈ c.m, m.isFinite = true) ∧
    RoundTrips ["min_x", "max_x", "min_y", "max_y"] ofEnvelope envelope?
      (fun e ↦ e.minX.isFinite ∧ e.maxX.isFinite ∧ e.minY.isFinite ∧ e.maxY.isFinite) id ∧
    RoundTrips ["position", "lon", "lat"] ofLineProjection lineProjection?
      (fun p ↦ p.lon.isFinite ∧ p.lat.isFinite) id ∧
    RoundTrips ["dim", "cache"] ofSequenceOptions sequenceOptions? (fun _ ↦ True) id ∧
    RoundTrips [] ofLayout layout? (fun _ ↦ True) id ∧
    RoundTrips [] ofCachePolicy cachePolicy? (fun _ ↦ True) id ∧
    RoundTrips [] ofLinePosition linePosition? (fun _ ↦ True) id :=
  ⟨roundTrips_of_eq fun _ _ ↦ coordinate?_of_rearranged,
    layout_finitePart_iff,
    roundTrips_of_eq fun _ _ ↦ envelope?_of_rearranged,
    roundTrips_of_eq fun _ _ ↦ lineProjection?_of_rearranged,
    roundTrips_of_eq fun _ _ h ↦ (sequenceOptions?_of_rearranged h).trans (if_pos trivial).symm,
    roundTrips_ofText layout?_ofLayout,
    roundTrips_ofText cachePolicy?_ofCachePolicy,
    roundTrips_ofText linePosition?_ofLinePosition⟩

/-- A coordinate with an infinite height, its members in another order behind one of another
name. -/
theorem forms_round_trip_shuffled :
    let c : Coordinate Float := ⟨1.0, 2.0, some Ordinate.infinity, none⟩
    let v : Json := .object [(some "note", .bool true), (some "y", ofFloat 2.0),
      (some "x", ofFloat 1.0), (some "z", .null)]
    Rearranged ["x", "y", "z", "m"] (ofCoordinate c) v ∧
      coordinate? v = some ⟨1.0, 2.0, none, none⟩ ∧ ¬c.finitePart.layout = c.layout := by
  intro c v
  have hshuffled (x y z note : Option String × Json) :
      [note, y, x, z].Perm ([x, y, z] ++ [note]) :=
    (List.perm_append_comm : ([note] ++ [y, x, z]).Perm _).trans
      ((List.Perm.swap x y [z]).append_right [note])
  have hform : Rearranged ["x", "y", "z", "m"] (ofCoordinate c) v := by
    have hmembers (x y z : Float) : ofCoordinate ⟨x, y, some z, none⟩ =
        .object [(some "x", ofFloat x), (some "y", ofFloat y), (some "z", ofFloat z)] := rfl
    have hnull : ofFloat (Ordinate.infinity : Float) = .null :=
      ofFloat_of_not_isFinite (by decide)
    rw [hmembers, hnull]
    refine .object (hshuffled _ _ _ _) fun member hmember ↦ ?_
    rw [List.mem_singleton.mp hmember]
    exact ⟨"note", by decide, rfl⟩
  obtain ⟨htrip, hlayout, -⟩ := forms_round_trip
  obtain ⟨hread, hkept⟩ := htrip c v hform
  obtain ⟨c', hc'⟩ := hread.mpr ⟨by decide, by decide⟩
  have hpart : c.finitePart = ⟨1.0, 2.0, none, none⟩ := rfl
  refine ⟨hform, ?_, fun h ↦ ?_⟩
  · rw [hc', hkept c' hc', hpart]
  · exact absurd (((hlayout c).mp h).1 _ rfl) (by decide)

end Json

end Geospatial
