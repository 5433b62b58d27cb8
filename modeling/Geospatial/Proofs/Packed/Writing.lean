import Geospatial.Proofs.Packed.Transparency

/-!
# Writing to a packed sequence

Every ordinate has a slot of its own: `index * stride + number` is read back as the index and the
number by dividing by the stride (`offset_inj`). So a write changes the ordinate
that it names and no other, and the order of writes matters only where two of them name the same
one.

* `ordinate_setOrdinate` — what is read after one write.
* `perform_comm` — writes to different slots can change places.
* `run_writes` — what is read after any list of writes: the last one to the slot, or what was there.

That the slots do not overlap rests on the run holding whole coordinates, which every packed
sequence carries with it. A write also gives up the kept points, whichever ordinate of the layout
it goes to.
-/

namespace Geospatial

namespace PackedSequence

/-! ### Slots -/

section Slots

variable {d : Layout} {i j k l : Nat}

/-- Dividing a place by the stride gives the index of the coordinate back. -/
theorem offset_div_stride (hk : k < d.stride) (i : Nat) : (i * d.stride + k) / d.stride = i := by
  rw [Nat.mul_comm, Nat.mul_add_div d.stride_pos, Nat.div_eq_of_lt hk, Nat.add_zero]

/-- What is left over is the number of the ordinate. -/
theorem offset_mod_stride (hk : k < d.stride) (i : Nat) : (i * d.stride + k) % d.stride = k := by
  rw [Nat.mul_comm, Nat.mul_add_mod, Nat.mod_eq_of_lt hk]

/-- **Different ordinates have different places.** -/
theorem offset_inj (hk : k < d.stride) (hl : l < d.stride) :
    i * d.stride + k = j * d.stride + l ↔ (i, k) = (j, l) := by
  constructor
  · intro h
    have hindex : i = j := by rw [← offset_div_stride hk i, h, offset_div_stride hl]
    have hnumber : k = l := by rw [← offset_mod_stride hk i, h, offset_mod_stride hl]
    rw [hindex, hnumber]
  · intro h
    obtain ⟨rfl, rfl⟩ := Prod.mk.inj h
    rfl

end Slots

/-! ### One write -/

variable {σ : Type} [Storage σ] (s : PackedSequence σ)

/-- A write beyond the run writes nothing. -/
theorem ordinates_writeAt (place : Nat) (v : Float) :
    (s.writeAt place v).1.ordinates = s.ordinates.setIfInBounds place (Storage.narrow v) := by
  by_cases h : place < s.ordinates.size
  · rw [writeAt, dif_pos h, Array.setIfInBounds, dif_pos h]
  · rw [writeAt, dif_neg h, Array.setIfInBounds, dif_neg h]

/-- A write succeeds exactly where its place exists. -/
theorem outcome_writeAt_iff {place : Nat} {v : Float} :
    (s.writeAt place v).2 = .ok () ↔ place < s.ordinates.size := by
  by_cases h : place < s.ordinates.size
  · rw [writeAt, dif_pos h]
    exact iff_of_true rfl h
  · rw [writeAt, dif_neg h]
    exact iff_of_false (by rintro ⟨⟩) h

/-- What a write makes of the run, wherever it goes: at a place that does not exist, nothing. -/
theorem ordinates_setOrdinate {i k : Nat} (hk : k < s.layout.stride) (v : Float) :
    (s.setOrdinate i k v).1.ordinates =
      s.ordinates.setIfInBounds (i * s.layout.stride + k) (Storage.narrow v) := by
  rw [setOrdinate, if_pos hk]
  split
  next place hplace => rw [eq_of_place_eq_ok hplace, ordinates_writeAt, ordinates_release]
  next violation hplace =>
    -- a place that was not come to is none that the run has
    have hbehind : s.ordinates.size ≤ i * s.layout.stride + k := by
      by_contra hlt
      rw [s.place_of_lt_size (Nat.lt_of_not_le hlt)] at hplace
      cases hplace
    rw [ordinates_release, Array.setIfInBounds_eq_of_size_le hbehind]

/-- A write to an ordinate that the layout does not have does nothing at all. -/
theorem setOrdinate_of_stride_le {k : Nat} (hk : s.layout.stride ≤ k) (i : Nat) (v : Float) :
    s.setOrdinate i k v = (s, .error (.notInLayout s.layout k)) := by
  rw [setOrdinate, if_neg (Nat.not_lt_of_le hk)]

/-- **A write succeeds exactly where the layout has the ordinate and the run its place.** -/
theorem outcome_setOrdinate_iff {i k : Nat} {v : Float} :
    (s.setOrdinate i k v).2 = .ok () ↔
      k < s.layout.stride ∧ i * s.layout.stride + k < s.ordinates.size := by
  by_cases hk : k < s.layout.stride
  · rw [setOrdinate, if_pos hk, and_iff_right hk]
    split
    next place hplace => rw [outcome_writeAt_iff, eq_of_place_eq_ok hplace, ordinates_release]
    next violation hplace =>
      refine iff_of_false (by rintro ⟨⟩) fun hlt ↦ ?_
      rw [s.place_of_lt_size hlt] at hplace
      cases hplace
  · rw [setOrdinate_of_stride_le s (Nat.le_of_not_lt hk)]
    exact iff_of_false (by rintro ⟨⟩) fun h ↦ hk h.1

/-- A write makes no room. -/
@[simp] theorem size_setOrdinate (i k : Nat) (v : Float) :
    (s.setOrdinate i k v).1.ordinates.size = s.ordinates.size := by
  by_cases hk : k < s.layout.stride
  · rw [ordinates_setOrdinate s hk, Array.size_setIfInBounds]
  · rw [setOrdinate_of_stride_le s (Nat.le_of_not_lt hk)]

@[simp] theorem length_setOrdinate (i k : Nat) (v : Float) :
    (s.setOrdinate i k v).1.length = s.length := by
  rw [length, length, size_setOrdinate, layout_setOrdinate]

@[simp] theorem options_setOrdinate (i k : Nat) (v : Float) :
    (s.setOrdinate i k v).1.options = s.options := by
  rw [options, options, layout_setOrdinate, cache_setOrdinate]
  split <;> rfl

/-- **A write changes the ordinate that it names, and no other.** -/
theorem ordinate_setOrdinate {i k j l : Nat} (hi : i < s.length) (hk : k < s.layout.stride)
    (hj : j < s.length) (hl : l < s.layout.stride) (v : Float) :
    (s.setOrdinate i k v).1.ordinate j l =
      if (i, k) = (j, l) then .ok (Storage.rounded σ v) else s.ordinate j l := by
  have hj' : j < (s.setOrdinate i k v).1.length := by rwa [length_setOrdinate]
  have hl' : l < (s.setOrdinate i k v).1.layout.stride := by rwa [layout_setOrdinate]
  rw [ordinate_eq_raw _ hj' hl', ordinate_eq_raw s hj hl, layout_setOrdinate, raw,
    ordinates_setOrdinate s hk]
  by_cases hsame : (i, k) = (j, l)
  · obtain ⟨rfl, rfl⟩ := Prod.mk.inj hsame
    rw [Array.getElem?_setIfInBounds, if_pos rfl, if_pos (s.offset_lt_size hi hk), if_pos rfl]
    rfl
  · rw [Array.getElem?_setIfInBounds_ne (mt (offset_inj hk hl).mp hsame), if_neg hsame]
    rfl

end PackedSequence

/-! ### Lists of writes -/

/-- A number that is written over an ordinate of a coordinate. -/
structure Write where
  index : Nat
  number : Nat
  value : Float

namespace Write

/-- What is written to: the index of the coordinate and the number of its ordinate. -/
def target (w : Write) : Nat × Nat :=
  (w.index, w.number)

/-- The write as a step of a session. -/
def step (w : Write) : SessionStep :=
  .setOrdinate w.index w.number w.value

/-- The last of several writes to an ordinate, if there is one. -/
def last? (ws : List Write) (target : Nat × Nat) : Option Write :=
  ws.reverse.find? fun w ↦ w.target = target

/-- A later write goes before an earlier one. -/
theorem last?_cons (w : Write) (ws : List Write) (target : Nat × Nat) :
    last? (w :: ws) target = (last? ws target).or (if w.target = target then some w else none) := by
  rw [last?, List.reverse_cons, List.find?_append, List.find?_singleton]
  simp only [decide_eq_true_eq]
  rfl

variable {σ : Type}

/-- The ordinate that is written to is one of the sequence. -/
def Within (w : Write) (s : PackedSequence σ) : Prop :=
  w.index < s.length ∧ w.number < s.layout.stride

instance (w : Write) (s : PackedSequence σ) : Decidable (w.Within s) :=
  inferInstanceAs (Decidable (_ ∧ _))

variable [Storage σ] {s : PackedSequence σ} {u w : Write}

/-- What a write leaves of a sequence. -/
def perform (w : Write) (s : PackedSequence σ) : PackedSequence σ :=
  (s.setOrdinate w.index w.number w.value).1

theorem within_perform : u.Within (w.perform s) ↔ u.Within s := by
  rw [Within, Within, perform, s.length_setOrdinate, s.layout_setOrdinate]

/-- The place of the ordinate that is written to. -/
def offset (w : Write) (s : PackedSequence σ) : Nat :=
  w.index * s.layout.stride + w.number

/-- Within the sequence a write sets one place of the run. -/
theorem ordinates_perform (hw : w.Within s) :
    (w.perform s).ordinates = s.ordinates.setIfInBounds (w.offset s) (Storage.narrow w.value) :=
  s.ordinates_setOrdinate hw.2 w.value

theorem layout_perform (w : Write) (s : PackedSequence σ) : (w.perform s).layout = s.layout :=
  s.layout_setOrdinate ..

theorem offset_perform (u w : Write) (s : PackedSequence σ) :
    u.offset (w.perform s) = u.offset s := by
  rw [offset, offset, layout_perform]

/-- A write within the sequence gives up the kept points. -/
theorem cache_perform (hw : w.Within s) : (w.perform s).cache = s.cache.release :=
  (s.cache_setOrdinate ..).trans (if_pos hw.2)

theorem ordinate_perform (hw : w.Within s) {j l : Nat} (hj : j < s.length)
    (hl : l < s.layout.stride) :
    (w.perform s).ordinate j l =
      if w.target = (j, l) then .ok (Storage.rounded σ w.value) else s.ordinate j l :=
  s.ordinate_setOrdinate hw.1 hw.2 hj hl w.value

/-- **Writes to different ordinates can change places.** -/
theorem perform_comm (hu : u.Within s) (hw : w.Within s) (hne : u.target ≠ w.target) :
    u.perform (w.perform s) = w.perform (u.perform s) := by
  have hplaces : w.offset s ≠ u.offset s :=
    mt (PackedSequence.offset_inj hw.2 hu.2).mp (Ne.symm hne)
  have hordinates {a b : Write} (ha : a.Within s) (hb : b.Within s) :
      (a.perform (b.perform s)).ordinates =
        (s.ordinates.setIfInBounds (b.offset s) (Storage.narrow b.value)).setIfInBounds
          (a.offset s) (Storage.narrow a.value) := by
    rw [ordinates_perform (within_perform.mpr ha), ordinates_perform hb, offset_perform]
  have hcache {a b : Write} (ha : a.Within s) (hb : b.Within s) :
      (a.perform (b.perform s)).cache = s.cache.release := by
    rw [cache_perform (within_perform.mpr ha), cache_perform hb]
    rfl
  have hcontents : (w.perform (u.perform s)).contents = (u.perform (w.perform s)).contents := by
    rw [PackedSequence.contents, PackedSequence.contents, layout_perform, layout_perform,
      layout_perform, layout_perform, hordinates hw hu, hordinates hu hw,
      Array.setIfInBounds_comm _ _ hplaces]
  rw [PackedSequence.eq_with_cache hcontents, hcache hu hw, ← hcache hw hu]

/-- **After any writes, each ordinate is the last that was written to it**, or what it was. No write
fails. The induction runs along the list: what the first write leaves is the sequence that the rest
are written to. -/
theorem run_writes {ws : List Write} {s : Session σ} (hws : ∀ w ∈ ws, w.Within s.buffer) :
    (s.run (ws.map step)).2 = ws.map (fun _ ↦ .ok .done) ∧
      (s.run (ws.map step)).1.buffer.length = s.buffer.length ∧
      (s.run (ws.map step)).1.buffer.options = s.buffer.options ∧
      ∀ j < s.buffer.length, ∀ l < s.buffer.layout.stride,
        (s.run (ws.map step)).1.buffer.ordinate j l =
          (last? ws (j, l)).elim (s.buffer.ordinate j l) fun w ↦
            .ok (Storage.rounded σ w.value) := by
  induction ws generalizing s with
  | nil => exact ⟨rfl, rfl, rfl, fun _ _ _ _ ↦ rfl⟩
  | cons w rest ih =>
    have hw : w.Within s.buffer := hws w List.mem_cons_self
    have hbuffer : (s.step w.step).1.buffer = w.perform s.buffer := rfl
    have hanswer : (s.step w.step).2 = .ok .done := by
      show (s.buffer.setOrdinate w.index w.number w.value).2.map (fun _ ↦ SessionAnswer.done) = _
      rw [s.buffer.outcome_setOrdinate_iff.mpr ⟨hw.2, s.buffer.offset_lt_size hw.1 hw.2⟩]
      rfl
    obtain ⟨hanswers, hlength, hoptions, hread⟩ := ih (s := (s.step w.step).1) fun u hu ↦ by
      rw [hbuffer, within_perform]
      exact hws u (List.mem_cons_of_mem _ hu)
    rw [hbuffer] at hlength hoptions hread
    rw [perform, PackedSequence.length_setOrdinate] at hlength
    rw [perform, PackedSequence.options_setOrdinate] at hoptions
    refine ⟨?_, hlength, hoptions, fun j hj l hl ↦ ?_⟩
    · rw [List.map_cons, Session.run_cons, hanswer, hanswers, List.map_cons]
    · have hrest := hread j (by rwa [perform, PackedSequence.length_setOrdinate]) l
        (by rwa [perform, PackedSequence.layout_setOrdinate])
      rw [List.map_cons, Session.run_cons, hrest, last?_cons, ordinate_perform hw hj hl]
      rcases last? rest (j, l) with - | later
      · by_cases hsame : w.target = (j, l)
        · rw [if_pos hsame, if_pos hsame]
          rfl
        · rw [if_neg hsame, if_neg hsame]
          rfl
      · rfl

end Write

namespace PackedSequence

variable {σ : Type} [Storage σ]

/-- **A write hits exactly one ordinate.**

* Within the sequence a write succeeds and changes neither the length nor the options. What was
  written, rounded to the storage type, is read where it was written to, and everywhere else what
  was there.
* After any list of writes within the sequence, none of which fails, each ordinate is the last that
  was written to it, or what it was.
* Writes to different ordinates can change places. -/
theorem writes_hit_one_ordinate (s : PackedSequence σ) :
    (∀ w : Write, w.Within s →
      (s.setOrdinate w.index w.number w.value).2 = .ok () ∧
      (w.perform s).length = s.length ∧ (w.perform s).options = s.options ∧
      ∀ j < s.length, ∀ l < s.layout.stride, ∃ old, s.ordinate j l = .ok old ∧
        (w.perform s).ordinate j l =
          .ok (if w.target = (j, l) then Storage.rounded σ w.value else old)) ∧
    (∀ ws : List Write, (∀ w ∈ ws, w.Within s) →
      let after := (Session.start s).run (ws.map Write.step)
      after.2 = ws.map (fun _ ↦ .ok .done) ∧
      after.1.buffer.length = s.length ∧ after.1.buffer.options = s.options ∧
      ∀ j < s.length, ∀ l < s.layout.stride, ∃ old, s.ordinate j l = .ok old ∧
        after.1.buffer.ordinate j l =
          .ok ((Write.last? ws (j, l)).elim old fun w ↦ Storage.rounded σ w.value)) ∧
    ∀ u w : Write, u.Within s → w.Within s → u.target ≠ w.target →
      u.perform (w.perform s) = w.perform (u.perform s) := by
  refine ⟨fun w hw ↦ ⟨?_, s.length_setOrdinate .., s.options_setOrdinate .., fun j hj l hl ↦ ?_⟩,
    fun ws hws ↦ ?_, fun u w hu hw hne ↦ Write.perform_comm hu hw hne⟩
  · exact s.outcome_setOrdinate_iff.mpr ⟨hw.2, s.offset_lt_size hw.1 hw.2⟩
  · refine ⟨_, s.ordinate_of_lt hj hl, ?_⟩
    rw [Write.ordinate_perform hw hj hl, s.ordinate_of_lt hj hl]
    split <;> rfl
  · obtain ⟨hanswers, hlength, hoptions, hread⟩ := Write.run_writes (s := Session.start s) hws
    refine ⟨hanswers, hlength, hoptions, fun j hj l hl ↦ ⟨_, s.ordinate_of_lt hj hl, ?_⟩⟩
    rw [hread j hj l hl]
    show (Write.last? ws (j, l)).elim (s.ordinate j l) _ = _
    rw [s.ordinate_of_lt hj hl]
    cases Write.last? ws (j, l) <;> rfl

/-- Numbers of 16 bits with a measure: the measure of the second coordinate is written twice and
shows the later number, that of the first is written in between, and a height is not there to be
written. -/
theorem writes_hit_one_ordinate_measured :
    let s : PackedSequence Storage.Half :=
      ⟨.xym, #[Storage.narrow 1.0, Storage.narrow 2.0, Storage.narrow 3.0, Storage.narrow 4.0,
        Storage.narrow 5.0, Storage.narrow 6.0], rfl, ⟨.retained, .empty⟩⟩
    let ws : List Write := [⟨1, 2, 0.1⟩, ⟨0, 2, 7.0⟩, ⟨1, 2, 2049.0⟩]
    let after := (Session.start s).run (ws.map Write.step)
    (∀ w ∈ ws, w.Within s) ∧ ¬(Write.mk 0 3 8.0).Within s ∧
      (s.setOrdinate 1 2 0.1).2 = .ok () ∧
      after.1.buffer.ordinate 1 2 = .ok (Storage.rounded Storage.Half 2049.0) ∧
      after.1.buffer.ordinate 1 1 = s.ordinate 1 1 ∧
      (Write.mk 1 2 0.1).perform ((Write.mk 0 2 7.0).perform s) =
        (Write.mk 0 2 7.0).perform ((Write.mk 1 2 0.1).perform s) := by
  intro s ws after
  have hws : ∀ w ∈ ws, w.Within s := by decide
  obtain ⟨hone, hall, hswap⟩ := writes_hit_one_ordinate s
  obtain ⟨-, -, -, hread⟩ := hall ws hws
  obtain ⟨_, -, hlast⟩ := hread 1 (by decide) 2 (by decide)
  obtain ⟨old, hold, hkept⟩ := hread 1 (by decide) 1 (by decide)
  exact ⟨hws, by decide, (hone ⟨1, 2, 0.1⟩ (by decide)).1, hlast, hkept.trans hold.symm,
    hswap ⟨1, 2, 0.1⟩ ⟨0, 2, 7.0⟩ (by decide) (by decide) (by decide)⟩

end PackedSequence

end Geospatial
