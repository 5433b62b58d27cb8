import Geospatial.Proofs.Bounds.Finite
import Geospatial.Proofs.Json.RoundTrip

/-!
# What can be read as an envelope

An envelope is read as four finite floats, and any four will do: those that can be read are exactly
the envelopes with finite bounds (`exists_envelope?_iff`), whether or not the bounds are in order.
Bounds that are inverted on x make the envelope null, as they should. Bounds that are inverted on y
alone pass for a box that no operation makes, and nothing else can go wrong
(`read_envelope_sound_iff`).
-/

namespace Geospatial.Json

variable {v : Json} {x : Float} {e : Envelope Float} {text : String}

/-- A number that is read is finite. -/
theorem isFinite_of_float? (h : v.float? = some x) : x.isFinite = true := by
  unfold float? at h
  split at h
  next n =>
    dsimp only at h
    split at h
    next => cases h
    next hbelow =>
      obtain rfl := Option.some.inj h
      by_contra hnot
      exact hbelow (Binary.isInf_of_not_isFinite n.roundsTo_toFloat.isNumber hnot)
  next => cases h

/-- No numeral is read as an infinite or undefined bound. -/
theorem isFinite_of_envelope? (h : envelope? v = some e) : e.bounds.IsFinite := by
  unfold envelope? at h
  simp only [Option.bind_eq_bind, Option.bind_eq_some_iff] at h
  obtain ⟨fields, -, h⟩ := h
  split at h
  next =>
    simp only [Option.bind_eq_some_iff] at h
    obtain ⟨minX, hminX, maxX, hmaxX, minY, hminY, maxY, hmaxY, h⟩ := h
    obtain rfl := Option.some.inj h
    exact ⟨isFinite_of_float? hminX, isFinite_of_float? hmaxX, isFinite_of_float? hminY,
      isFinite_of_float? hmaxY⟩
  next => cases h

/-- **Any four finite floats are read as an envelope.** -/
theorem exists_envelope?_iff : (∃ v, envelope? v = some e) ↔ e.bounds.IsFinite := by
  constructor
  · rintro ⟨v, h⟩
    exact isFinite_of_envelope? h
  · rintro ⟨hminX, hmaxX, hminY, hmaxY⟩
    refine ⟨ofEnvelope e, ?_⟩
    rw [envelope?_of_rearranged (.same _), if_pos ⟨hminX, hmaxX, hminY, hmaxY⟩]

/-- **What is read is sound unless it is inverted.** The bounds of an envelope that is read are
finite; where they are inverted on y and the envelope is not null, it has a negative height, covers
itself, and yet neither intersects itself nor has a point. -/
theorem read_envelope_sound_iff (h : (read? text).bind envelope? = some e) :
    e.bounds.IsFinite ∧ (e.bounds.Sound ↔ ¬e.bounds.Inverted) ∧
      (e.bounds.Inverted →
        e.bounds.height < 0.0 ∧ e.bounds.covers e.bounds = true ∧
          e.bounds.intersects e.bounds = false ∧ e.bounds.region = ∅) := by
  obtain ⟨v, -, hv⟩ := Option.bind_eq_some_iff.mp h
  have hfinite := isFinite_of_envelope? hv
  exact ⟨hfinite, Envelope.sound_iff_not_inverted hfinite, fun hy ↦ hy.questions hfinite⟩

/-- A text with the members in another order, one of an unknown name and a negative zero. -/
theorem read_envelope_sound_iff_shuffled :
    ∃ (text : String) (e : Envelope Float),
      text = "\x7b\"max_y\":4,\"min_x\":-0,\"id\":null,\"max_x\":1,\"min_y\":25e-1\x7d" ∧
        e = ⟨-0.0, 1.0, 2.5, 4.0⟩ ∧ (read? text).bind envelope? = some e ∧ e.bounds.Sound := by
  have hread : (read?
      "\x7b\"max_y\":4,\"min_x\":-0,\"id\":null,\"max_x\":1,\"min_y\":25e-1\x7d").bind
        envelope? = some ⟨-0.0, 1.0, 2.5, 4.0⟩ := by
    rfl
  refine ⟨_, _, rfl, rfl, hread, (read_envelope_sound_iff hread).2.1.mpr fun h ↦ ?_⟩
  exact absurd h.y (by decide)

/-- A text that is read as an envelope from five down to two, which is not sound. -/
theorem not_sound_read_inverted :
    ∃ e : Envelope Float,
      (read? "\x7b\"min_x\":0,\"max_x\":1,\"min_y\":5,\"max_y\":2\x7d").bind envelope? = some e ∧
        e.isNull = false ∧ e.bounds.height = -3.0 ∧ e.bounds.intersects e.bounds = false ∧
        ¬e.bounds.Sound := by
  refine ⟨⟨0.0, 1.0, 5.0, 2.0⟩, rfl, rfl, rfl, rfl, fun h ↦ ?_⟩
  exact absurd (h.intersects_self rfl) (by decide)

end Geospatial.Json
