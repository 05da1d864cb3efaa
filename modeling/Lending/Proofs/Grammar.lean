import Lending.Action.Payload

/-!
# The grammar of payloads

A payload is read from the front, and whatever follows the action there is left alone. What a
payload means is therefore a question about encodings and their prefixes: it is the action whose
encoding it begins with (`Action.decode_eq_ok_iff`), and it is malformed if it begins with none
(`Action.decode_eq_error_iff`).

That there is never a choice between two actions is the same fact once more. An encoding begins with
itself, so an encoding that began with another one would decode to two actions
(`Action.encode_prefix_iff`). An encoding that is cut short begins with none at all, because the one
it began with would be a part of the one it was cut from.
-/

set_option autoImplicit false

namespace Lending

namespace Action

variable {payload : List UInt8} {action other : Action}

/-- A payload is read as the action whose encoding it begins with. -/
theorem decode_eq_ok_iff : decode payload = .ok action ↔ action.encode <+: payload := by
  rw [decode, demand_eq_ok_iff, Reader.front_eq_some_iff reads_read]
  constructor
  · intro h
    obtain ⟨rest, rfl⟩ := h
    exact List.prefix_append action.encode rest
  · intro h
    obtain ⟨rest, rfl⟩ := h
    exact ⟨rest, rfl⟩

/-- A payload is malformed if it begins with no encoding. -/
theorem decode_eq_error_iff :
    decode payload = .error .payload ↔ ∀ action : Action, ¬action.encode <+: payload := by
  constructor
  · intro h action hbegins
    rw [decode_eq_ok_iff.mpr hbegins] at h
    cases h
  · intro h
    cases hread : decode payload with
    | ok action => exact absurd (decode_eq_ok_iff.mp hread) (h action)
    | error cause =>
      obtain ⟨-, rfl⟩ := demand_eq_error_iff.mp hread
      rfl

theorem decode_encode (action : Action) : decode action.encode = .ok action :=
  decode_eq_ok_iff.mpr (List.prefix_refl action.encode)

/-- No encoding begins with the encoding of another action. -/
theorem encode_prefix_iff : action.encode <+: other.encode ↔ action = other := by
  constructor
  · intro h
    have hread := decode_eq_ok_iff.mpr h
    rw [decode_encode] at hread
    exact (Except.ok.inj hread).symm
  · rintro rfl
    exact List.prefix_refl action.encode

theorem encode_inj : action.encode = other.encode ↔ action = other := by
  constructor
  · intro h
    exact encode_prefix_iff.mp (h ▸ List.prefix_refl action.encode)
  · rintro rfl
    rfl

/-- What is left of an encoding that is cut short is malformed. -/
theorem decode_of_prefix (hpart : payload <+: action.encode) (hcut : payload ≠ action.encode) :
    decode payload = .error .payload := by
  refine decode_eq_error_iff.mpr fun other hother => hcut ?_
  -- The part would begin with an encoding that the whole begins with, so with the whole.
  obtain rfl := encode_prefix_iff.mp (hother.trans hpart)
  exact hpart.eq_of_length_le hother.length_le

/-- An action is read from those payloads that begin with its encoding, and a payload that begins
with no encoding is malformed. Encodings are read back, differ where the actions do, and none begins
with another or survives being cut. -/
theorem decode_is_exact :
    (∀ payload action, decode payload = .ok action ↔ action.encode <+: payload) ∧
    (∀ payload, decode payload = .error .payload ↔
      ∀ action : Action, ¬action.encode <+: payload) ∧
    (∀ action, decode action.encode = .ok action) ∧
    (∀ action other : Action, action.encode = other.encode ↔ action = other) ∧
    (∀ action other : Action, action.encode <+: other.encode ↔ action = other) ∧
    ∀ payload (action : Action), payload <+: action.encode → payload ≠ action.encode →
      decode payload = .error .payload := by
  refine ⟨?_, ?_, decode_encode, ?_, ?_, ?_⟩
  · intro payload action
    exact decode_eq_ok_iff
  · intro payload
    exact decode_eq_error_iff
  · intro action other
    exact encode_inj
  · intro action other
    exact encode_prefix_iff
  · intro payload action hpart hcut
    exact decode_of_prefix hpart hcut

/-- A transfer on an allowance, cut in the middle of its second key. -/
theorem cut_transfer_is_malformed :
    (transferFrom 0 0 ⟨7, by decide⟩).encode.take 50 <+:
      (transferFrom 0 0 ⟨7, by decide⟩).encode ∧
    (transferFrom 0 0 ⟨7, by decide⟩).encode.take 50 ≠
      (transferFrom 0 0 ⟨7, by decide⟩).encode ∧
    decode ((transferFrom 0 0 ⟨7, by decide⟩).encode.take 50) = .error .payload := by
  have hpart := List.take_prefix 50 (transferFrom 0 0 ⟨7, by decide⟩).encode
  have hcut : (transferFrom 0 0 ⟨7, by decide⟩).encode.take 50 ≠
      (transferFrom 0 0 ⟨7, by decide⟩).encode := by decide
  exact ⟨hpart, hcut, decode_is_exact.2.2.2.2.2 _ _ hpart hcut⟩

end Action

end Lending
