import PairingWire.Element
import PairingWire.Proofs.Header
import PairingWire.Proofs.Payload

/-!
Writing and reading elements, taken apart: what a successful encoding consists of, which frames and
bare strings are accepted, and which failures are possible.
-/

namespace PairingWire

variable {e : Engine}

theorem CurveId.automaticFormat_ne_auto (c : CurveId) : c.automaticFormat ≠ .auto := by
  cases c <;> decide

theorem Format.resolve_ne_auto (f : Format) (c : CurveId) (t : ElementType) :
    f.resolve c t ≠ .auto := by
  cases f <;> cases t <;>
    first
      | exact c.automaticFormat_ne_auto
      | exact Format.noConfusion

theorem Format.resolve_of_ne_auto {f : Format} (named : f ≠ .auto) (c : CurveId) (t : ElementType) :
    f.resolve c t = f := by
  cases f <;> first | rfl | exact absurd rfl named

namespace Element

variable {s : Settings} {x : Element e} {t : ElementType} {f : Format} {bs : Bytes} {err : CodecError}

def headerOf (x : Element e) (f : Format) (flags : Flags) : Header :=
  ⟨Header.currentVersion, x.type, e.curveId, f, flags⟩

/-- An encoding is the payload of the resolved format, with its header in front if one is wanted. -/
theorem encode_eq_ok_iff :
    x.encode s = .ok bs ↔ ∃ compress encoded,
      (s.format.resolve e.curveId x.type).supports e.curveId x.type = true ∧
      (s.format.resolve e.curveId x.type).compression x.type s.compress = .ok compress ∧
      x.encodePayload (s.format.resolve e.curveId x.type) compress = .ok encoded ∧
      (if s.withHeader then
          (x.headerOf (s.format.resolve e.curveId x.type) encoded.flags).toBytes ++ encoded.payload
        else encoded.payload) = bs := by
  unfold encode
  generalize s.format.resolve e.curveId x.type = f
  cases supported : f.supports e.curveId x.type with
  | false => simp [supported]
  | true =>
      simp only [supported, Bool.not_true, Bool.false_eq_true, if_false, bind_eq_ok_iff, true_and]
      constructor
      · rintro ⟨compress, chosen, encoded, written, framed⟩
        refine ⟨compress, encoded, chosen, written, ?_⟩
        split at framed <;> cases framed <;> simp_all [headerOf]
      · rintro ⟨compress, encoded, chosen, written, rfl⟩
        refine ⟨compress, chosen, encoded, written, ?_⟩
        split <;> rfl

theorem supports_of_decodePayload {flags : Flags} (found : decodePayload e f t bs = .ok (x, flags)) :
    f.supports e.curveId t = true := by
  unfold decodePayload at found
  split at found
  · cases found
  · rename_i supported
    simpa using supported

theorem decodeBare_eq_ok_iff :
    decodeBare e f t bs = .ok x ↔
      ∃ flags, decodePayload e (f.resolve e.curveId t) t bs = .ok (x, flags) := by
  rw [decodeBare, bind_eq_ok_iff]
  constructor
  · rintro ⟨⟨y, flags⟩, read, same⟩
    cases same
    exact ⟨flags, read⟩
  · rintro ⟨flags, read⟩
    exact ⟨(x, flags), read, rfl⟩

theorem exists_flags_image_iff {V : Type} {image : V → Element e}
    {r : Except CodecError (V × Flags)} :
    (∃ flags, (r >>= fun q => .ok (image q.1, q.2)) = .ok (x, flags)) ↔
      ∃ v flags, r = .ok (v, flags) ∧ image v = x := by
  constructor
  · rintro ⟨flags, found⟩
    obtain ⟨⟨v, flags'⟩, read, same⟩ := bind_eq_ok_iff.1 found
    cases same
    exact ⟨v, flags', read, rfl⟩
  · rintro ⟨v, flags, read, rfl⟩
    exact ⟨flags, by rw [read, ok_bind]⟩

theorem decodeBare_g1_eq_ok_iff (named : f ≠ .auto) (supported : f.supports e.curveId .g1 = true) :
    decodeBare e f .g1 bs = .ok x ↔
      ∃ P flags, Layout.decodePoint e e.g1 f bs = .ok (P, flags) ∧ g1 P = x := by
  rw [decodeBare_eq_ok_iff, Format.resolve_of_ne_auto named, decodePayload_of_supports supported]
  exact exists_flags_image_iff

theorem decodeBare_g2_eq_ok_iff (named : f ≠ .auto) (supported : f.supports e.curveId .g2 = true) :
    decodeBare e f .g2 bs = .ok x ↔
      ∃ Q flags, Layout.decodePoint e e.g2 f bs = .ok (Q, flags) ∧ g2 Q = x := by
  rw [decodeBare_eq_ok_iff, Format.resolve_of_ne_auto named, decodePayload_of_supports supported]
  exact exists_flags_image_iff

theorem decodeFramed_eq_ok_iff :
    decodeFramed e t bs = .ok x ↔ ∃ header payload,
      Header.parse bs = .ok (header, payload) ∧ header.curve = e.curveId ∧ header.elementType = t ∧
      decodePayload e header.format t payload = .ok (x, header.flags) := by
  rw [decodeFramed, bind_eq_ok_iff]
  constructor
  · rintro ⟨⟨header, payload⟩, parsed, found⟩
    dsimp only at found
    split at found
    · cases found
    · rename_i curve_eq
      split at found
      · cases found
      · rename_i type_eq
        obtain ⟨⟨y, flags⟩, read, checked⟩ := bind_eq_ok_iff.1 found
        dsimp only at checked
        split at checked
        · cases checked
        · rename_i flags_eq
          cases checked
          refine ⟨header, payload, parsed, not_not.1 curve_eq, not_not.1 type_eq, ?_⟩
          rw [read, not_not.1 flags_eq]
  · rintro ⟨header, payload, parsed, curve_eq, type_eq, read⟩
    refine ⟨(header, payload), parsed, ?_⟩
    dsimp only
    rw [if_neg (not_not.2 curve_eq), if_neg (not_not.2 type_eq), read, ok_bind]
    exact if_neg (not_not.2 rfl)

theorem decodeFramed_of_other_type {t' : ElementType} (framed : decodeFramed e t bs = .ok x)
    (other : t' ≠ t) : decodeFramed e t' bs = .error (.invalidEncoding .unexpectedType) := by
  obtain ⟨header, payload, parsed, same_curve, rfl, -⟩ := decodeFramed_eq_ok_iff.1 framed
  simp [decodeFramed, parsed, same_curve, other.symm]

end Element

end PairingWire
