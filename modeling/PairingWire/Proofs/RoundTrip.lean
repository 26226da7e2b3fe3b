import PairingWire.Proofs.Codec
import PairingWire.Proofs.Member

/-!
Whatever settings an element is written with, it is read back, framed or bare, in the format named in
the settings or the automatic one. A frame is the header in front of what is written without one.
-/

namespace PairingWire

variable {e : Engine} {x : Element e} {s : Settings} {bs : Bytes}

namespace Element

theorem decodePayload_of_encodePayload {f : Format} {compress : Bool} {encoded : Encoded}
    (named : f ≠ .auto) (supported : f.supports e.curveId x.type = true) (member : x.IsMember)
    (written : x.encodePayload f compress = .ok encoded) :
    decodePayload e f x.type encoded.payload = .ok (x, encoded.flags) :=
  (faithful named supported).decode_encode ⟨rfl, isMember_iff.1 member⟩ written

theorem decodeBare_of_encode (member : x.IsMember) (bare : s.withHeader = false)
    (written : x.encode s = .ok bs) : decodeBare e s.format x.type bs = .ok x := by
  obtain ⟨compress, encoded, supported, _, payload, rfl⟩ := encode_eq_ok_iff.1 written
  rw [bare, if_neg Bool.false_ne_true]
  exact decodeBare_eq_ok_iff.2 ⟨encoded.flags, decodePayload_of_encodePayload
    (Format.resolve_ne_auto _ _ _) supported member payload⟩

theorem parse_of_encode (framed : s.withHeader = true) (written : x.encode s = .ok bs) :
    ∃ compress encoded,
      (s.format.resolve e.curveId x.type).supports e.curveId x.type = true ∧
      x.encodePayload (s.format.resolve e.curveId x.type) compress = .ok encoded ∧
      Header.parse bs =
        .ok (x.headerOf (s.format.resolve e.curveId x.type) encoded.flags, encoded.payload) ∧
      bs.drop Header.size = encoded.payload := by
  obtain ⟨compress, encoded, supported, _, payload, rfl⟩ := encode_eq_ok_iff.1 written
  rw [framed, if_pos rfl]
  refine ⟨compress, encoded, supported, payload, ?_, List.drop_left' rfl⟩
  exact Header.parse_eq_ok_iff.2 ⟨UInt8.le_refl _, Format.resolve_ne_auto _ _ _, rfl⟩

theorem decodeFramed_of_encode (member : x.IsMember) (framed : s.withHeader = true)
    (written : x.encode s = .ok bs) : decodeFramed e x.type bs = .ok x := by
  obtain ⟨compress, encoded, supported, payload, parsed, _⟩ := parse_of_encode framed written
  exact decodeFramed_eq_ok_iff.2 ⟨_, _, parsed, rfl, rfl, decodePayload_of_encodePayload
    (Format.resolve_ne_auto _ _ _) supported member payload⟩

/-- Without the header, a frame is what the same settings write bare. -/
theorem encode_bare_of_encode (framed : s.withHeader = true) (written : x.encode s = .ok bs) :
    x.encode { s with withHeader := false } = .ok (bs.drop Header.size) := by
  obtain ⟨compress, encoded, supported, chosen, payload, rfl⟩ := encode_eq_ok_iff.1 written
  refine encode_eq_ok_iff.2 ⟨compress, encoded, supported, chosen, payload, ?_⟩
  rw [framed, if_pos rfl, if_neg Bool.false_ne_true]
  rfl

/-- Every member is read back from every encoding of it. -/
theorem round_trip_all_settings (member : x.IsMember) (written : x.encode s = .ok bs) :
    (s.withHeader = true →
      decode e true x.type bs = .ok x ∧
      (∃ header, Header.parse bs = .ok (header, bs.drop Header.size) ∧
        decodePayload e header.format x.type (bs.drop Header.size) = .ok (x, header.flags)) ∧
      x.encode { s with withHeader := false } = .ok (bs.drop Header.size) ∧
      decodeBare e s.format x.type (bs.drop Header.size) = .ok x) ∧
    (s.withHeader = false →
      decodeBare e s.format x.type bs = .ok x ∧
      (s.format = .auto → decode e false x.type bs = .ok x)) := by
  constructor
  · intro framed
    have bare := encode_bare_of_encode framed written
    refine ⟨decodeFramed_of_encode member framed written, ?_, bare,
      decodeBare_of_encode (s := { s with withHeader := false }) member rfl bare⟩
    obtain ⟨compress, encoded, supported, payload, parsed, rest⟩ := parse_of_encode framed written
    rw [rest]
    exact ⟨_, parsed, decodePayload_of_encodePayload (Format.resolve_ne_auto _ _ _) supported member
      payload⟩
  · intro bare
    have read := decodeBare_of_encode member bare written
    refine ⟨read, ?_⟩
    intro automatic
    rwa [automatic] at read

theorem round_trip_generator :
    (g1 Engine.bn254.g1.generator : Element .bn254).encode {} =
        .ok ([0x4F, 0x41, 0x42, 0x45, 2, 0xB2, 0x6F, 3, 0] ++ List.replicate 31 0 ++ [1] ++
          List.replicate 31 0 ++ [2]) ∧
      decode .bn254 true .g1 ([0x4F, 0x41, 0x42, 0x45, 2, 0xB2, 0x6F, 3, 0] ++
          List.replicate 31 0 ++ [1] ++ List.replicate 31 0 ++ [2]) =
        .ok (g1 Engine.bn254.g1.generator) := by
  have written : (g1 Engine.bn254.g1.generator : Element .bn254).encode {} =
      .ok ([0x4F, 0x41, 0x42, 0x45, 2, 0xB2, 0x6F, 3, 0] ++ List.replicate 31 0 ++ [1] ++
        List.replicate 31 0 ++ [2]) := by
    decide +kernel
  have member : (g1 Engine.bn254.g1.generator : Element .bn254).IsMember :=
    isMember_iff.2 Engine.bn254.valid_g1_generator
  exact ⟨written, ((round_trip_all_settings member written).1 rfl).1⟩

end Element

end PairingWire
