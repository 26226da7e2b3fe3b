import PairingWire.Proofs.RoundTrip

/-!
The four standard formats have one spelling for each element and form. A payload that is accepted is
what the encoder writes for the element that was read, with the compression of its flags, and a frame
that is accepted is what the encoder writes up to the version octet.
-/

namespace PairingWire

variable {e : Engine} {f : Format} {t : ElementType} {x : Element e} {bs : Bytes} {flags : Flags}

/-- The formats that other implementations share. -/
def Format.standard : List Format := [.sec1, .zcash, .ethereum, .ietf]

theorem Format.ne_auto_of_standard (standard : f ∈ Format.standard) : f ≠ .auto := by
  rintro rfl
  exact absurd standard (by decide)

theorem Format.ne_legacy_of_standard (standard : f ∈ Format.standard) : f ≠ .legacy := by
  rintro rfl
  exact absurd standard (by decide)

namespace Layout

variable {F : Type} {p : Nat} [CoordinateField F p] {P : Point F} {written : Encoded}

theorem Ethereum.no_compressed_form : Ethereum.encodePoint true P ≠ .ok written := by
  unfold Ethereum.encodePoint
  rw [if_pos (.inr rfl)]
  exact fun encoded => nomatch encoded

variable [Modulus p]

theorem Sec1.uncompressed_of_degree (degree : CoordinateField.degree F ≠ 1)
    (encoded : Sec1.encodePoint true P = .ok written) : written.flags.compressed = false := by
  cases P with
  | infinity =>
      cases encoded
      rfl
  | affine x y =>
      rw [Sec1.encodePoint, if_pos rfl, if_pos degree] at encoded
      cases encoded

end Layout

namespace Element

theorem compression_of_encodePayload (standard : f ∈ Format.standard)
    (written : x.encodePayload f flags.compressed = .ok ⟨bs, flags⟩) :
    f.compression x.type (some flags.compressed) = .ok flags.compressed := by
  cases compressed : flags.compressed with
  | false =>
      have choices : ∀ f' ∈ Format.standard, ∀ t, f'.compression t (some false) = .ok false := by
        intro f' member t
        simp only [Format.standard, List.mem_cons, List.not_mem_nil, or_false] at member
        rcases member with rfl | rfl | rfl | rfl <;> cases t <;> rfl
      exact choices f standard x.type
  | true =>
      -- Only formats with a compressed form have written this, and they accept the request.
      rw [compressed] at written
      cases x with
      | zp s =>
          cases written
          cases compressed
      | gt y => cases f <;> first | rfl | exact nomatch written
      | g1 P =>
          cases f with
          | ethereum => exact absurd written Layout.Ethereum.no_compressed_form
          | auto => exact absurd standard (by decide)
          | _ => rfl
      | g2 Q =>
          cases f with
          | ethereum => exact absurd written Layout.Ethereum.no_compressed_form
          | auto => exact absurd standard (by decide)
          | sec1 =>
              have uncompressed := Layout.Sec1.uncompressed_of_degree
                (F := Fq2 e) (Nat.succ_ne_self 1) written
              rw [compressed] at uncompressed
              cases uncompressed
          | _ => rfl

theorem encodePayload_of_decodePayload (standard : f ∈ Format.standard)
    (found : decodePayload e f t bs = .ok (x, flags)) :
    x.type = t ∧ f.supports e.curveId x.type = true ∧
      f.compression x.type (some flags.compressed) = .ok flags.compressed ∧
      x.encodePayload f flags.compressed = .ok ⟨bs, flags⟩ := by
  have supported := supports_of_decodePayload found
  have laws := canonical (e := e) (Format.ne_auto_of_standard standard)
    (Format.ne_legacy_of_standard standard) supported
  obtain ⟨rfl, _⟩ := laws.valid_of_decode found
  have written := laws.encode_decode found
  exact ⟨rfl, supported, compression_of_encodePayload standard written, written⟩

theorem encode_of_decodePayload (standard : f ∈ Format.standard)
    (found : decodePayload e f t bs = .ok (x, flags)) :
    x.encode ⟨f, some flags.compressed, false⟩ = .ok bs := by
  obtain ⟨rfl, supported, chosen, written⟩ := encodePayload_of_decodePayload standard found
  have resolved := Format.resolve_of_ne_auto (Format.ne_auto_of_standard standard) e.curveId x.type
  refine encode_eq_ok_iff.2 ⟨flags.compressed, ⟨bs, flags⟩, ?_⟩
  dsimp only
  rw [resolved]
  exact ⟨supported, chosen, written, rfl⟩

theorem encode_of_decodeFramed {header : Header} {payload : Bytes}
    (parsed : Header.parse bs = .ok (header, payload)) (standard : header.format ∈ Format.standard)
    (found : decodeFramed e t bs = .ok x) :
    x.encode ⟨header.format, some header.flags.compressed, true⟩ =
      .ok (bs.set 4 Header.currentVersion) := by
  obtain ⟨header', payload', parsed', curve_eq, type_eq, read⟩ := decodeFramed_eq_ok_iff.1 found
  rw [parsed] at parsed'
  cases parsed'
  obtain ⟨same_type, supported, chosen, written⟩ := encodePayload_of_decodePayload standard read
  have resolved := Format.resolve_of_ne_auto (Format.ne_auto_of_standard standard) e.curveId x.type
  refine encode_eq_ok_iff.2 ⟨header.flags.compressed, ⟨payload, header.flags⟩, ?_⟩
  dsimp only
  rw [resolved]
  refine ⟨supported, chosen, written, ?_⟩
  rw [if_pos rfl, ← (Header.parse_eq_ok_iff.1 parsed).2.2, headerOf, same_type, ← type_eq, ← curve_eq]
  rfl

/-- What the standard formats accept has one spelling in each form. -/
theorem standard_formats_canonical :
    (∀ f ∈ Format.standard, ∀ (t : ElementType) (bs : Bytes) (x : Element e),
      decodeBare e f t bs = .ok x → ∃ c, x.encode ⟨f, some c, false⟩ = .ok bs) ∧
    (∀ (t : ElementType) (bs : Bytes) (x : Element e) (header : Header) (payload : Bytes),
      Header.parse bs = .ok (header, payload) → header.format ∈ Format.standard →
      decode e true t bs = .ok x →
      x.encode ⟨header.format, some header.flags.compressed, true⟩ = .ok (bs.set 4 2)) ∧
    (∀ f ∈ Format.standard, ∀ (t t' : ElementType) (bs bs' : Bytes) (x : Element e)
      (flags flags' : Flags),
      decodePayload e f t bs = .ok (x, flags) → decodePayload e f t' bs' = .ok (x, flags') →
      flags.compressed = flags'.compressed → bs = bs') ∧
    (∀ (t t' : ElementType) (bs bs' : Bytes) (x : Element e) (header header' : Header)
      (payload payload' : Bytes),
      Header.parse bs = .ok (header, payload) → Header.parse bs' = .ok (header', payload') →
      header.format ∈ Format.standard → header'.format = header.format →
      header'.flags.compressed = header.flags.compressed →
      decode e true t bs = .ok x → decode e true t' bs' = .ok x → bs.set 4 2 = bs'.set 4 2) := by
  refine ⟨?_, ?_, ?_, ?_⟩
  · intro f standard t bs x found
    obtain ⟨flags, read⟩ := decodeBare_eq_ok_iff.1 found
    rw [Format.resolve_of_ne_auto (Format.ne_auto_of_standard standard)] at read
    exact ⟨flags.compressed, encode_of_decodePayload standard read⟩
  · intro t bs x header payload parsed standard found
    exact encode_of_decodeFramed parsed standard found
  · intro f standard t t' bs bs' x flags flags' read read' same
    have written := encode_of_decodePayload standard read
    rw [same, encode_of_decodePayload standard read'] at written
    exact (Except.ok.inj written).symm
  · intro t t' bs bs' x header header' payload payload' parsed parsed' standard format_eq same
      read read'
    have written := encode_of_decodeFramed parsed standard read
    have written' := encode_of_decodeFramed parsed' (format_eq ▸ standard) read'
    rw [format_eq, same, written] at written'
    exact Except.ok.inj written'

theorem version_one_generator :
    decode .bn254 true .g1 ([0x4F, 0x41, 0x42, 0x45, 1, 0xB2, 0x6F, 3, 0] ++
        (List.replicate 31 0 ++ [1] ++ List.replicate 31 0 ++ [2])) =
      .ok (g1 Engine.bn254.g1.generator) ∧
    (g1 Engine.bn254.g1.generator : Element .bn254).encode ⟨.ethereum, some false, true⟩ =
      .ok ([0x4F, 0x41, 0x42, 0x45, 2, 0xB2, 0x6F, 3, 0] ++
        (List.replicate 31 0 ++ [1] ++ List.replicate 31 0 ++ [2])) := by
  have payload : (g1 Engine.bn254.g1.generator : Element .bn254).encodePayload .ethereum false =
      .ok ⟨List.replicate 31 0 ++ [1] ++ List.replicate 31 0 ++ [2], {}⟩ := by
    decide +kernel
  have member : (g1 Engine.bn254.g1.generator : Element .bn254).IsMember :=
    isMember_iff.2 Engine.bn254.valid_g1_generator
  have read := decodePayload_of_encodePayload (by decide) (by decide) member payload
  have found := decodeFramed_eq_ok_iff.2 ⟨⟨1, .g1, .bnP254, .ethereum, {}⟩, _,
    Header.parse_eq_ok_iff.2 ⟨by decide, by decide, rfl⟩, rfl, rfl, read⟩
  exact ⟨found, standard_formats_canonical.2.1 .g1 _ _ _ _
    (Header.parse_eq_ok_iff.2 ⟨by decide, by decide, rfl⟩) (by decide) found⟩

end Element

end PairingWire
