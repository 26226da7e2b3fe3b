import PairingWire.Proofs.Spelling

/-!
On the BLS engine the native layout of points and the compressed layout with flags are one and the
same: both write the same strings, and native data is what the other layout reads with the compression
flag set.
-/

namespace PairingWire

def Bytes.topBit : Bytes → Bool
  | [] => false
  | first :: _ => first &&& 0x80 ≠ 0

namespace Layout

section

variable {F : Type} {p : Nat} [Modulus p] [CoordinateField F p] [Field F] [LawfulCoordinates F]

theorem FlagBits.encodePoint_eq_native (spare : p ≤ 0x20 * 256 ^ (Residue.width p - 1)) (f : Format)
    (P : Point F) : ∃ flags, flags.compressed = true ∧
      FlagBits.encodePoint f true P = .ok ⟨Native.encodePoint .bls12P381 P, flags⟩ := by
  cases P with
  | infinity => exact ⟨_, rfl, rfl⟩
  | affine x y =>
      refine ⟨{ compressed := true, ySign := signBit .lexicographic y }, rfl, ?_⟩
      rw [FlagBits.encodePoint, FlagBits.flagsFree_putCoordinate spare]
      rfl

end

variable {F : Type} {p : Nat} [Modulus p] [CoordinateField F p] [Field F] [DecidableEq F]
  [LawfulCoordinates F] [OddPrime p] {C : Curve F} {bs : Bytes} {P : Point F}

/-- Both layouts read the same strings, those with the compression flag, as the same points. -/
theorem Native.decodePoint_iff_flagBits [C.Smooth]
    (spare : p ≤ 0x20 * 256 ^ (Residue.width p - 1)) (odd : Odd C.order) :
    Native.decodePoint .bls12P381 C bs = .ok P ↔
      bs.topBit = true ∧ ∃ flags, FlagBits.decodePoint C bs = .ok (P, flags) := by
  constructor
  · intro native
    obtain ⟨valid, spelled⟩ := (Native.decodePoint_eq_ok_iff spare odd).1 native
    obtain rfl := spelled.eq_encodePoint (.inl rfl)
    obtain ⟨flags, _, encoded⟩ := FlagBits.encodePoint_eq_native spare .zcash P
    obtain ⟨first, rest, split, flagged⟩ := Native.encodePoint_eq_cons spare P
    refine ⟨?_, flags, (FlagBits.form_of_encode valid encoded).decode⟩
    rw [split]
    exact decide_eq_true flagged
  · rintro ⟨flagged, flags, found⟩
    have form := FlagBits.form_of_decode found
    obtain ⟨flags', compressed', encoded⟩ := FlagBits.encodePoint_eq_native spare .zcash P
    have compressed : flags.compressed = true := by
      cases bs with
      | nil => cases flagged
      | cons first rest => rw [form.compressed_eq]; exact flagged
    have written := form.encode .zcash
    rw [compressed, encoded] at written
    cases written
    exact Native.decodePoint_encodePoint spare form.valid

theorem exists_decodePoint_native_iff {F : Type} [CoordinateField F Engine.bls12P381.fieldOrder]
    [Field F] [DecidableEq F] [LawfulCoordinates F] {C : Curve F} [C.Smooth] (odd : Odd C.order)
    {image : Point F → Element .bls12P381} {x : Element .bls12P381} :
    (∃ P, Native.decodePoint .bls12P381 C bs = .ok P ∧ image P = x) ↔
      bs.topBit = true ∧
        ∃ P flags, decodePoint .bls12P381 C .zcash bs = .ok (P, flags) ∧ image P = x := by
  have same_strings {P : Point F} : Native.decodePoint .bls12P381 C bs = .ok P ↔
      bs.topBit = true ∧ ∃ flags, FlagBits.decodePoint C bs = .ok (P, flags) :=
    Native.decodePoint_iff_flagBits Engine.bls12P381.fieldOrder_le odd
  constructor
  · rintro ⟨P, native, same⟩
    obtain ⟨flagged, flags, read⟩ := same_strings.1 native
    exact ⟨flagged, P, flags, read, same⟩
  · rintro ⟨flagged, P, flags, read, same⟩
    exact ⟨P, same_strings.2 ⟨flagged, flags, read⟩, same⟩

end Layout

namespace Element

def IsPoint {e : Engine} (x : Element e) : Prop := x.type = .g1 ∨ x.type = .g2

theorem encode_compressed_eq_native {x : Element .bls12P381} (point : x.IsPoint) :
    x.encode ⟨.zcash, some true, false⟩ = .ok x.nativeBytes := by
  have spare := Engine.bls12P381.fieldOrder_le
  cases x with
  | g1 P =>
      obtain ⟨flags, _, encoded⟩ := Layout.FlagBits.encodePoint_eq_native spare .zcash P
      exact encode_eq_ok_iff.2 ⟨true, _, rfl, rfl, encoded, rfl⟩
  | g2 Q =>
      obtain ⟨flags, _, encoded⟩ := Layout.FlagBits.encodePoint_eq_native spare .zcash Q
      exact encode_eq_ok_iff.2 ⟨true, _, rfl, rfl, encoded, rfl⟩
  | zp s => rcases point with impossible | impossible <;> cases impossible
  | gt y => rcases point with impossible | impossible <;> cases impossible

theorem decodeBare_native_iff {t : ElementType} (point : t = .g1 ∨ t = .g2) {bs : Bytes}
    {x : Element .bls12P381} :
    decodeBare .bls12P381 .legacy t bs = .ok x ↔
      bs.topBit = true ∧ decodeBare .bls12P381 .zcash t bs = .ok x := by
  rcases point with rfl | rfl
  · rw [decodeBare_legacy_g1_eq_ok_iff, decodeBare_g1_eq_ok_iff (by decide) rfl]
    exact Layout.exists_decodePoint_native_iff Engine.bls12P381.odd_g1_order
  · rw [decodeBare_legacy_g2_eq_ok_iff, decodeBare_g2_eq_ok_iff (by decide) rfl]
    exact Layout.exists_decodePoint_native_iff Engine.bls12P381.odd_g2_order

/--
For points of the BLS engine the native layout writes what the compressed layout with flags writes, and
reads what that layout reads with the first flag set, the point at infinity included.
-/
theorem native_is_compressed_form :
    (∀ x : Element .bls12P381, x.IsPoint → ∀ requested : Option Bool, ∃ bs,
      x.encode ⟨.legacy, requested, false⟩ = .ok bs ∧
      x.encode ⟨.zcash, some true, false⟩ = .ok bs) ∧
    (∀ t : ElementType, t = .g1 ∨ t = .g2 → ∀ (bs : Bytes) (x : Element .bls12P381),
      decodeBare .bls12P381 .legacy t bs = .ok x ↔
        bs.topBit = true ∧ decodeBare .bls12P381 .zcash t bs = .ok x) := by
  constructor
  · intro x point requested
    exact ⟨x.nativeBytes, encode_legacy_bare x requested, encode_compressed_eq_native point⟩
  · intro t point bs x
    exact decodeBare_native_iff point

def generatorBytes : Bytes :=
  Bytes.ofNatBE 48
    0x97f1d3a73197d7942695638c4fa9ac0fc3688c4f9774b905a14e3a3f171bac586c55e83ff97a1aeffb3af00adb22c6bb

theorem generator_interchanged :
    (g1 Engine.bls12P381.g1.generator : Element .bls12P381).encode ⟨.zcash, some true, false⟩ =
        .ok generatorBytes ∧
      decodeBare .bls12P381 .legacy .g1 generatorBytes = .ok (g1 Engine.bls12P381.g1.generator) ∧
      generatorBytes.topBit = true ∧
      decodeBare .bls12P381 .zcash .g1 generatorBytes = .ok (g1 Engine.bls12P381.g1.generator) := by
  have native : (g1 Engine.bls12P381.g1.generator : Element .bls12P381).encode
      ⟨.legacy, none, false⟩ = .ok generatorBytes := rfl
  have member : (g1 Engine.bls12P381.g1.generator : Element .bls12P381).IsMember :=
    isMember_iff.2 Engine.bls12P381.valid_g1_generator
  have found := decodeBare_of_encode member rfl native
  obtain ⟨bs, written, compressed⟩ :=
    native_is_compressed_form.1 (g1 Engine.bls12P381.g1.generator) (.inl rfl) none
  rw [native] at written
  cases written
  exact ⟨compressed, found, (native_is_compressed_form.2 .g1 (.inl rfl) _ _).1 found⟩

end Element

end PairingWire
