import PairingWire.Proofs.Expressible
import PairingWire.Proofs.Interchange
import PairingWire.Proofs.Layout.SignOrder
import PairingWire.Proofs.Soundness

/-!
The octet of flags in a header and the flags in the first octet of a payload. In the formats with flag bits
the former is the latter without the five bits below, in whatever is written and in whatever is accepted, and
both say of the point what they stand for. So neither can be changed alone.
-/

namespace PairingWire

/-- The ordinate is the larger one of the two with its abscissa, as their octets compare. -/
def Point.HasLargerRoot {F : Type} {p : Nat} [Modulus p] [CoordinateField F p] [Neg F] :
    Point F → Prop
  | .infinity => False
  | .affine _ y => compare (Layout.putCoordinate y) (Layout.putCoordinate (-y)) = .gt

namespace Flags

/-- An octet of flags says of a point what the first octet of its payload says. -/
structure Mirrored (octet first : UInt8) (isCompressed isInfinity : Bool) (largerRoot : Prop) : Prop where
  mask : octet = first &&& 0xE0
  cyclotomic : octet &&& 0x10 = 0
  compressed : octet &&& 0x80 ≠ 0 ↔ isCompressed = true
  infinity : octet &&& 0x40 ≠ 0 ↔ isInfinity = true
  ySign : octet &&& 0x20 ≠ 0 ↔ isCompressed = true ∧ largerRoot

theorem bits_toByte (flags : Flags) :
    (flags.toByte &&& 0x80 ≠ 0 ↔ flags.compressed = true) ∧
      (flags.toByte &&& 0x40 ≠ 0 ↔ flags.infinity = true) ∧
      (flags.toByte &&& 0x20 ≠ 0 ↔ flags.ySign = true) ∧
      (flags.toByte &&& 0x10 ≠ 0 ↔ flags.cyclotomic = true) := by
  obtain ⟨compressed, infinity, ySign, cyclotomic⟩ := flags
  cases compressed <;> cases infinity <;> cases ySign <;> cases cyclotomic <;> decide

end Flags

namespace Layout.FlagBits

theorem mark_and_flagMask : ∀ b : UInt8, b &&& flagMask = 0 → ∀ compressed infinity larger : Bool,
    mark b compressed infinity larger &&& flagMask =
      Flags.toByte ⟨compressed, infinity, larger, false⟩ := by
  decide +kernel

theorem eq_of_bits {b b' : UInt8} (flags : b &&& flagMask = b' &&& flagMask)
    (low : b &&& 0x1F = b' &&& 0x1F) : b = b' := by
  have split : ∀ b : UInt8, (b &&& flagMask) ||| (b &&& 0x1F) = b := by decide +kernel
  rw [← split b, flags, low, split b']

section Form

variable {F : Type} {p : Nat} [Modulus p] [CoordinateField F p] [Field F] [DecidableEq F] {C : Curve F}
  {bs : Bytes} {P : Point F} {flags : Flags}

theorem Form.exists_first (form : Form C bs P flags) :
    ∃ first rest, bs = first :: rest ∧ flags.toByte = first &&& flagMask := by
  cases form with
  | infinity compressed => exact ⟨_, _, rfl, (mark_and_flagMask 0 rfl compressed true false).symm⟩
  | compressed split free valid => exact ⟨_, _, rfl, (mark_and_flagMask _ free true false _).symm⟩
  | uncompressed split free valid => exact ⟨_, _, rfl, (mark_and_flagMask _ free false false false).symm⟩

theorem Form.cyclotomic_eq (form : Form C bs P flags) : flags.cyclotomic = false := by
  cases form with
  | infinity | compressed | uncompressed => rfl

theorem Form.infinity_eq (form : Form C bs P flags) : flags.infinity = P.isInfinity := by
  cases form with
  | infinity | compressed | uncompressed => rfl

variable [LawfulCoordinates F] [OddPrime p]

theorem Form.ySign_iff (form : Form C bs P flags) :
    flags.ySign = true ↔ flags.compressed = true ∧ P.HasLargerRoot := by
  cases form with
  | infinity compressed => simp [Point.HasLargerRoot]
  | compressed split free valid => simp [Point.HasLargerRoot, signBit_lexicographic_iff]
  | uncompressed split free valid => simp

theorem Form.mirrored (form : Form C bs P flags) : ∃ first rest, bs = first :: rest ∧
    Flags.Mirrored flags.toByte first flags.compressed P.isInfinity P.HasLargerRoot := by
  obtain ⟨first, rest, split, masked⟩ := form.exists_first
  obtain ⟨compressed, infinity, ySign, cyclotomic⟩ := flags.bits_toByte
  refine ⟨first, rest, split, ?_⟩
  constructor
  · exact masked
  · rw [form.cyclotomic_eq] at cyclotomic
    simpa using cyclotomic
  · exact compressed
  · rw [infinity, form.infinity_eq]
  · rw [ySign, form.ySign_iff]

end Form

end Layout.FlagBits

theorem Layout.mirrored_of_decodePoint {e : Engine} {F : Type} [CoordinateField F e.fieldOrder] [Field F]
    [DecidableEq F] [LawfulCoordinates F] {C : Curve F} {f : Format} {bs : Bytes} {P : Point F}
    {flags : Flags} (flagged : f = .zcash ∨ f = .ietf)
    (found : decodePoint e C f bs = .ok (P, flags)) : ∃ first rest, bs = first :: rest ∧
      Flags.Mirrored flags.toByte first flags.compressed P.isInfinity P.HasLargerRoot := by
  rcases flagged with rfl | rfl
  · exact (FlagBits.form_of_decode found).mirrored
  · exact (FlagBits.form_of_decode found).mirrored

namespace Element

variable {e : Engine} {t t' : ElementType} {x x' : Element e} {bs bs' payload : Bytes} {f : Format}
  {flags : Flags}

def HasLargerRoot : Element e → Prop
  | g1 P => P.HasLargerRoot
  | g2 Q => Q.HasLargerRoot
  | _ => False

theorem mirrored_of_decodePayload (point : t = .g1 ∨ t = .g2) (flagged : f = .zcash ∨ f = .ietf)
    (read : decodePayload e f t payload = .ok (x, flags)) : ∃ first rest, payload = first :: rest ∧
      Flags.Mirrored flags.toByte first flags.compressed x.isInfinity x.HasLargerRoot := by
  rw [decodePayload_of_supports (supports_of_decodePayload read)] at read
  rcases point with rfl | rfl
  · obtain ⟨⟨P, _⟩, found, same⟩ := bind_eq_ok_iff.1 read
    cases same
    exact Layout.mirrored_of_decodePoint flagged found
  · obtain ⟨⟨Q, _⟩, found, same⟩ := bind_eq_ok_iff.1 read
    cases same
    exact Layout.mirrored_of_decodePoint flagged found

/-- A frame that is accepted for a point, in a format with flag bits. -/
structure FlaggedFrame (t : ElementType) (x : Element e) (bs : Bytes) : Prop where
  accepted : decode e true t bs = .ok x
  point : t = .g1 ∨ t = .g2
  flagged : bs[7]? = some Format.zcash.toByte ∨ bs[7]? = some Format.ietf.toByte

/-- The octets of flags in a frame, of a header and of a payload, say the same of the point. -/
def FlagsShown (x : Element e) (bs : Bytes) (compressed : Bool) : Prop :=
  ∃ octet first, bs[8]? = some octet ∧ bs[9]? = some first ∧
    Flags.Mirrored octet first compressed x.isInfinity x.HasLargerRoot

namespace FlaggedFrame

theorem exists_header (frame : FlaggedFrame t x bs) : ∃ header payload,
    Header.parse bs = .ok (header, payload) ∧ header.elementType = t ∧
      (header.format = .zcash ∨ header.format = .ietf) ∧
      decodePayload e header.format t payload = .ok (x, header.flags) := by
  obtain ⟨header, payload, parsed, _, type_eq, read⟩ := decodeFramed_eq_ok_iff.1 frame.accepted
  refine ⟨header, payload, parsed, type_eq, ?_, read⟩
  have place := (Header.octets_of_parse parsed).2.1
  rcases frame.flagged with zcash | ietf
  · rw [place] at zcash
    exact .inl (Format.toByte_injective (Option.some.inj zcash))
  · rw [place] at ietf
    exact .inr (Format.toByte_injective (Option.some.inj ietf))

theorem flagsShown (frame : FlaggedFrame t x bs) : ∃ f flags, (f = .zcash ∨ f = .ietf) ∧
    FlagsShown x bs flags.compressed ∧ bs.length = Header.size + payloadLength e f flags t := by
  obtain ⟨header, payload, parsed, type_eq, flagged, read⟩ := frame.exists_header
  obtain ⟨first, rest, split, mirrored⟩ := mirrored_of_decodePayload frame.point flagged read
  obtain ⟨_, _, octet_place, first_place⟩ := Header.octets_of_parse parsed
  refine ⟨header.format, header.flags, flagged, ⟨_, first, octet_place, ?_, mirrored⟩, ?_⟩
  · rw [first_place, split]
    rfl
  · rw [Header.length_of_parse parsed, length_of_decodePayload read]

theorem of_kind (frame : FlaggedFrame t x bs) (type_kept : bs'[5]? = bs[5]?)
    (format_kept : bs'[7]? = bs[7]?) (found : decode e true t' bs' = .ok x') :
    FlaggedFrame t' x' bs' where
  accepted := found
  point := by
    obtain ⟨header, payload, parsed, rfl, _⟩ := frame.exists_header
    obtain ⟨header', payload', parsed', _, rfl, _⟩ := decodeFramed_eq_ok_iff.1 found
    rw [(Header.octets_of_parse parsed).1, (Header.octets_of_parse parsed').1] at type_kept
    rw [ElementType.toByte_injective (Option.some.inj type_kept)]
    exact frame.point
  flagged := by
    rw [format_kept]
    exact frame.flagged

theorem exists_octets (frame : FlaggedFrame t x bs) :
    ∃ octet first, bs[8]? = some octet ∧ bs[9]? = some first := by
  obtain ⟨_, _, _, ⟨octet, first, octet_place, first_place, _⟩, _⟩ := frame.flagsShown
  exact ⟨octet, first, octet_place, first_place⟩

theorem mask (frame : FlaggedFrame t x bs) {octet first : UInt8} (octet_place : bs[8]? = some octet)
    (first_place : bs[9]? = some first) : octet = first &&& 0xE0 := by
  obtain ⟨_, _, _, ⟨octet', first', octet_place', first_place', mirrored⟩, _⟩ := frame.flagsShown
  rw [octet_place] at octet_place'
  rw [first_place] at first_place'
  cases octet_place'
  cases first_place'
  exact mirrored.mask

theorem refused_of_mask_ne (frame : FlaggedFrame t x bs) (type_kept : bs'[5]? = bs[5]?)
    (format_kept : bs'[7]? = bs[7]?) {octet first : UInt8} (octet_place : bs'[8]? = some octet)
    (first_place : bs'[9]? = some first) (differ : octet ≠ first &&& 0xE0) (t' : ElementType) :
    ∃ err, decode e true t' bs' = .error err := by
  apply exists_error_of_ne_ok
  intro x' found
  apply differ
  exact (frame.of_kind type_kept format_kept found).mask octet_place first_place

theorem refused_of_set_octet (frame : FlaggedFrame t x bs) {octet b : UInt8}
    (octet_place : bs[8]? = some octet) (other : b ≠ octet) (t' : ElementType) :
    ∃ err, decode e true t' (bs.set 8 b) = .error err := by
  obtain ⟨_, first, _, first_place⟩ := frame.exists_octets
  have inside : 8 < bs.length := (List.getElem?_eq_some_iff.1 octet_place).1
  have changed : (bs.set 8 b)[8]? = some b := by simp [inside]
  have kept : (bs.set 8 b)[9]? = some first := by simpa using first_place
  apply frame.refused_of_mask_ne (by simp) (by simp) changed kept
  rw [← frame.mask octet_place first_place]
  exact other

theorem refused_of_set_first (frame : FlaggedFrame t x bs) {first b : UInt8}
    (first_place : bs[9]? = some first) (other : b ≠ first) (low : b &&& 0x1F = first &&& 0x1F)
    (t' : ElementType) : ∃ err, decode e true t' (bs.set 9 b) = .error err := by
  obtain ⟨octet, _, octet_place, _⟩ := frame.exists_octets
  have inside : 9 < bs.length := (List.getElem?_eq_some_iff.1 first_place).1
  have kept : (bs.set 9 b)[8]? = some octet := by simpa using octet_place
  have changed : (bs.set 9 b)[9]? = some b := by simp [inside]
  apply frame.refused_of_mask_ne (by simp) (by simp) kept changed
  rw [frame.mask octet_place first_place]
  intro same
  exact other (Layout.FlagBits.eq_of_bits same.symm low)

end FlaggedFrame

def flaggedSize (t : ElementType) (compressed : Bool) : Nat :=
  9 + (if compressed then 1 else 2) * (if t = .g1 then 48 else 96)

theorem flaggedSize_injective (t : ElementType) : Function.Injective (flaggedSize t) := by
  intro compressed compressed' same
  cases t <;> cases compressed <;> cases compressed' <;> first | rfl | cases same

theorem payloadLength_flagged (point : t = .g1 ∨ t = .g2) (flagged : f = .zcash ∨ f = .ietf)
    (flags : Flags) :
    Header.size + payloadLength .bls12P381 f flags t = flaggedSize t flags.compressed := by
  have base : Layout.coordinateWidth (Fq .bls12P381) = 48 := by decide
  have extension : Layout.coordinateWidth (Fq2 .bls12P381) = 96 := by decide
  have tagless : f ≠ .sec1 := by rcases flagged with rfl | rfl <;> decide
  rcases point with rfl | rfl <;>
    simp only [payloadLength, Layout.pointLength, if_neg tagless, Layout.FlagBits.bodyWidth, base,
      extension, flaggedSize, Header.size] <;>
    cases flags.compressed <;> rfl

theorem payloadSize_flagged (point : t = .g1 ∨ t = .g2) (flagged : f = .zcash ∨ f = .ietf)
    (compressed infinity : Bool) :
    Header.size + payloadSize .bls12P381 f t compressed infinity = flaggedSize t compressed := by
  rcases point with rfl | rfl <;> rcases flagged with rfl | rfl <;> cases compressed <;> rfl

theorem supports_flagged (point : t = .g1 ∨ t = .g2) (flagged : f = .zcash ∨ f = .ietf) :
    f.supports Engine.bls12P381.curveId t = true := by
  rcases point with rfl | rfl <;> rcases flagged with rfl | rfl <;> rfl

theorem compresses_flagged (point : t = .g1 ∨ t = .g2) (flagged : f = .zcash ∨ f = .ietf)
    (requested : Option Bool) : f.compresses t requested = decide (requested ≠ some false) := by
  rcases point with rfl | rfl <;> rcases flagged with rfl | rfl <;> simp [Format.compresses]

section Bls

variable {y : Element .bls12P381} {s : Settings}

theorem FlaggedFrame.flagsShown_size (frame : FlaggedFrame t y bs) :
    ∃ compressed, FlagsShown y bs compressed ∧ bs.length = flaggedSize t compressed := by
  obtain ⟨f, flags, flagged, shown, total⟩ := frame.flagsShown
  exact ⟨flags.compressed, shown, total.trans (payloadLength_flagged frame.point flagged flags)⟩

theorem exists_flaggedFrame (member : y.IsMember) (point : y.IsPoint) (framed : s.withHeader = true)
    (flagged : s.format.resolve Engine.bls12P381.curveId y.type = .zcash ∨
      s.format.resolve Engine.bls12P381.curveId y.type = .ietf) :
    ∃ bs, y.encode s = .ok bs ∧ FlaggedFrame y.type y bs ∧
      FlagsShown y bs (s.compress ≠ some false) ∧
      bs.length = flaggedSize y.type (s.compress ≠ some false) := by
  have granted : ¬s.Refused Engine.bls12P381.curveId y.type := by
    intro refused
    rcases refused with unsupported | lacking
    · rw [supports_flagged point flagged] at unsupported
      cases unsupported
    · exact Format.not_lacksForm_of_flagged flagged lacking
  obtain ⟨bs, written⟩ := exists_encode_iff.2 granted
  obtain ⟨_, _, _, _, parsed, _⟩ := parse_of_encode framed written
  have frame : FlaggedFrame y.type y bs := by
    refine ⟨decodeFramed_of_encode member framed written, point, ?_⟩
    rw [(Header.octets_of_parse parsed).2.1, headerOf]
    rcases flagged with zcash | ietf
    · exact .inl (by rw [zcash])
    · exact .inr (by rw [ietf])
  have total := length_of_encode written
  rw [framed, if_pos rfl, payloadSize_flagged point flagged, compresses_flagged point flagged] at total
  -- The frame shows some form, and its length leaves only the one that was asked for.
  obtain ⟨compressed, shown, total'⟩ := frame.flagsShown_size
  rw [flaggedSize_injective y.type (total'.symm.trans total)] at shown
  exact ⟨bs, written, frame, shown, total⟩

end Bls

/--
On the BLS engine every framed point, in a format with flag bits, has the flags of its payload in its header,
as it is written and as it is accepted: the form, which the length shows as well, the identity, and the larger
root of a compressed point. No other octet of flags is accepted with the payload, and no other flags in the
payload with the header.
-/
theorem header_flags_mirror_payload :
    (∀ (x : Element .bls12P381) (s : Settings), x.IsMember → x.IsPoint → s.withHeader = true →
      (s.format.resolve .bls12P381 x.type = .zcash ∨ s.format.resolve .bls12P381 x.type = .ietf) →
      ∃ bs, x.encode s = .ok bs ∧ FlaggedFrame x.type x bs ∧
        FlagsShown x bs (s.compress ≠ some false) ∧
        bs.length = flaggedSize x.type (s.compress ≠ some false)) ∧
    (∀ (t : ElementType) (x : Element .bls12P381) (bs : Bytes), FlaggedFrame t x bs →
      (∃ compressed, FlagsShown x bs compressed ∧ bs.length = flaggedSize t compressed) ∧
      (∀ octet b, bs[8]? = some octet → b ≠ octet →
        ∀ t', ∃ err, decode .bls12P381 true t' (bs.set 8 b) = .error err) ∧
      (∀ first b, bs[9]? = some first → b ≠ first → b &&& 0x1F = first &&& 0x1F →
        ∀ t', ∃ err, decode .bls12P381 true t' (bs.set 9 b) = .error err)) := by
  constructor
  · intro x s member point framed flagged
    exact exists_flaggedFrame member point framed flagged
  · intro t x bs frame
    refine ⟨frame.flagsShown_size, ?_, ?_⟩
    · intro octet b place other t'
      exact frame.refused_of_set_octet place other t'
    · intro first b place other low t'
      exact frame.refused_of_set_first place other low t'

/--
The generator of the first group, compressed: its ordinate is the smaller root. Neither the header nor the
payload can be made to name the larger one alone.
-/
theorem header_flags_mirror_generator :
    (g1 Engine.bls12P381.g1.generator : Element .bls12P381).encode {} =
        .ok ([0x4F, 0x41, 0x42, 0x45, 2, 0xB2, 0xA2, 2, 0x80] ++ generatorBytes) ∧
      ¬(g1 Engine.bls12P381.g1.generator : Element .bls12P381).HasLargerRoot ∧
      (∀ t, ∃ err, decode .bls12P381 true t
        ([0x4F, 0x41, 0x42, 0x45, 2, 0xB2, 0xA2, 2, 0xA0] ++ generatorBytes) = .error err) ∧
      ∀ t, ∃ err, decode .bls12P381 true t
        ([0x4F, 0x41, 0x42, 0x45, 2, 0xB2, 0xA2, 2, 0x80] ++ generatorBytes.set 0 0xB7) =
          .error err := by
  have member : (g1 Engine.bls12P381.g1.generator : Element .bls12P381).IsMember :=
    isMember_iff.2 Engine.bls12P381.valid_g1_generator
  have encoded : (g1 Engine.bls12P381.g1.generator : Element .bls12P381).encode {} =
      .ok ([0x4F, 0x41, 0x42, 0x45, 2, 0xB2, 0xA2, 2, 0x80] ++ generatorBytes) := rfl
  obtain ⟨bs, written, frame, shown, _⟩ :=
    header_flags_mirror_payload.1 (g1 Engine.bls12P381.g1.generator) {} member (.inl rfl) rfl (.inl rfl)
  rw [encoded] at written
  cases written
  obtain ⟨octet, first, octet_place, _, mirrored⟩ := shown
  cases octet_place
  obtain ⟨_, octet_fixed, first_fixed⟩ := header_flags_mirror_payload.2 _ _ _ frame
  refine ⟨encoded, ?_, ?_, ?_⟩
  · intro larger
    exact mirrored.ySign.2 ⟨rfl, larger⟩ rfl
  · exact octet_fixed 0x80 0xA0 rfl (by decide)
  · exact first_fixed 0x97 0xB7 rfl (by decide) (by decide)

end Element

end PairingWire
