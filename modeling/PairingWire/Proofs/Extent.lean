import PairingWire.Proofs.Codec

/-!
How long encodings are. Format, type and flags fix the length of a payload, so nothing has to announce
it. A payload holds whole field elements, after one octet of tag in a SEC 1 string, and the widths of
all fields are multiples of sixteen: the length of a payload is 0 or 1 modulo sixteen, and that of a
frame 9 or 10.
-/

namespace PairingWire

namespace Layout

def pointLength (F : Type) {p : Nat} [CoordinateField F p] (f : Format) (flags : Flags) : Nat :=
  let body := FlagBits.bodyWidth F flags.compressed
  if f = .sec1 then if flags.infinity then 1 else 1 + body else body

def targetLength (e : Engine) (flags : Flags) : Nat :=
  (if flags.compressed then 4 else 6) * coordinateWidth (Fq2 e)

end Layout

def payloadLength (e : Engine) (f : Format) (flags : Flags) : ElementType → Nat
  | .zp => Residue.width e.groupOrder
  | .g1 => Layout.pointLength (Fq e) f flags
  | .g2 => Layout.pointLength (Fq2 e) f flags
  | .gt => Layout.targetLength e flags

namespace Layout

variable {e : Engine} {f : Format} {bs : Bytes} {flags : Flags}

theorem length_encodeScalar (f : Format) (s : Fr e) :
    (encodeScalar f s).length = Residue.width e.groupOrder := by
  unfold encodeScalar
  split
  · rw [List.length_reverse, Residue.length_toBytes]
  · exact Residue.length_toBytes s

theorem length_of_decodePoint {F : Type} [CoordinateField F e.fieldOrder] [Field F] [DecidableEq F]
    [LawfulCoordinates F] {C : Curve F} {P : Point F}
    (found : decodePoint e C f bs = .ok (P, flags)) : bs.length = pointLength F f flags := by
  cases f with
  | legacy =>
      obtain ⟨Q, read, same⟩ := bind_eq_ok_iff.1 found
      cases same
      exact Native.length_of_decodePoint (liftArithmetic_eq_ok_iff.1 read)
  | sec1 => exact (Sec1.form_of_decode found).length_eq
  | zcash | ietf => exact (FlagBits.form_of_decode found).length_eq
  | ethereum =>
      have form := Ethereum.form_of_decode found
      rw [pointLength, form.compressed_eq]
      exact form.length_eq
  | auto => cases found

theorem length_of_decodeTarget {x : Fq12 e} (found : decodeTarget e f bs = .ok (x, flags)) :
    bs.length = targetLength e flags := by
  cases f with
  | legacy =>
      obtain ⟨y, read, same⟩ := bind_eq_ok_iff.1 found
      cases same
      exact Native.length_of_decodeTarget (liftArithmetic_eq_ok_iff.1 read)
  | ietf => exact Cyclotomic.length_of_decodeTarget found
  | sec1 | zcash | ethereum | auto => cases found

end Layout

variable {e : Engine} {f : Format} {t : ElementType} {bs : Bytes} {flags : Flags}

namespace Element

variable {x : Element e}

theorem length_of_decodePayload (found : decodePayload e f t bs = .ok (x, flags)) :
    bs.length = payloadLength e f flags t := by
  rw [decodePayload_of_supports (supports_of_decodePayload found)] at found
  cases t with
  | zp =>
      obtain ⟨s, read, same⟩ := bind_eq_ok_iff.1 found
      cases same
      rw [← Layout.decodeScalar_eq_ok_iff.1 read]
      exact Layout.length_encodeScalar f s
  | g1 | g2 =>
      obtain ⟨⟨P, flags'⟩, read, same⟩ := bind_eq_ok_iff.1 found
      cases same
      exact Layout.length_of_decodePoint read
  | gt =>
      obtain ⟨⟨y, flags'⟩, read, same⟩ := bind_eq_ok_iff.1 found
      cases same
      exact Layout.length_of_decodeTarget read

theorem length_of_decodeFramed (found : decodeFramed e t bs = .ok x) :
    ∃ header payload, Header.parse bs = .ok (header, payload) ∧ header.elementType = t ∧
      payload.length = payloadLength e header.format header.flags t := by
  obtain ⟨header, payload, parsed, _, type_eq, read⟩ := decodeFramed_eq_ok_iff.1 found
  exact ⟨header, payload, parsed, type_eq, length_of_decodePayload read⟩

end Element

namespace Engine

theorem sixteen_dvd_scalarWidth (e : Engine) : 16 ∣ Residue.width e.groupOrder := by
  cases e <;> decide

theorem sixteen_dvd_coordinateWidth (e : Engine) {F : Type} [CoordinateField F e.fieldOrder] :
    16 ∣ Layout.coordinateWidth F := by
  have whole : 16 ∣ Residue.width e.fieldOrder := by cases e <;> decide
  exact Nat.dvd_trans whole (Nat.dvd_mul_left _ _)

end Engine

theorem Layout.pointLength_mod_le {F : Type} [CoordinateField F e.fieldOrder] (f : Format)
    (flags : Flags) : pointLength F f flags % 16 ≤ 1 := by
  have body : 16 ∣ FlagBits.bodyWidth F flags.compressed := by
    unfold FlagBits.bodyWidth
    split
    · exact e.sixteen_dvd_coordinateWidth
    · exact Nat.dvd_trans e.sixteen_dvd_coordinateWidth (Nat.dvd_mul_left _ _)
  obtain ⟨blocks, body_eq⟩ := body
  unfold pointLength
  rw [body_eq]
  by_cases tagged : f = .sec1
  · rw [if_pos tagged]
    split <;> omega
  · rw [if_neg tagged]
    omega

/-- A payload is one octet longer than a whole number of blocks, or not longer. -/
theorem payloadLength_mod_le (e : Engine) (f : Format) (flags : Flags) (t : ElementType) :
    payloadLength e f flags t % 16 ≤ 1 := by
  cases t with
  | zp =>
      obtain ⟨blocks, width_eq⟩ := e.sixteen_dvd_scalarWidth
      rw [payloadLength, width_eq]
      omega
  | g1 => exact Layout.pointLength_mod_le f flags
  | g2 => exact Layout.pointLength_mod_le f flags
  | gt =>
      obtain ⟨blocks, width_eq⟩ := e.sixteen_dvd_coordinateWidth (F := Fq2 e)
      rw [payloadLength, Layout.targetLength, width_eq]
      split <;> omega

namespace Element

variable {x : Element e}

theorem length_mod_of_decodeBare (found : decodeBare e f t bs = .ok x) : bs.length % 16 ≤ 1 := by
  obtain ⟨flags, read⟩ := decodeBare_eq_ok_iff.1 found
  rw [length_of_decodePayload read]
  exact payloadLength_mod_le e _ flags t

theorem length_mod_of_decodeFramed (found : decodeFramed e t bs = .ok x) : 9 ≤ bs.length % 16 := by
  obtain ⟨header, payload, parsed, _, length_eq⟩ := length_of_decodeFramed found
  have total := Header.length_of_parse parsed
  have bound := payloadLength_mod_le e header.format header.flags t
  rw [← length_eq] at bound
  rw [total, Header.size]
  omega

end Element

end PairingWire
