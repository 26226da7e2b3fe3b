import PairingWire.Layout
import PairingWire.Proofs.Layout.Laws

/-!
SEC 1 octet strings are a canonical layout: the tag, the sign in it and the length are forced by the
point and by the choice of a form.
-/

namespace PairingWire.Layout.Sec1

variable {F : Type} {p : Nat} [CoordinateField F p] [Field F] [DecidableEq F] {C : Curve F}

theorem decodeUncompressed_eq (C : Curve F) (body : Bytes) :
    decodeUncompressed C body =
      if body.length ≠ 2 * coordinateWidth F then .error (.invalidEncoding .wrongLength)
      else takeAffine C body >>= fun P => .ok (P, {}) := by
  simp only [decodeUncompressed, takeAffine, bind_assoc, pure_eq_ok]

variable [Modulus p]

theorem decodeCompressed_eq (C : Curve F) (odd : Bool) (body : Bytes) :
    decodeCompressed C odd body =
      if CoordinateField.degree F ≠ 1 then .error (.unsupported .sec1 (pointType F))
      else if body.length ≠ coordinateWidth F then .error (.invalidEncoding .wrongLength)
      else takeSigned C .parity odd body >>= fun P =>
        .ok (P, { compressed := true, ySign := odd }) := by
  simp only [decodeCompressed, takeSigned, bind_assoc, pure_eq_ok]

omit [Field F] [DecidableEq F] in
theorem exists_encodePoint {compress : Bool}
    (expressible : compress = true → CoordinateField.degree F = 1) (P : Point F) :
    ∃ written, encodePoint compress P = .ok written := by
  cases P with
  | infinity => exact ⟨_, rfl⟩
  | affine x y =>
      cases compress with
      | true =>
          rw [encodePoint, if_pos rfl, if_neg (not_not.2 (expressible rfl))]
          exact ⟨_, rfl⟩
      | false => exact ⟨_, rfl⟩

omit [Field F] [DecidableEq F] in
theorem length_of_encodePoint {compress : Bool} {P : Point F} {written : Encoded}
    (encoded : encodePoint compress P = .ok written) :
    written.payload.length = if P.isInfinity then 1
      else if compress then 1 + coordinateWidth F else 1 + 2 * coordinateWidth F := by
  cases P with
  | infinity =>
      cases encoded
      rfl
  | affine x y =>
      rw [encodePoint] at encoded
      cases compress with
      | true =>
          rw [if_pos rfl] at encoded
          split at encoded
          · cases encoded
          · cases encoded
            rw [List.length_cons, length_putCoordinate, Nat.add_comm]
            rfl
      | false =>
          cases encoded
          rw [List.length_cons, length_putCoordinate_append, Nat.add_comm]
          rfl

/-- The forms of a SEC 1 string, each with the point and the flags that it stands for. -/
inductive Form (C : Curve F) : Bytes → Point F → Flags → Prop
  | infinity : Form C [0x00] .infinity { infinity := true }
  | compressed (x y : F) : CoordinateField.degree F = 1 → C.Valid (.affine x y) →
      Form C ((if signBit .parity y then 0x03 else 0x02) :: putCoordinate x) (.affine x y)
        { compressed := true, ySign := signBit .parity y }
  | uncompressed (x y : F) : C.Valid (.affine x y) →
      Form C (0x04 :: (putCoordinate x ++ putCoordinate y)) (.affine x y) {}

variable {bs : Bytes} {P : Point F} {flags : Flags}

theorem Form.valid (form : Form C bs P flags) : C.Valid P := by
  cases form with
  | infinity => exact C.valid_infinity
  | compressed x y degree valid => exact valid
  | uncompressed x y valid => exact valid

theorem Form.encode (form : Form C bs P flags) :
    encodePoint flags.compressed P = .ok ⟨bs, flags⟩ := by
  cases form with
  | infinity => rfl
  | compressed x y degree valid => rw [encodePoint, if_pos rfl, if_neg (not_not.2 degree)]
  | uncompressed x y valid => rw [encodePoint, if_neg Bool.false_ne_true]

theorem Form.length_eq (form : Form C bs P flags) :
    bs.length = if flags.infinity then 1
      else 1 + if flags.compressed then coordinateWidth F else 2 * coordinateWidth F := by
  cases form with
  | infinity => rfl
  | compressed x y degree valid =>
      simp only [Bool.false_eq_true, if_false, if_true, List.length_cons, length_putCoordinate]
      omega
  | uncompressed x y valid =>
      simp only [Bool.false_eq_true, if_false, List.length_cons, length_putCoordinate_append]
      omega

theorem form_of_encode {compress : Bool} {written : Encoded} (valid : C.Valid P)
    (encoded : encodePoint compress P = .ok written) : Form C written.payload P written.flags := by
  cases P with
  | infinity =>
      cases encoded
      exact .infinity
  | affine x y =>
      rw [encodePoint] at encoded
      split at encoded
      · split at encoded
        · cases encoded
        · rename_i degree
          cases encoded
          exact .compressed x y (not_not.1 degree) valid
      · cases encoded
        exact .uncompressed x y valid

variable [LawfulCoordinates F]

theorem form_of_decode (found : decodePoint C bs = .ok (P, flags)) : Form C bs P flags := by
  cases bs with
  | nil => cases found
  | cons tag body =>
      rw [decodePoint] at found
      split at found
      · rename_i bare
        cases found
        rw [bare.1, bare.2]
        exact .infinity
      · split at found
        · rename_i sign_tag
          rw [decodeCompressed_eq] at found
          split at found
          · cases found
          · rename_i degree
            split at found
            · cases found
            · obtain ⟨Q, read, same⟩ := bind_eq_ok_iff.1 found
              cases same
              obtain ⟨x, y, rfl, rfl, sign, valid⟩ := takeSigned_sound read
              rw [← sign]
              have tag_eq : tag = if signBit .parity y then 0x03 else 0x02 := by
                rcases sign_tag with rfl | rfl <;> simp [sign]
              rw [tag_eq]
              exact .compressed x y (not_not.1 degree) valid
        · split at found
          · rename_i tag_eq
            rw [decodeUncompressed_eq] at found
            split at found
            · cases found
            · obtain ⟨Q, read, same⟩ := bind_eq_ok_iff.1 found
              cases same
              obtain ⟨x, y, rfl, rfl, valid⟩ := takeAffine_eq_ok_iff.1 read
              rw [tag_eq]
              exact .uncompressed x y valid
          · cases found

theorem Form.decode [OddPrime p] (form : Form C bs P flags) : decodePoint C bs = .ok (P, flags) := by
  cases form with
  | infinity => rfl
  | compressed x y degree valid =>
      have tags : decodePoint C ((if signBit .parity y then 0x03 else 0x02) :: putCoordinate x) =
          decodeCompressed C (signBit .parity y) (putCoordinate x) := by
        cases signBit .parity y <;> rfl
      rw [tags, decodeCompressed_eq, if_neg (not_not.2 degree),
        if_neg (not_not.2 (length_putCoordinate x)), takeSigned_complete valid, ok_bind]
  | uncompressed x y valid =>
      have total := length_putCoordinate_append x y
      have tags : decodePoint C (0x04 :: (putCoordinate x ++ putCoordinate y)) =
          decodeUncompressed C (putCoordinate x ++ putCoordinate y) := rfl
      rw [tags, decodeUncompressed_eq, if_neg (not_not.2 total),
        takeAffine_eq_ok_iff.2 ⟨x, y, rfl, rfl, valid⟩, ok_bind]

theorem decodePoint_error (C : Curve F) (bs : Bytes) :
    FailsWith CodecError.OfPayload (decodePoint C bs) := by
  cases bs with
  | nil => exact .error (.invalidEncoding _)
  | cons tag body =>
      rw [decodePoint, decodeCompressed_eq, decodeUncompressed_eq]
      refine .ite (fun _ => .ok _) fun _ => .ite (fun _ => ?_) fun _ => .ite (fun _ => ?_) fun _ => ?_
      · refine .ite (fun _ => .error (.unsupported _ _)) fun _ => ?_
        refine .ite (fun _ => .error (.invalidEncoding _)) fun width_eq => ?_
        exact (takeSigned_error C _ _ (not_not.1 width_eq)).bind_ok
      · refine .ite (fun _ => .error (.invalidEncoding _)) fun total => ?_
        exact (takeAffine_error C (not_not.1 total)).bind_ok
      · exact .error (.invalidEncoding _)

theorem canonical [OddPrime p] (C : Curve F) : Canonical C.Valid encodePoint (decodePoint C) where
  decode_encode valid encoded := (form_of_encode valid encoded).decode
  valid_of_decode found := (form_of_decode found).valid
  decode_error bs := decodePoint_error C bs
  encode_decode found := (form_of_decode found).encode

end PairingWire.Layout.Sec1
