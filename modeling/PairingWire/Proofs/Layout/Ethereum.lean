import PairingWire.Layout
import PairingWire.Proofs.Layout.Laws

/-!
The layout of the precompiled contracts is canonical on a curve that does not pass through the
origin: the string of zeros stands for the point at infinity alone.
-/

namespace PairingWire.Layout.Ethereum

variable {F : Type} {p : Nat} [CoordinateField F p] [Field F] [DecidableEq F] {C : Curve F}

theorem decodePoint_eq (C : Curve F) (bs : Bytes) :
    decodePoint C bs =
      if Residue.width p ≠ word then .error (.unsupported .ethereum (pointType F))
      else if bs.length ≠ 2 * coordinateWidth F then .error (.invalidEncoding .wrongLength)
      else if bs.all (· = 0) then .ok (.infinity, { infinity := true })
      else takeAffine C bs >>= fun P => .ok (P, {}) := by
  simp only [decodePoint, takeAffine, bind_assoc, pure_eq_ok]

/-- The forms of a string, each with the point and the flags that it stands for. -/
inductive Form (C : Curve F) : Bytes → Point F → Flags → Prop
  | infinity : Residue.width p = word →
      Form C (List.replicate (2 * coordinateWidth F) 0) .infinity { infinity := true }
  | affine (x y : F) : Residue.width p = word → C.Valid (.affine x y) →
      Form C (putCoordinate x ++ putCoordinate y) (.affine x y) {}

variable {bs : Bytes} {P : Point F} {flags : Flags}

theorem Form.valid (form : Form C bs P flags) : C.Valid P := by
  cases form with
  | infinity width_eq => exact C.valid_infinity
  | affine x y width_eq valid => exact valid

theorem Form.encode (form : Form C bs P flags) :
    encodePoint flags.compressed P = .ok ⟨bs, flags⟩ := by
  cases form with
  | infinity width_eq => simp [encodePoint, width_eq]
  | affine x y width_eq valid => simp [encodePoint, width_eq]

theorem Form.length_eq (form : Form C bs P flags) : bs.length = 2 * coordinateWidth F := by
  cases form with
  | infinity width_eq => exact List.length_replicate
  | affine x y width_eq valid => exact length_putCoordinate_append x y

theorem Form.compressed_eq (form : Form C bs P flags) : flags.compressed = false := by
  cases form <;> rfl

omit [Field F] [DecidableEq F] in
theorem exists_encodePoint (width_eq : Residue.width p = word) (P : Point F) :
    ∃ written, encodePoint false P = .ok written := by
  have expressible : ¬(Residue.width p ≠ word ∨ false = true) := by simp [width_eq]
  unfold encodePoint
  rw [if_neg expressible]
  cases P with
  | infinity => exact ⟨_, rfl⟩
  | affine x y => exact ⟨_, rfl⟩

omit [Field F] [DecidableEq F] in
theorem length_of_encodePoint {compress : Bool} {written : Encoded}
    (encoded : encodePoint compress P = .ok written) :
    written.payload.length = 2 * coordinateWidth F := by
  unfold encodePoint at encoded
  split at encoded
  · cases encoded
  · cases P with
    | infinity =>
        cases encoded
        exact List.length_replicate
    | affine x y =>
        cases encoded
        exact length_putCoordinate_append x y

theorem form_of_encode {compress : Bool} {written : Encoded} (valid : C.Valid P)
    (encoded : encodePoint compress P = .ok written) : Form C written.payload P written.flags := by
  unfold encodePoint at encoded
  split at encoded
  · cases encoded
  · rename_i expressible
    have width_eq : Residue.width p = word := not_not.1 (not_or.1 expressible).1
    cases P with
    | infinity =>
        cases encoded
        exact .infinity width_eq
    | affine x y =>
        cases encoded
        exact .affine x y width_eq valid

theorem form_of_decode (found : decodePoint C bs = .ok (P, flags)) : Form C bs P flags := by
  rw [decodePoint_eq] at found
  split at found
  · cases found
  · rename_i width_eq
    split at found
    · cases found
    · rename_i total
      split at found
      · rename_i zeros
        cases found
        rw [Bytes.all_zero_iff.1 zeros, not_not.1 total]
        exact .infinity (not_not.1 width_eq)
      · obtain ⟨Q, read, same⟩ := bind_eq_ok_iff.1 found
        cases same
        obtain ⟨x, y, rfl, rfl, valid⟩ := takeAffine_eq_ok_iff.1 read
        exact .affine x y (not_not.1 width_eq) valid

variable [Modulus p] [LawfulCoordinates F]

/-- Only the origin is written as zeros, and it is not on the curve. -/
theorem not_all_zero (nonzero : C.b ≠ 0) {x y : F} (valid : C.Valid (.affine x y)) :
    ¬(putCoordinate x ++ putCoordinate y).all (· = 0) = true := by
  intro zeros
  obtain ⟨x_zeros, y_zeros⟩ := Bool.and_eq_true_iff.1 (List.all_append ▸ zeros)
  have origin {z : F} (z_zeros : (putCoordinate z).all (· = 0) = true) : z = 0 := by
    apply putCoordinate_injective
    rw [Bytes.all_zero_iff.1 z_zeros, length_putCoordinate, putCoordinate_zero]
  have equation := Curve.equation_of_valid valid
  rw [origin x_zeros, origin y_zeros, weierstrass, mul_zero, mul_zero, mul_zero, zero_add,
    zero_add] at equation
  exact nonzero equation.symm

theorem Form.decode (nonzero : C.b ≠ 0) (form : Form C bs P flags) :
    decodePoint C bs = .ok (P, flags) := by
  cases form with
  | infinity width_eq =>
      have total : (List.replicate (2 * coordinateWidth F) (0 : UInt8)).length =
          2 * coordinateWidth F := List.length_replicate
      rw [decodePoint_eq, if_neg (not_not.2 width_eq), if_neg (not_not.2 total), if_pos (by simp)]
  | affine x y width_eq valid =>
      have total := length_putCoordinate_append x y
      rw [decodePoint_eq, if_neg (not_not.2 width_eq), if_neg (not_not.2 total),
        if_neg (not_all_zero nonzero valid), takeAffine_eq_ok_iff.2 ⟨x, y, rfl, rfl, valid⟩,
        ok_bind]

theorem decodePoint_error (C : Curve F) (bs : Bytes) :
    FailsWith CodecError.OfPayload (decodePoint C bs) := by
  rw [decodePoint_eq]
  refine .ite (fun _ => .error (.unsupported _ _)) fun _ => ?_
  refine .ite (fun _ => .error (.invalidEncoding _)) fun total => ?_
  refine .ite (fun _ => .ok _) fun _ => ?_
  exact (takeAffine_error C (not_not.1 total)).bind_ok

theorem canonical (nonzero : C.b ≠ 0) : Canonical C.Valid encodePoint (decodePoint C) where
  decode_encode valid encoded := (form_of_encode valid encoded).decode nonzero
  valid_of_decode found := (form_of_decode found).valid
  decode_error bs := decodePoint_error C bs
  encode_decode found := (form_of_decode found).encode

end PairingWire.Layout.Ethereum
