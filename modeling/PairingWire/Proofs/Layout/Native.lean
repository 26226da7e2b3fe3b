import Mathlib.Data.FinEnum
import PairingWire.Element
import PairingWire.Proofs.Layout.Laws
import PairingWire.Proofs.Primality

/-!
The native layouts of points are faithful: the flags lie above the bits that a reduced abscissa can
set, and the flag of the ordinate leads back to it. They are not canonical, as the trailing layout
passes over an abscissa beside the infinity flag.
-/

namespace PairingWire

/-- What the first octet of a coordinate stays below, so that the native flags are free. -/
def Engine.flagLimit : Engine → Nat
  | .bn254 => 0x40
  | .bls12P381 => 0x20

theorem Engine.fieldOrder_le (e : Engine) :
    e.fieldOrder ≤ e.flagLimit * 256 ^ (Residue.width e.fieldOrder - 1) := by
  cases e <;> decide

namespace Layout.Native

theorem leading_bits : ∀ b : UInt8, b.toNat < 0x20 → ∀ larger : Bool,
    (b ||| (0x80 ||| if larger then 0x20 else 0)) &&& 0x1F = b ∧
      (b ||| (0x80 ||| if larger then 0x20 else 0)) &&& 0x80 ≠ 0 ∧
      (b ||| (0x80 ||| if larger then 0x20 else 0)) &&& 0x40 = 0 ∧
      decide ((b ||| (0x80 ||| if larger then 0x20 else 0)) &&& 0x20 ≠ 0) = larger := by
  decide +kernel

theorem trailing_bits : ∀ b : UInt8, b.toNat < 0x40 → ∀ larger : Bool,
    (b ||| (0 ||| if larger then 0x80 else 0)) &&& 0x3F = b ∧
      (b ||| (0 ||| if larger then 0x80 else 0)) &&& 0xC0 ≠ 0xC0 ∧
      (b ||| (0 ||| if larger then 0x80 else 0)) &&& 0x40 = 0 ∧
      decide ((b ||| (0 ||| if larger then 0x80 else 0)) &&& 0x80 ≠ 0) = larger := by
  decide +kernel

section Form

variable {F : Type} {p : Nat} [CoordinateField F p]

theorem takeAbscissa_putCoordinate (x : F) : takeAbscissa (putCoordinate x) = .ok x :=
  mapError_eq_ok_iff.2 (takeCoordinate_putCoordinate x)

theorem takeAbscissa_error (bs : Bytes) :
    FailsWith (· = .native .point) (takeAbscissa bs : Except ArithmeticError F) :=
  .mapError fun _ _ => rfl

variable [Modulus p]

theorem length_encodeTop (c i l : UInt8) (P : Point F) :
    (encodeTop c i l P).length = coordinateWidth F := by
  cases P with
  | infinity => rw [encodeTop, length_setTop, List.length_replicate]
  | affine x y => rw [encodeTop, length_setTop, length_putCoordinate]

theorem length_encodePoint (e : Engine) (P : Point F) :
    (encodePoint e P).length = coordinateWidth F := by
  cases e with
  | bn254 => rw [encodePoint, List.length_reverse, length_encodeTop]
  | bls12P381 => rw [encodePoint, length_encodeTop]

theorem setTop_reverse_take (bits : UInt8) {bs : Bytes} {kept : Nat} (inside : kept < bs.length) :
    (setTop bits bs).reverse.take kept = bs.reverse.take kept := by
  cases bs with
  | nil => rfl
  | cons b rest =>
      have fits : kept ≤ rest.reverse.length := by
        rw [List.length_reverse]
        exact Nat.le_of_lt_succ inside
      rw [setTop, List.reverse_cons, List.reverse_cons, List.take_append_of_le_length fits,
        List.take_append_of_le_length fits]

theorem take_encodePoint_affine {x y : F} {c : Residue p} {cs : List (Residue p)}
    (split : coefficients x = c :: cs) {kept : Nat} (fits : kept ≤ Residue.width p)
    (inside : kept < coordinateWidth F) :
    (encodePoint .bn254 (.affine x y)).take kept = Bytes.ofNatLE kept c.val := by
  rw [encodePoint, encodeTop, setTop_reverse_take _ (by rwa [length_putCoordinate]),
    take_reverse_putCoordinate split fits]

theorem take_encodePoint_infinity {kept : Nat} (inside : kept < coordinateWidth F) :
    (encodePoint .bn254 (.infinity : Point F)).take kept = List.replicate kept 0 := by
  rw [encodePoint, encodeTop, setTop_reverse_take _ (by rwa [List.length_replicate]),
    List.reverse_replicate, List.take_replicate, Nat.min_eq_left inside.le]

variable [Field F] {C : Curve F}

theorem liftX_error (x : F) (larger : Bool) : FailsWith (· = .native .point) (liftX C x larger) := by
  unfold liftX
  split
  · exact .ok _
  · exact .error rfl

theorem decodeLeading_error (bs : Bytes) : FailsWith (· = .native .point) (decodeLeading C bs) := by
  unfold decodeLeading
  split
  · exact .error rfl
  · refine .ite (fun _ => .error rfl) fun _ => .ite (fun _ => ?_) fun _ => ?_
    · exact .ite (fun _ => .error rfl) fun _ => .ok _
    · exact .bind (takeAbscissa_error _) fun x _ => liftX_error x _

theorem decodeTrailing_error (bs : Bytes) :
    FailsWith (· = .native .point) (decodeTrailing C bs) := by
  unfold decodeTrailing
  split
  · exact .error rfl
  · refine .ite (fun _ => .error rfl) fun _ => ?_
    refine .bind (takeAbscissa_error _) fun x _ => ?_
    exact .ite (fun _ => .ok _) fun _ => liftX_error x _

variable [LawfulCoordinates F]

/-- The flag of an ordinate leads back to it, whichever root is found. -/
theorem liftX_signBit [OddPrime p] {x y : F} (on_curve : y * y = weierstrass C.a C.b x) :
    liftX C x (signBit .lexicographic y) = .ok (.affine x y) := by
  obtain ⟨root, found⟩ := LawfulCoordinates.exists_sqrt_mul_self (p := p) y
  have square := LawfulCoordinates.mul_self_of_sqrt found
  rw [liftX, ← on_curve, found]
  rcases mul_self_eq_mul_self_iff.1 square with same | opposite
  · simp only [same, if_true]
  · by_cases zero : y = 0
    · simp only [opposite, zero, neg_zero, if_true]
    · simp only [opposite, neg_neg, signBit_neg .lexicographic zero,
        if_neg (Bool.not_ne_self (signBit .lexicographic y))]

theorem zeros_eq_cons :
    List.replicate (coordinateWidth F) (0 : UInt8) =
      0 :: List.replicate (coordinateWidth F - 1) 0 := by
  rw [← List.replicate_succ,
    Nat.sub_add_cancel (Nat.pos_of_ne_zero (coordinateWidth_ne_zero (F := F)))]

theorem encodePoint_eq_cons (spare : p ≤ 0x20 * 256 ^ (Residue.width p - 1)) (P : Point F) :
    ∃ first rest, encodePoint .bls12P381 P = first :: rest ∧ first &&& 0x80 ≠ 0 := by
  cases P with
  | infinity =>
      refine ⟨0 ||| (0x80 ||| 0x40), List.replicate (coordinateWidth F - 1) 0, ?_, by decide⟩
      rw [encodePoint, encodeTop, zeros_eq_cons, setTop]
  | affine x y =>
      obtain ⟨b, rest, split, bound⟩ := putCoordinate_eq_cons spare x
      obtain ⟨_, compressed, _⟩ := leading_bits b bound (signBit .lexicographic y)
      refine ⟨_, rest, ?_, compressed⟩
      rw [encodePoint, encodeTop, split, setTop]

end Form

variable {F : Type} {p : Nat} [Modulus p] [CoordinateField F p] [Field F] [DecidableEq F] {e : Engine}
  {C : Curve F} {bs : Bytes} {P : Point F}

def readPoint (e : Engine) (C : Curve F) (bs : Bytes) : Except ArithmeticError (Point F) :=
  match e with
  | .bn254 => decodeTrailing C bs
  | .bls12P381 => decodeLeading C bs

theorem decodePoint_eq (e : Engine) (C : Curve F) (bs : Bytes) :
    decodePoint e C bs =
      if bs.length < coordinateWidth F then .error (.native .point)
      else readPoint e C (bs.take (coordinateWidth F)) >>= fun P =>
        if bs.length ≠ coordinateWidth F then .error (.native .trailing) else C.check P := by
  cases e <;> rfl

theorem valid_of_decodePoint (found : decodePoint e C bs = .ok P) : C.Valid P := by
  rw [decodePoint_eq] at found
  split at found
  · cases found
  · obtain ⟨Q, _, checked⟩ := bind_eq_ok_iff.1 found
    split at checked
    · cases checked
    · obtain ⟨rfl, valid⟩ := Curve.check_eq_ok_iff.1 checked
      exact valid

omit [DecidableEq F] in
theorem readPoint_error (e : Engine) (C : Curve F) (bs : Bytes) :
    FailsWith (· = .native .point) (readPoint e C bs) := by
  cases e with
  | bn254 => exact decodeTrailing_error bs
  | bls12P381 => exact decodeLeading_error bs

theorem decodePoint_of_length_ne (other : bs.length ≠ coordinateWidth F) :
    ∃ fault, decodePoint e C bs = .error (.native fault) := by
  rw [decodePoint_eq]
  by_cases short : bs.length < coordinateWidth F
  · exact ⟨.point, if_pos short⟩
  · rw [if_neg short]
    cases read : readPoint e C (bs.take (coordinateWidth F)) with
    | error cause => exact ⟨.point, congrArg Except.error (readPoint_error e C _ read)⟩
    | ok Q => exact ⟨.trailing, if_pos other⟩

theorem length_of_decodePoint (found : decodePoint e C bs = .ok P) :
    bs.length = coordinateWidth F := by
  by_contra other
  obtain ⟨fault, refused⟩ := decodePoint_of_length_ne (e := e) (C := C) other
  rw [found] at refused
  cases refused

theorem decodePoint_error (e : Engine) (C : Curve F) (bs : Bytes) :
    FailsWith (fun cause => (∃ fault, cause = .native fault) ∨ cause = .notOnCurve ∨
      cause = .notInSubgroup) (decodePoint e C bs) := by
  rw [decodePoint_eq]
  refine .ite (fun _ => .error (.inl ⟨_, rfl⟩)) fun _ => .bind ?_ fun Q _ => ?_
  · exact (readPoint_error e C _).mono fun _ same => .inl ⟨_, same⟩
  · refine .ite (fun _ => .error (.inl ⟨_, rfl⟩)) fun _ => ?_
    exact (C.check_error Q).mono fun _ => .inr

variable [LawfulCoordinates F]

theorem readLeading_encode [OddPrime p] (spare : p ≤ 0x20 * 256 ^ (Residue.width p - 1))
    (valid : C.Valid P) : decodeLeading C (encodeTop 0x80 0x40 0x20 P) = .ok P := by
  cases P with
  | infinity =>
      have low : ((0 : UInt8) ||| (0x80 ||| 0x40)) &&& 0x1F = 0 := rfl
      rw [encodeTop, zeros_eq_cons, setTop]
      simp only [decodeLeading, low]
      rw [if_neg (by decide), if_pos (by decide), if_neg]
      rintro (larger | nonzero)
      · exact absurd larger (by decide)
      · exact nonzero (by simp)
  | affine x y =>
      obtain ⟨b, rest, split, bound⟩ := putCoordinate_eq_cons spare x
      obtain ⟨low, compressed, finite, larger⟩ :=
        leading_bits b bound (signBit .lexicographic y)
      rw [encodeTop, split, setTop]
      simp only [decodeLeading, low, if_neg compressed, finite, larger]
      rw [if_neg (not_not.2 rfl), ← split, takeAbscissa_putCoordinate, ok_bind,
        liftX_signBit (Curve.equation_of_valid valid)]

theorem readTrailing_encode [OddPrime p] (spare : p ≤ 0x40 * 256 ^ (Residue.width p - 1))
    (valid : C.Valid P) : decodeTrailing C (encodeTop 0 0x40 0x80 P).reverse = .ok P := by
  cases P with
  | infinity =>
      have zero : takeAbscissa (0 :: List.replicate (coordinateWidth F - 1) 0) = .ok (0 : F) := by
        rw [← zeros_eq_cons, ← putCoordinate_zero, takeAbscissa_putCoordinate]
      rw [decodeTrailing, List.reverse_reverse, encodeTop, zeros_eq_cons, setTop]
      change takeAbscissa (0 :: List.replicate (coordinateWidth F - 1) 0) >>= _ = _
      rw [zero]
      rfl
  | affine x y =>
      obtain ⟨b, rest, split, bound⟩ := putCoordinate_eq_cons spare x
      obtain ⟨low, flags, finite, larger⟩ := trailing_bits b bound (signBit .lexicographic y)
      rw [decodeTrailing, List.reverse_reverse, encodeTop, split, setTop]
      simp only [low, if_neg flags, finite, larger]
      rw [← split, takeAbscissa_putCoordinate, ok_bind, if_neg (not_not.2 rfl),
        liftX_signBit (Curve.equation_of_valid valid)]

theorem decodePoint_encodePoint [OddPrime p]
    (spare : p ≤ e.flagLimit * 256 ^ (Residue.width p - 1)) (valid : C.Valid P) :
    decodePoint e C (encodePoint e P) = .ok P := by
  have total := length_encodePoint e P
  have read : readPoint e C (encodePoint e P) = .ok P := by
    cases e with
    | bn254 => exact readTrailing_encode spare valid
    | bls12P381 => exact readLeading_encode spare valid
  rw [decodePoint_eq, if_neg (not_lt.2 total.ge), List.take_of_length_le total.le, read, ok_bind,
    if_neg (not_not.2 total), Curve.check_of_valid valid]

theorem faithful [OddPrime p] (spare : p ≤ e.flagLimit * 256 ^ (Residue.width p - 1))
    (C : Curve F) :
    Faithful C.Valid (Layout.encodePoint e .legacy) (Layout.decodePoint e C .legacy) where
  decode_encode valid encoded := by
    cases encoded
    rw [Layout.decodePoint, decodePoint_encodePoint spare valid]
    rfl
  valid_of_decode found := by
    obtain ⟨Q, read, same⟩ := bind_eq_ok_iff.1 found
    cases same
    exact valid_of_decodePoint (liftArithmetic_eq_ok_iff.1 read)
  decode_error bs := by
    refine .bind_ok (.mapError ((decodePoint_error e C bs).mono ?_))
    rintro _ (⟨fault, rfl⟩ | rfl | rfl)
    · exact .invalidEncoding _
    · exact .notOnCurve
    · exact .notInSubgroup

end Layout.Native

end PairingWire
