import PairingWire.Proofs.Curve
import PairingWire.Proofs.Layout.Coordinate

/-!
What is asked of a layout: a written value is read back with the flags that were written, only valid
values are read, and a string is refused for one of the reasons that a payload can give. A canonical
layout moreover reads only the strings that it writes. All layouts read a point in one of two ways,
from both coordinates or from the abscissa and a sign.
-/

namespace PairingWire

namespace CodecError

inductive OfPayload : CodecError → Prop
  | invalidEncoding (fault : EncodingFault) : OfPayload (invalidEncoding fault)
  | notReduced : OfPayload notReduced
  | notASquare : OfPayload notASquare
  | notOnCurve : OfPayload notOnCurve
  | notInSubgroup : OfPayload notInSubgroup
  | unsupported (format : Format) (element : ElementType) : OfPayload (unsupported format element)

theorem OfPayload.of_check {err : CodecError} (check : err = .notOnCurve ∨ err = .notInSubgroup) :
    err.OfPayload := by
  rcases check with rfl | rfl
  · exact .notOnCurve
  · exact .notInSubgroup

end CodecError

namespace Layout

section Laws

variable {V : Type}

/-- The laws of a layout for the valid ones among some values. -/
structure Faithful (Valid : V → Prop) (encode : Bool → V → Except CodecError Encoded)
    (decode : Bytes → Except CodecError (V × Flags)) : Prop where
  decode_encode {compress : Bool} {x : V} {written : Encoded} :
    Valid x → encode compress x = .ok written → decode written.payload = .ok (x, written.flags)
  valid_of_decode {bs : Bytes} {x : V} {flags : Flags} : decode bs = .ok (x, flags) → Valid x
  decode_error (bs : Bytes) : FailsWith CodecError.OfPayload (decode bs)

/-- A faithful layout that reads only what it writes. -/
structure Canonical (Valid : V → Prop) (encode : Bool → V → Except CodecError Encoded)
    (decode : Bytes → Except CodecError (V × Flags)) : Prop
    extends Faithful Valid encode decode where
  encode_decode {bs : Bytes} {x : V} {flags : Flags} :
    decode bs = .ok (x, flags) → encode flags.compressed x = .ok ⟨bs, flags⟩

theorem Faithful.map {W : Type} {Valid : V → Prop} {encode : Bool → V → Except CodecError Encoded}
    {decode : Bytes → Except CodecError (V × Flags)} (laws : Faithful Valid encode decode)
    {image : V → W} {Valid' : W → Prop} {encode' : Bool → W → Except CodecError Encoded}
    (valid_iff : ∀ y, Valid' y ↔ ∃ x, image x = y ∧ Valid x)
    (same : ∀ compress x, encode' compress (image x) = encode compress x) :
    Faithful Valid' encode' (fun bs => decode bs >>= fun r => .ok (image r.1, r.2)) where
  decode_encode member encoded := by
    obtain ⟨x, rfl, valid⟩ := (valid_iff _).1 member
    rw [same] at encoded
    rw [laws.decode_encode valid encoded, ok_bind]
  valid_of_decode found := by
    obtain ⟨⟨x, flags⟩, read, same⟩ := bind_eq_ok_iff.1 found
    cases same
    exact (valid_iff _).2 ⟨x, rfl, laws.valid_of_decode read⟩
  decode_error bs := (laws.decode_error bs).bind_ok

theorem Canonical.map {W : Type} {Valid : V → Prop} {encode : Bool → V → Except CodecError Encoded}
    {decode : Bytes → Except CodecError (V × Flags)} (laws : Canonical Valid encode decode)
    {image : V → W} {Valid' : W → Prop} {encode' : Bool → W → Except CodecError Encoded}
    (valid_iff : ∀ y, Valid' y ↔ ∃ x, image x = y ∧ Valid x)
    (same : ∀ compress x, encode' compress (image x) = encode compress x) :
    Canonical Valid' encode' (fun bs => decode bs >>= fun r => .ok (image r.1, r.2)) where
  toFaithful := laws.toFaithful.map valid_iff same
  encode_decode found := by
    obtain ⟨⟨x, flags⟩, read, eq⟩ := bind_eq_ok_iff.1 found
    cases eq
    rw [same, laws.encode_decode read]

end Laws

section Forms

variable {F : Type} {p : Nat} [CoordinateField F p] [Field F] [DecidableEq F]

def takeAffine (C : Curve F) (body : Bytes) : Except CodecError (Point F) := do
  let x : F ← takeCoordinate (body.take (coordinateWidth F))
  let y : F ← takeCoordinate (body.drop (coordinateWidth F))
  liftArithmetic (C.ofCoordinates x y)

variable {C : Curve F} {body : Bytes} {P : Point F}

theorem takeAffine_eq_ok_iff :
    takeAffine C body = .ok P ↔
      ∃ x y : F, P = .affine x y ∧ putCoordinate x ++ putCoordinate y = body ∧ C.Valid P := by
  simp only [takeAffine, Curve.ofCoordinates, bind_eq_ok_iff, takeCoordinate_eq_ok_iff,
    Curve.liftArithmetic_check_eq_ok_iff]
  constructor
  · rintro ⟨x, x_read, y, y_read, rfl, valid⟩
    exact ⟨x, y, rfl, by rw [x_read, y_read, List.take_append_drop], valid⟩
  · rintro ⟨x, y, rfl, rfl, valid⟩
    refine ⟨x, ?_, y, ?_, rfl, valid⟩
    · rw [List.take_left' (length_putCoordinate x)]
    · rw [List.drop_left' (length_putCoordinate x)]

variable [Modulus p]

def takeSigned (C : Curve F) (convention : SignConvention) (sign : Bool) (body : Bytes) :
    Except CodecError (Point F) := do
  let x : F ← takeCoordinate body
  let y ← recoverY convention C.a C.b x sign
  liftArithmetic (C.ofCoordinates x y)

variable {convention : SignConvention} {sign : Bool} [LawfulCoordinates F]

theorem takeAffine_error (C : Curve F) (total : body.length = 2 * coordinateWidth F) :
    FailsWith CodecError.OfPayload (takeAffine C body) := by
  have first : (body.take (coordinateWidth F)).length = coordinateWidth F := by
    rw [List.length_take]
    omega
  have second : (body.drop (coordinateWidth F)).length = coordinateWidth F := by
    rw [List.length_drop]
    omega
  refine .bind ((takeCoordinate_error first).mono fun _ cause => cause ▸ .notReduced) fun x _ => ?_
  refine .bind ((takeCoordinate_error second).mono fun _ cause => cause ▸ .notReduced) fun y _ => ?_
  exact (C.liftArithmetic_check_error _).mono fun _ => .of_check

theorem takeSigned_sound (found : takeSigned C convention sign body = .ok P) :
    ∃ x y : F, P = .affine x y ∧ putCoordinate x = body ∧ signBit convention y = sign ∧
      C.Valid P := by
  obtain ⟨x, x_read, found⟩ := bind_eq_ok_iff.1 found
  obtain ⟨y, y_found, found⟩ := bind_eq_ok_iff.1 found
  obtain ⟨rfl, valid⟩ := Curve.liftArithmetic_check_eq_ok_iff.1 found
  exact ⟨x, y, rfl, takeCoordinate_eq_ok_iff.1 x_read, (recoverY_sound y_found).2, valid⟩

theorem takeSigned_complete [OddPrime p] {x y : F} (valid : C.Valid (.affine x y)) :
    takeSigned C convention (signBit convention y) (putCoordinate x) = .ok (.affine x y) := by
  rw [takeSigned, takeCoordinate_putCoordinate, ok_bind,
    recoverY_signBit (Curve.equation_of_valid valid), ok_bind, Curve.ofCoordinates,
    Curve.check_of_valid valid, liftArithmetic_ok]

theorem takeSigned_error (C : Curve F) (convention : SignConvention) (sign : Bool)
    (total : body.length = coordinateWidth F) :
    FailsWith CodecError.OfPayload (takeSigned C convention sign body) := by
  refine .bind ((takeCoordinate_error total).mono fun _ cause => cause ▸ .notReduced) fun x _ => ?_
  refine .bind ((recoverY_error _ _ _ _ _).mono ?_) fun y _ => ?_
  · rintro err (rfl | rfl)
    · exact .notASquare
    · exact .invalidEncoding _
  · exact (C.liftArithmetic_check_error _).mono fun _ => .of_check

end Forms

end Layout

end PairingWire
