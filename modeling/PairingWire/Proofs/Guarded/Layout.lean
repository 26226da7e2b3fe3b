import PairingWire.Element
import PairingWire.Proofs.Guarded.Root
import PairingWire.Proofs.Layout.Ethereum
import PairingWire.Proofs.Layout.FlagBits
import PairingWire.Proofs.Layout.Sec1

/-!
The layouts with guarded operations: octets and parts of a string are taken within its length, and
roots and inverses are guarded. None of the decoders stops, and they agree with those of the layouts.
-/

namespace PairingWire.Guarded

open Layout (coordinateWidth pointType)

section Coordinate

variable {F : Type} {p : Nat} [CoordinateField F p]

def takeCoordinate (bs : Bytes) : Guarded F :=
  if bs.length ≠ coordinateWidth F then of (.error (.invalidEncoding .wrongLength))
  else do
    let parts ← chunks (Residue.width p) bs
    let cs ← of (parts.mapM fun piece => liftArithmetic (Residue.ofBytes p piece))
    of (liftArithmetic (ofCoefficients cs.reverse))

theorem takeCoordinate_eq [Modulus p] (bs : Bytes) :
    (takeCoordinate bs : Guarded F) = of (Layout.takeCoordinate bs) := by
  refine of_ite (fun _ => rfl) fun total => ?_
  rw [chunks_eq (Residue.width_ne_zero p) (not_not.1 total), pure_bind_eq]
  exact of_bind fun _ _ => rfl

variable [Modulus p]

def recoverY [Add F] [Mul F] [Neg F] (convention : SignConvention) (a b x : F) (sign : Bool) :
    Guarded F := do
  let y ← sqrt (weierstrass a b x)
  if signBit convention y = sign then pure y
  else if signBit convention (-y) = sign then pure (-y)
  else of (.error (.invalidEncoding .nonCanonicalSign))

theorem recoverY_eq [GuardedCoordinates F] [Add F] [Mul F] [Neg F] (convention : SignConvention)
    (a b x : F) (sign : Bool) :
    recoverY convention a b x sign = of (PairingWire.recoverY convention a b x sign) := by
  rw [recoverY, GuardedCoordinates.sqrt_eq]
  refine of_bind fun y _ => ?_
  refine of_ite (fun _ => rfl) fun _ => ?_
  exact of_ite (fun _ => rfl) fun _ => rfl

end Coordinate

section Point

variable {F : Type} {p : Nat} [CoordinateField F p] [Field F] [DecidableEq F]

def takeAffine (C : Curve F) (body : Bytes) : Guarded (Point F) := do
  let first ← front (coordinateWidth F) body
  let second ← back (coordinateWidth F) body
  let x : F ← takeCoordinate first
  let y : F ← takeCoordinate second
  of (liftArithmetic (C.ofCoordinates x y))

variable [Modulus p]

def takeSigned (C : Curve F) (convention : SignConvention) (sign : Bool) (body : Bytes) :
    Guarded (Point F) := do
  let x : F ← takeCoordinate body
  let y ← recoverY convention C.a C.b x sign
  of (liftArithmetic (C.ofCoordinates x y))

def sec1Point (C : Curve F) : Bytes → Guarded (Point F × Flags)
  | [] => of (.error (.invalidEncoding .emptyInput))
  | tag :: body =>
    if tag = 0x00 ∧ body = [] then pure (.infinity, { infinity := true })
    else if tag = 0x02 ∨ tag = 0x03 then
      if CoordinateField.degree F ≠ 1 then of (.error (.unsupported .sec1 (pointType F)))
      else if body.length ≠ coordinateWidth F then of (.error (.invalidEncoding .wrongLength))
      else do
        let P ← takeSigned C .parity (tag = 0x03) body
        return (P, { compressed := true, ySign := tag = 0x03 })
    else if tag = 0x04 then
      if body.length ≠ 2 * coordinateWidth F then of (.error (.invalidEncoding .wrongLength))
      else do
        let P ← takeAffine C body
        return (P, {})
    else of (.error (.invalidEncoding .unknownTag))

def flaggedBody (C : Curve F) (compressed larger : Bool) (body : Bytes) : Guarded (Point F) :=
  if compressed then do
    let abscissa ← front (coordinateWidth F) body
    takeSigned C .lexicographic larger abscissa
  else takeAffine C body

def flaggedPoint (C : Curve F) : Bytes → Guarded (Point F × Flags)
  | [] => of (.error (.invalidEncoding .emptyInput))
  | first :: rest =>
    let compressed : Bool := first &&& Layout.FlagBits.compressedBit ≠ 0
    let infinity : Bool := first &&& Layout.FlagBits.infinityBit ≠ 0
    let larger : Bool := first &&& Layout.FlagBits.signBitMask ≠ 0
    if (first :: rest).length ≠ Layout.FlagBits.bodyWidth F compressed then
      of (.error (.invalidEncoding .wrongLength))
    else do
      let body ← mapFirst (· &&& ~~~Layout.FlagBits.flagMask) (first :: rest)
      if infinity then
        if larger ∨ ¬body.all (· = 0) then of (.error (.invalidEncoding .nonCanonicalInfinity))
        else return (.infinity, { compressed := compressed, infinity := true })
      else if !compressed ∧ larger then of (.error (.invalidEncoding .signOnUncompressed))
      else do
        let P ← flaggedBody C compressed larger body
        return (P, { compressed := compressed, ySign := larger })

def wordsPoint (C : Curve F) (bs : Bytes) : Guarded (Point F × Flags) :=
  if Residue.width p ≠ Layout.Ethereum.word then
    of (.error (.unsupported .ethereum (pointType F)))
  else if bs.length ≠ 2 * coordinateWidth F then of (.error (.invalidEncoding .wrongLength))
  else if bs.all (· = 0) then pure (.infinity, { infinity := true })
  else do
    let P ← takeAffine C bs
    return (P, {})

def decodePoint (e : Engine) (C : Curve F) (f : Format) (bs : Bytes) : Guarded (Point F × Flags) :=
  match f with
  -- The native parser is the engine's own and is taken as it is.
  | .legacy | .auto => of (Layout.decodePoint e C f bs)
  | .sec1 => sec1Point C bs
  | .zcash | .ietf => flaggedPoint C bs
  | .ethereum => wordsPoint C bs

variable {body : Bytes}

theorem takeAffine_eq (C : Curve F) (total : body.length = 2 * coordinateWidth F) :
    takeAffine C body = of (Layout.takeAffine C body) := by
  have bound : coordinateWidth F ≤ body.length := by
    rw [total]
    exact Nat.le_mul_of_pos_left _ two_pos
  rw [takeAffine, front_eq bound, pure_bind_eq, back_eq bound, pure_bind_eq, takeCoordinate_eq]
  refine of_bind fun x _ => ?_
  rw [takeCoordinate_eq]
  exact of_bind fun y _ => rfl

theorem wordsPoint_eq (C : Curve F) (bs : Bytes) :
    wordsPoint C bs = of (Layout.Ethereum.decodePoint C bs) := by
  rw [Layout.Ethereum.decodePoint_eq]
  refine of_ite (fun _ => rfl) fun _ => ?_
  refine of_ite (fun _ => rfl) fun total => ?_
  refine of_ite (fun _ => rfl) fun _ => ?_
  rw [takeAffine_eq C (not_not.1 total)]
  exact of_bind fun P _ => rfl

variable [GuardedCoordinates F]

theorem takeSigned_eq (C : Curve F) (convention : SignConvention) (sign : Bool) :
    takeSigned C convention sign body = of (Layout.takeSigned C convention sign body) := by
  rw [takeSigned, takeCoordinate_eq]
  refine of_bind fun x _ => ?_
  rw [recoverY_eq]
  exact of_bind fun y _ => rfl

theorem sec1Point_eq (C : Curve F) (bs : Bytes) :
    sec1Point C bs = of (Layout.Sec1.decodePoint C bs) := by
  cases bs with
  | nil => rfl
  | cons tag body =>
      refine of_ite (fun _ => rfl) fun _ => ?_
      refine of_ite (fun _ => ?_) fun _ => ?_
      · rw [Layout.Sec1.decodeCompressed_eq]
        refine of_ite (fun _ => rfl) fun _ => ?_
        refine of_ite (fun _ => rfl) fun _ => ?_
        rw [takeSigned_eq]
        exact of_bind fun P _ => rfl
      · refine of_ite (fun _ => ?_) fun _ => rfl
        rw [Layout.Sec1.decodeUncompressed_eq]
        refine of_ite (fun _ => rfl) fun total => ?_
        rw [takeAffine_eq C (not_not.1 total)]
        exact of_bind fun P _ => rfl

theorem flaggedBody_eq (C : Curve F) (compressed larger : Bool)
    (total : body.length = Layout.FlagBits.bodyWidth F compressed) :
    flaggedBody C compressed larger body =
      of (Layout.FlagBits.decodeBody C compressed larger body) := by
  cases compressed with
  | true =>
      have width_eq : body.length = coordinateWidth F := total
      rw [flaggedBody, if_pos rfl, front_eq width_eq.ge, pure_bind_eq, takeSigned_eq,
        List.take_of_length_le width_eq.le, Layout.FlagBits.decodeBody_compressed width_eq]
  | false =>
      rw [flaggedBody, if_neg Bool.false_ne_true, takeAffine_eq C total]
      rfl

theorem flaggedPoint_eq (C : Curve F) (bs : Bytes) :
    flaggedPoint C bs = of (Layout.FlagBits.decodePoint C bs) := by
  cases bs with
  | nil => rfl
  | cons first rest =>
      refine of_ite (fun _ => rfl) fun total => ?_
      rw [mapFirst, pure_bind_eq]
      refine of_ite (fun _ => ?_) fun _ => ?_
      · exact of_ite (fun _ => rfl) fun _ => rfl
      · refine of_ite (fun _ => rfl) fun _ => ?_
        have cleared : ((first &&& ~~~Layout.FlagBits.flagMask) :: rest).length =
            Layout.FlagBits.bodyWidth F _ := not_not.1 total
        rw [flaggedBody_eq C _ _ cleared]
        exact of_bind fun P _ => rfl

theorem decodePoint_eq (e : Engine) (C : Curve F) (f : Format) (bs : Bytes) :
    decodePoint e C f bs = of (Layout.decodePoint e C f bs) := by
  cases f with
  | legacy | auto => rfl
  | sec1 => exact sec1Point_eq C bs
  | zcash | ietf => exact flaggedPoint_eq C bs
  | ethereum => exact wordsPoint_eq C bs

end Point

end PairingWire.Guarded
