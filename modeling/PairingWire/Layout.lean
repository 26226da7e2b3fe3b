import PairingWire.Curve
import PairingWire.Header

/-!
The standard layouts of points. In all of them a coordinate is written with its highest coefficient
first, every coefficient with full width, most significant octet first.
-/

namespace PairingWire

structure Encoded where
  payload : Bytes
  flags : Flags
  deriving DecidableEq, Repr

namespace Layout

def pieces (width : Nat) : Nat → Bytes → List Bytes
  | 0, _ => []
  | count + 1, bs => bs.take width :: pieces width count (bs.drop width)

section

variable (F : Type) {p : Nat} [CoordinateField F p]

def coordinateWidth : Nat := CoordinateField.degree F * Residue.width p

def pointType : ElementType := if CoordinateField.degree F = 1 then .g1 else .g2

variable {F}

def putCoordinate (x : F) : Bytes := (coefficients x).reverse.flatMap Residue.toBytes

def takeCoordinate (bs : Bytes) : Except CodecError F :=
  if bs.length ≠ coordinateWidth F then .error (.invalidEncoding .wrongLength)
  else do
    let cs ← (pieces (Residue.width p) (CoordinateField.degree F) bs).mapM
      fun piece => liftArithmetic (Residue.ofBytes p piece)
    liftArithmetic (ofCoefficients cs.reverse)

end

def setTop (bits : UInt8) : Bytes → Bytes
  | [] => []
  | b :: bs => (b ||| bits) :: bs

variable {F : Type} {p : Nat} [Modulus p] [CoordinateField F p]

/-!
SEC 1 octet strings: the single octet `00` for the point at infinity, `02` or `03` and the abscissa
for an even or odd ordinate, `04` and both coordinates. Points over the quadratic extension have no
compressed form.
-/

namespace Sec1

def encodePoint (compress : Bool) (P : Point F) : Except CodecError Encoded :=
  match P with
  | .infinity => .ok ⟨[0x00], { infinity := true }⟩
  | .affine x y =>
    if compress then
      if CoordinateField.degree F ≠ 1 then .error (.unsupported .sec1 (pointType F))
      else
        let odd := signBit .parity y
        .ok ⟨(if odd then 0x03 else 0x02) :: putCoordinate x, { compressed := true, ySign := odd }⟩
    else .ok ⟨0x04 :: (putCoordinate x ++ putCoordinate y), {}⟩

variable [Zero F] [Add F] [Neg F] [Sub F] [Mul F] [Inv F] [DecidableEq F]

def decodeCompressed (C : Curve F) (odd : Bool) (body : Bytes) :
    Except CodecError (Point F × Flags) :=
  if CoordinateField.degree F ≠ 1 then .error (.unsupported .sec1 (pointType F))
  else if body.length ≠ coordinateWidth F then .error (.invalidEncoding .wrongLength)
  else do
    let x : F ← takeCoordinate body
    let y ← recoverY .parity C.a C.b x odd
    let P ← liftArithmetic (C.ofCoordinates x y)
    return (P, { compressed := true, ySign := odd })

def decodeUncompressed (C : Curve F) (body : Bytes) : Except CodecError (Point F × Flags) :=
  let n := coordinateWidth F
  if body.length ≠ 2 * n then .error (.invalidEncoding .wrongLength)
  else do
    let x : F ← takeCoordinate (body.take n)
    let y : F ← takeCoordinate (body.drop n)
    let P ← liftArithmetic (C.ofCoordinates x y)
    return (P, {})

def decodePoint (C : Curve F) : Bytes → Except CodecError (Point F × Flags)
  | [] => .error (.invalidEncoding .emptyInput)
  | tag :: body =>
    -- With a body, the tag of infinity is an unknown one.
    if tag = 0x00 ∧ body = [] then .ok (.infinity, { infinity := true })
    else if tag = 0x02 ∨ tag = 0x03 then decodeCompressed C (tag = 0x03) body
    else if tag = 0x04 then decodeUncompressed C body
    else .error (.invalidEncoding .unknownTag)

end Sec1

/-!
Points as the precompiled contracts take them: both coordinates in words of 32 octets, and all zeros
for the point at infinity. There is no compressed form, and no form for other field widths.
-/

namespace Ethereum

/-- Octets in a field element. -/
def word : Nat := 32

def encodePoint (compress : Bool) (P : Point F) : Except CodecError Encoded :=
  if Residue.width p ≠ word ∨ compress then .error (.unsupported .ethereum (pointType F))
  else
    match P with
    | .infinity => .ok ⟨List.replicate (2 * coordinateWidth F) 0, { infinity := true }⟩
    | .affine x y => .ok ⟨putCoordinate x ++ putCoordinate y, {}⟩

variable [Zero F] [Add F] [Neg F] [Sub F] [Mul F] [Inv F] [DecidableEq F]

def decodePoint (C : Curve F) (bs : Bytes) : Except CodecError (Point F × Flags) :=
  let n := coordinateWidth F
  if Residue.width p ≠ word then .error (.unsupported .ethereum (pointType F))
  else if bs.length ≠ 2 * n then .error (.invalidEncoding .wrongLength)
  else if bs.all (· = 0) then .ok (.infinity, { infinity := true })
  else do
    let x : F ← takeCoordinate (bs.take n)
    let y : F ← takeCoordinate (bs.drop n)
    let P ← liftArithmetic (C.ofCoordinates x y)
    return (P, {})

end Ethereum

/-!
Points with three flags in the top bits of the first octet: compressed, infinity, and the larger
ordinate of a compressed point. The point at infinity has no other bits set. ZCash and IETF
encodings share this layout; it needs three spare bits above the field modulus.
-/

namespace FlagBits

def compressedBit : UInt8 := 0x80

def infinityBit : UInt8 := 0x40

def signBitMask : UInt8 := 0x20

def flagMask : UInt8 := 0xE0

def bodyWidth (F : Type) {p : Nat} [CoordinateField F p] (compress : Bool) : Nat :=
  if compress then coordinateWidth F else 2 * coordinateWidth F

/-- Whether the flag bits of an encoded abscissa are free. -/
def flagsFree : Bytes → Bool
  | [] => false
  | b :: _ => b &&& flagMask = 0

def encodePoint (format : Format) (compress : Bool) (P : Point F) : Except CodecError Encoded :=
  let compression := if compress then compressedBit else 0
  match P with
  | .infinity =>
    .ok ⟨setTop (compression ||| infinityBit) (List.replicate (bodyWidth F compress) 0),
      { compressed := compress, infinity := true }⟩
  | .affine x y =>
    if !flagsFree (putCoordinate x) then .error (.unsupported format (pointType F))
    else if compress then
      let larger := signBit .lexicographic y
      .ok ⟨setTop (compression ||| if larger then signBitMask else 0) (putCoordinate x),
        { compressed := true, ySign := larger }⟩
    else .ok ⟨putCoordinate x ++ putCoordinate y, {}⟩

variable [Zero F] [Add F] [Neg F] [Sub F] [Mul F] [Inv F] [DecidableEq F]

/-- Reads the coordinates of a point whose flag bits have been cleared. -/
def decodeBody (C : Curve F) (compressed larger : Bool) (body : Bytes) :
    Except CodecError (Point F) := do
  let n := coordinateWidth F
  let x : F ← takeCoordinate (body.take n)
  let y ← if compressed then recoverY .lexicographic C.a C.b x larger
    else takeCoordinate (body.drop n)
  liftArithmetic (C.ofCoordinates x y)

def decodePoint (C : Curve F) : Bytes → Except CodecError (Point F × Flags)
  | [] => .error (.invalidEncoding .emptyInput)
  | first :: rest =>
    let compressed : Bool := first &&& compressedBit ≠ 0
    let infinity : Bool := first &&& infinityBit ≠ 0
    let larger : Bool := first &&& signBitMask ≠ 0
    let body := (first &&& ~~~flagMask) :: rest
    if body.length ≠ bodyWidth F compressed then .error (.invalidEncoding .wrongLength)
    else if infinity then
      if larger ∨ ¬body.all (· = 0) then .error (.invalidEncoding .nonCanonicalInfinity)
      else .ok (.infinity, { compressed := compressed, infinity := true })
    else if !compressed ∧ larger then .error (.invalidEncoding .signOnUncompressed)
    else do
      let P ← decodeBody C compressed larger body
      return (P, { compressed := compressed, ySign := larger })

end FlagBits

end Layout

end PairingWire
