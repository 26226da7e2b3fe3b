import PairingWire.Layout
import PairingWire.Tower

/-!
The encodings that the engines use of their own accord, without a header. Points are compressed to
their abscissa. The BLS engine writes it most significant octet first with flags in the first octet;
the BN engine writes it least significant octet first with flags in the last one. Target elements
are twelve field elements in tower order, least significant octet first.
-/

namespace PairingWire.Layout.Native

section Point

variable {F : Type} {p : Nat} [Modulus p] [CoordinateField F p]

def encodeTop (compressedBit infinityBit largerBit : UInt8) : Point F → Bytes
  | .infinity => setTop (compressedBit ||| infinityBit) (List.replicate (coordinateWidth F) 0)
  | .affine x y =>
    setTop (compressedBit ||| if signBit .lexicographic y then largerBit else 0) (putCoordinate x)

def encodePoint (e : Engine) (P : Point F) : Bytes :=
  match e with
  | .bn254 => (encodeTop 0 0x40 0x80 P).reverse
  | .bls12P381 => encodeTop 0x80 0x40 0x20 P

variable [Zero F] [Add F] [Neg F] [Sub F] [Mul F] [Inv F] [DecidableEq F]

def liftX (C : Curve F) (x : F) (larger : Bool) : Except ArithmeticError (Point F) :=
  match (CoordinateField.sqrt (weierstrass C.a C.b x) : Except CodecError F) with
  | .ok y => .ok (.affine x (if signBit .lexicographic y = larger then y else -y))
  | .error _ => .error (.native .point)

def takeAbscissa (bs : Bytes) : Except ArithmeticError F :=
  (takeCoordinate bs).mapError fun _ => .native .point

def decodeLeading (C : Curve F) : Bytes → Except ArithmeticError (Point F)
  | [] => .error (.native .point)
  | first :: rest =>
    let larger : Bool := first &&& 0x20 ≠ 0
    let body := (first &&& 0x1F) :: rest
    if first &&& 0x80 = 0 then .error (.native .point)
    else if first &&& 0x40 ≠ 0 then
      if larger ∨ ¬body.all (· = 0) then .error (.native .point) else .ok .infinity
    else do
      let x : F ← takeAbscissa body
      liftX C x larger

/--
Flags in the octet that the reversed input starts with. A reduced abscissa beside the infinity flag
is passed over.
-/
def decodeTrailing (C : Curve F) (bs : Bytes) : Except ArithmeticError (Point F) :=
  match bs.reverse with
  | [] => .error (.native .point)
  | last :: rest =>
    if last &&& 0xC0 = 0xC0 then .error (.native .point)
    else do
      let x : F ← takeAbscissa ((last &&& 0x3F) :: rest)
      if last &&& 0x40 ≠ 0 then .ok .infinity else liftX C x (last &&& 0x80 ≠ 0)

/-- Reads a point; the form is checked before surplus octets, then the curve and the subgroup. -/
def decodePoint (e : Engine) (C : Curve F) (bs : Bytes) : Except ArithmeticError (Point F) :=
  let n := coordinateWidth F
  if bs.length < n then .error (.native .point)
  else do
    let P ← match e with
      | .bn254 => decodeTrailing C (bs.take n)
      | .bls12P381 => decodeLeading C (bs.take n)
    -- Surplus octets are reported before the curve and the subgroup are asked for.
    if bs.length ≠ n then .error (.native .trailing) else C.check P

end Point

variable {e : Engine}

def encodeTarget (x : Fq12 e) : Bytes := x.coefficients.flatMap fun c => (putCoordinate c).reverse

def decodeTarget (e : Engine) (bs : Bytes) : Except ArithmeticError (Fq12 e) :=
  let n := coordinateWidth (Fq2 e)
  if bs.length < 6 * n then .error (.native .target)
  else do
    let cs ← ((pieces n 6 bs).mapM fun piece => takeCoordinate (F := Fq2 e) piece.reverse).mapError
      fun _ => ArithmeticError.native .target
    match cs with
    | [t0, t1, t2, t3, t4, t5] =>
      if bs.length ≠ 6 * n then .error (.native .trailing)
      else Fq12.check ⟨⟨t0, t1, t2⟩, ⟨t3, t4, t5⟩⟩
    | _ => .error (.native .target)

end PairingWire.Layout.Native
