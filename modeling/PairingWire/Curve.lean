import PairingWire.Coordinate

/-!
Short Weierstrass curves `y² = x³ + a x + b` over a field, in affine coordinates with the chord and
tangent law, and the multiples of a point.
-/

namespace PairingWire

inductive Point (F : Type)
  | infinity
  | affine (x y : F)
  deriving DecidableEq, Repr

/-- A curve with a generator of its subgroup of order `order`. -/
structure Curve (F : Type) where
  a : F
  b : F
  generator : Point F
  order : Nat

namespace Point

variable {F : Type}

def isInfinity : Point F → Bool
  | infinity => true
  | affine _ _ => false

def neg [Neg F] : Point F → Point F
  | infinity => infinity
  | affine x y => affine x (-y)

end Point

namespace Curve

variable {F : Type} [Zero F] [Add F] [Neg F] [Sub F] [Mul F] [Inv F] [DecidableEq F]

/-- The third intersection of a line of slope `s` through `(x, y)`, reflected in the first axis. -/
def reflectedMeet (s x y x' : F) : Point F :=
  let x3 := s * s - x - x'
  .affine x3 (s * (x - x3) - y)

def tangentSlope (C : Curve F) (x y : F) : F := (x * x + x * x + x * x + C.a) * (y + y)⁻¹

def chordSlope (x y x' y' : F) : F := (y' - y) * (x' - x)⁻¹

def double (C : Curve F) : Point F → Point F
  | .infinity => .infinity
  | .affine x y => if y = 0 then .infinity else reflectedMeet (C.tangentSlope x y) x y x

/-- The chord and tangent law. Two points with one abscissa and different ordinates cancel. -/
def add (C : Curve F) : Point F → Point F → Point F
  | .infinity, Q => Q
  | P, .infinity => P
  | .affine x y, .affine x' y' =>
    if x = x' then if y = y' then C.double (.affine x y) else .infinity
    else reflectedMeet (chordSlope x y x' y') x y x'

def sub (C : Curve F) (P Q : Point F) : Point F := C.add P Q.neg

def multiple (C : Curve F) (n : Nat) (P : Point F) : Point F :=
  doubleAndAdd C.add .infinity P (bitLength n) n

def OnCurve (C : Curve F) : Point F → Prop
  | .infinity => True
  | .affine x y => y * y = weierstrass C.a C.b x

instance (C : Curve F) : (P : Point F) → Decidable (C.OnCurve P)
  | .infinity => inferInstanceAs (Decidable True)
  | .affine x y => inferInstanceAs (Decidable (y * y = weierstrass C.a C.b x))

def InSubgroup (C : Curve F) (P : Point F) : Prop := C.multiple C.order P = .infinity

instance (C : Curve F) (P : Point F) : Decidable (C.InSubgroup P) :=
  inferInstanceAs (Decidable (C.multiple C.order P = .infinity))

def Valid (C : Curve F) (P : Point F) : Prop := C.OnCurve P ∧ C.InSubgroup P

def check (C : Curve F) (P : Point F) : Except ArithmeticError (Point F) :=
  if ¬C.OnCurve P then .error .notOnCurve
  else if ¬C.InSubgroup P then .error .notInSubgroup
  else .ok P

def ofCoordinates (C : Curve F) (x y : F) : Except ArithmeticError (Point F) :=
  C.check (.affine x y)

end Curve

end PairingWire
