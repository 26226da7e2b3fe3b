import PairingWire.Tower

/-!
The optimal ate pairing. Points of the twist are added by the affine law while the values of the
lines through them are collected; the final power takes the collected value into the target group.
Vertical lines and scalars from proper subfields are left out, since the final power maps them to 1.
-/

namespace PairingWire

namespace Pairing

variable {e : Engine}

/--
The value at `(x, y)` of the line of slope `s` through the twist point `(tx, ty)`, both seen on the
curve over the degree-12 field, up to a factor from a proper subfield.
-/
def lineValue : (e : Engine) → (s tx ty : Fq2 e) → (x y : Fq e) → Fq12 e
  | .bn254, s, tx, ty, x, y => ⟨⟨⟨y, 0⟩, 0, 0⟩, ⟨-(s * ⟨x, 0⟩), s * tx - ty, 0⟩⟩
  | .bls12P381, s, tx, ty, x, y => ⟨⟨s * tx - ty, -(s * ⟨x, 0⟩), 0⟩, ⟨0, ⟨y, 0⟩, 0⟩⟩

def lineThrough (T Q : Point (Fq2 e)) (x y : Fq e) : Fq12 e :=
  match T, Q with
  | .affine tx ty, .affine qx qy =>
    if tx = qx then
      if ty = qy ∧ ty ≠ 0 then lineValue e (e.g2.tangentSlope tx ty) tx ty x y else 1
    else lineValue e (Curve.chordSlope tx ty qx qy) tx ty x y
  | _, _ => 1

structure MillerState (e : Engine) where
  value : Fq12 e
  point : Point (Fq2 e)

namespace MillerState

def add (s : MillerState e) (Q : Point (Fq2 e)) (x y : Fq e) : MillerState e where
  value := s.value * lineThrough s.point Q x y
  point := e.g2.add s.point Q

def double (s : MillerState e) (x y : Fq e) : MillerState e where
  value := s.value * s.value * lineThrough s.point s.point x y
  point := e.g2.double s.point

end MillerState

/-- The state for `n` times `Q`, for a positive `n` of at most `digits` binary digits. -/
def millerLoop (Q : Point (Fq2 e)) (x y : Fq e) : Nat → Nat → MillerState e
  | 0, _ => ⟨1, Q⟩
  | digits + 1, n =>
    if n ≤ 1 then ⟨1, Q⟩
    else
      let s := (millerLoop Q x y digits (n / 2)).double x y
      if n % 2 = 0 then s else s.add Q x y

def loopLength (e : Engine) : Nat :=
  match e with
  | .bn254 => 6 * e.parameter + 2
  | .bls12P381 => e.parameter

def twistFrobenius (Q : Point (Fq2 e)) : Point (Fq2 e) :=
  match Q with
  | .infinity => .infinity
  | .affine x y =>
    -- Conjugation is the Frobenius map of the quadratic extension.
    .affine (x.conj * power e.towerNonresidue ((e.fieldOrder - 1) / 3))
      (y.conj * power e.towerNonresidue ((e.fieldOrder - 1) / 2))

/--
The value after the loop: times the lines through the Frobenius image of `Q` and the negated second
image for a BN curve, conjugated for the negative parameter of a BLS curve.
-/
def closeLoop : (e : Engine) → (Q : Point (Fq2 e)) → (x y : Fq e) → MillerState e → Fq12 e
  | .bn254, Q, x, y, s =>
    let Q1 := twistFrobenius Q
    ((s.add Q1 x y).add (twistFrobenius Q1).neg x y).value
  | .bls12P381, _, _, _, s => s.value.conj

def millerValue (P : Point (Fq e)) (Q : Point (Fq2 e)) : Fq12 e :=
  match P, Q with
  | .affine x y, .affine _ _ =>
    closeLoop e Q x y (millerLoop Q x y (bitLength (loopLength e)) (loopLength e))
  | _, _ => 1

/-- The multiple of `(p¹² - 1) / r` that the final power uses; the factor is prime to `r`. -/
def finalExponent (e : Engine) : Nat :=
  let u := e.parameter
  let factor := match e with
    | .bn254 => 2 * u * (6 * u * u + 3 * u + 1)
    | .bls12P381 => 3
  factor * ((Nat.pow e.fieldOrder 12 - 1) / e.groupOrder)

def finalPower (f : Fq12 e) : Fq12 e := power f (finalExponent e)

end Pairing

open Pairing

variable {e : Engine}

def pairing (P : Point (Fq e)) (Q : Point (Fq2 e)) : Fq12 e := finalPower (millerValue P Q)

/-- The product of the pairings of the points in order, with one final power for all of them. -/
def multiPairing (Ps : List (Point (Fq e))) (Qs : List (Point (Fq2 e))) :
    Except ArithmeticError (Fq12 e) :=
  if Ps.length = Qs.length then
    .ok (finalPower ((List.zipWith millerValue Ps Qs).foldl (· * ·) 1))
  else .error .lengthMismatch

def bn254TargetGenerator : Fq12 .bn254 :=
  pairing Engine.bn254.g1.generator Engine.bn254.g2.generator

def bls12P381TargetGenerator : Fq12 .bls12P381 :=
  pairing Engine.bls12P381.g1.generator Engine.bls12P381.g2.generator

def targetGenerator : (e : Engine) → Fq12 e
  | .bn254 => bn254TargetGenerator
  | .bls12P381 => bls12P381TargetGenerator

end PairingWire
