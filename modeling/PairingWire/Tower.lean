import PairingWire.Engine

/-!
The tower over the quadratic extension: `Fq6` adjoins a cube root `v` of `ξ`, and `Fq12` a square
root `w` of `v`. The target group is its subgroup of the elements whose power with exponent the group
order is 1.
-/

namespace PairingWire

/-- The element `b0 + b1 * v + b2 * v²`, where `v³ = ξ`. -/
structure Fq6 (e : Engine) where
  b0 : Fq2 e
  b1 : Fq2 e
  b2 : Fq2 e
  deriving DecidableEq, Repr

/-- The element `c0 + c1 * w`, where `w² = v`. -/
structure Fq12 (e : Engine) where
  c0 : Fq6 e
  c1 : Fq6 e
  deriving DecidableEq, Repr

variable {e : Engine}

namespace Fq6

@[ext] theorem ext {x y : Fq6 e} (h0 : x.b0 = y.b0) (h1 : x.b1 = y.b1) (h2 : x.b2 = y.b2) :
    x = y := by
  cases x; cases y; cases h0; cases h1; cases h2; rfl

instance : Zero (Fq6 e) := ⟨⟨0, 0, 0⟩⟩

instance : One (Fq6 e) := ⟨⟨1, 0, 0⟩⟩

instance : Add (Fq6 e) := ⟨fun x y => ⟨x.b0 + y.b0, x.b1 + y.b1, x.b2 + y.b2⟩⟩

instance : Neg (Fq6 e) := ⟨fun x => ⟨-x.b0, -x.b1, -x.b2⟩⟩

instance : Sub (Fq6 e) := ⟨fun x y => ⟨x.b0 - y.b0, x.b1 - y.b1, x.b2 - y.b2⟩⟩

protected def mul (x y : Fq6 e) : Fq6 e :=
  let ξ := e.towerNonresidue
  { b0 := x.b0 * y.b0 + ξ * (x.b1 * y.b2 + x.b2 * y.b1)
    b1 := x.b0 * y.b1 + x.b1 * y.b0 + ξ * (x.b2 * y.b2)
    b2 := x.b0 * y.b2 + x.b1 * y.b1 + x.b2 * y.b0 }

instance : Mul (Fq6 e) := ⟨Fq6.mul⟩

def timesV (x : Fq6 e) : Fq6 e := ⟨e.towerNonresidue * x.b2, x.b0, x.b1⟩

/-- By the adjugate of the multiplication matrix; zero has the inverse zero. -/
protected def inv (x : Fq6 e) : Fq6 e :=
  let ξ := e.towerNonresidue
  let t0 := x.b0 * x.b0 - ξ * (x.b1 * x.b2)
  let t1 := ξ * (x.b2 * x.b2) - x.b0 * x.b1
  let t2 := x.b1 * x.b1 - x.b0 * x.b2
  let d := (x.b0 * t0 + ξ * (x.b2 * t1 + x.b1 * t2))⁻¹
  ⟨t0 * d, t1 * d, t2 * d⟩

instance : Inv (Fq6 e) := ⟨Fq6.inv⟩

end Fq6

namespace Fq12

@[ext] theorem ext {x y : Fq12 e} (h0 : x.c0 = y.c0) (h1 : x.c1 = y.c1) : x = y := by
  cases x; cases y; cases h0; cases h1; rfl

instance : Zero (Fq12 e) := ⟨⟨0, 0⟩⟩

instance : One (Fq12 e) := ⟨⟨1, 0⟩⟩

instance : Add (Fq12 e) := ⟨fun x y => ⟨x.c0 + y.c0, x.c1 + y.c1⟩⟩

instance : Neg (Fq12 e) := ⟨fun x => ⟨-x.c0, -x.c1⟩⟩

instance : Sub (Fq12 e) := ⟨fun x y => ⟨x.c0 - y.c0, x.c1 - y.c1⟩⟩

protected def mul (x y : Fq12 e) : Fq12 e :=
  ⟨x.c0 * y.c0 + (x.c1 * y.c1).timesV, x.c0 * y.c1 + x.c1 * y.c0⟩

instance : Mul (Fq12 e) := ⟨Fq12.mul⟩

def conj (x : Fq12 e) : Fq12 e := ⟨x.c0, -x.c1⟩

protected def inv (x : Fq12 e) : Fq12 e :=
  let d := (x.c0 * x.c0 - (x.c1 * x.c1).timesV)⁻¹
  ⟨x.c0 * d, -x.c1 * d⟩

instance : Inv (Fq12 e) := ⟨Fq12.inv⟩

/-- The coefficients of `1, v, v², w, v w, v² w`. -/
def coefficients (x : Fq12 e) : List (Fq2 e) :=
  [x.c0.b0, x.c0.b1, x.c0.b2, x.c1.b0, x.c1.b1, x.c1.b2]

def InSubgroup (x : Fq12 e) : Prop := x ≠ 0 ∧ power x e.groupOrder = 1

instance (x : Fq12 e) : Decidable x.InSubgroup :=
  inferInstanceAs (Decidable (x ≠ 0 ∧ power x e.groupOrder = 1))

def exp (x : Fq12 e) (k : Fr e) : Fq12 e := power x k.val

def inverse (x : Fq12 e) : Except ArithmeticError (Fq12 e) :=
  if x = 0 then .error .inverseOfZero else .ok x⁻¹

def div (x y : Fq12 e) : Except ArithmeticError (Fq12 e) :=
  if y = 0 then .error .divisionByZero else .ok (x * y⁻¹)

def check (x : Fq12 e) : Except ArithmeticError (Fq12 e) :=
  if x.InSubgroup then .ok x else .error .notInSubgroup

end Fq12

end PairingWire
