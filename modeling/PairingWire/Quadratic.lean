import PairingWire.Residue.Root

/-!
The quadratic extension of the residues modulo `p` by a root `u` of `-1`. Square roots are found by
way of the norm, which is a square exactly for the squares of the extension.
-/

namespace PairingWire

/-- The element `c0 + c1 * u`, where `u * u = -1`. -/
structure Quadratic (p : Nat) where
  c0 : Residue p
  c1 : Residue p
  deriving DecidableEq, Repr

namespace Quadratic

variable {p : Nat}

@[ext] theorem ext {a b : Quadratic p} (h0 : a.c0 = b.c0) (h1 : a.c1 = b.c1) : a = b := by
  cases a; cases b; cases h0; cases h1; rfl

instance [Modulus p] : Zero (Quadratic p) := ⟨⟨0, 0⟩⟩

instance [Modulus p] : One (Quadratic p) := ⟨⟨1, 0⟩⟩

instance : Add (Quadratic p) := ⟨fun a b => ⟨a.c0 + b.c0, a.c1 + b.c1⟩⟩

instance : Neg (Quadratic p) := ⟨fun a => ⟨-a.c0, -a.c1⟩⟩

instance : Sub (Quadratic p) := ⟨fun a b => ⟨a.c0 - b.c0, a.c1 - b.c1⟩⟩

instance : Mul (Quadratic p) :=
  ⟨fun a b => ⟨a.c0 * b.c0 - a.c1 * b.c1, a.c0 * b.c1 + a.c1 * b.c0⟩⟩

def conj (a : Quadratic p) : Quadratic p := ⟨a.c0, -a.c1⟩

def norm (a : Quadratic p) : Residue p := a.c0 * a.c0 + a.c1 * a.c1

/-- Zero has the inverse zero here; `invert` refuses it. -/
instance [Modulus p] : Inv (Quadratic p) :=
  ⟨fun a => let n := a.norm⁻¹; ⟨a.c0 * n, -a.c1 * n⟩⟩

def invert [Modulus p] (a : Quadratic p) : Except ArithmeticError (Quadratic p) :=
  if a = 0 then .error .inverseOfZero else .ok a⁻¹

def nonresidue (p : Nat) [Modulus p] : Residue p := -1

def ofNat (p : Nat) [Modulus p] (n : Nat) : Quadratic p := ⟨Residue.ofNat p n, 0⟩

theorem c0_add (a b : Quadratic p) : (a + b).c0 = a.c0 + b.c0 := rfl

theorem c1_add (a b : Quadratic p) : (a + b).c1 = a.c1 + b.c1 := rfl

theorem c0_mul (a b : Quadratic p) : (a * b).c0 = a.c0 * b.c0 - a.c1 * b.c1 := rfl

theorem c1_mul (a b : Quadratic p) : (a * b).c1 = a.c0 * b.c1 + a.c1 * b.c0 := rfl

theorem c0_neg (a : Quadratic p) : (-a).c0 = -a.c0 := rfl

theorem c1_neg (a : Quadratic p) : (-a).c1 = -a.c1 := rfl

def sqrtBase [Modulus p] (a : Residue p) : Except CodecError (Quadratic p) :=
  if a.isSquare then do
    let x ← a.sqrt
    return ⟨x, 0⟩
  else do
    let quotient ← liftArithmetic (a.div (nonresidue p))
    let x ← quotient.sqrt
    return ⟨0, x⟩

/--
One of the two roots of a square. Outside the base field the first coefficient squares to the half
sum of `c0` and a root of the norm, or to the half difference; only one of them is a square.
-/
def sqrt [Modulus p] (a : Quadratic p) : Except CodecError (Quadratic p) :=
  if a.c1 = 0 then sqrtBase a.c0
  else do
    let gamma ← (a.c0.square - nonresidue p * a.c1.square).sqrt
    let half ← liftArithmetic (Residue.ofNat p 2).invert
    let sum := (a.c0 + gamma) * half
    let x0 ← (if sum.isSquare then sum else (a.c0 - gamma) * half).sqrt
    let x1 ← (a.c1.div x0.double).mapError fun _ => .notASquare
    if x0.square + nonresidue p * x1.square = a.c0 ∧ (x0 * x1).double = a.c1 then
      .ok ⟨x0, x1⟩
    else .error .notASquare

end Quadratic

end PairingWire
