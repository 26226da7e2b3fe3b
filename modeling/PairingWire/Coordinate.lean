import PairingWire.Quadratic
import PairingWire.Residue

/-!
Fields of point coordinates: the residues modulo `p` and their quadratic extension, seen through the
list of their coefficients. A sign bit selects one of the two roots of the curve equation.
-/

namespace PairingWire

/-- A field of point coordinates over the residues modulo `p`, coefficients in ascending order. -/
class CoordinateField (F : Type) (p : outParam Nat) where
  degree : Nat
  ofBase : Residue p → F
  coefficients : F → List (Residue p)
  ofCoefficients : List (Residue p) → Except ArithmeticError F
  -- The square of the adjoined root, or 1 where nothing is adjoined.
  nonresidue : Residue p
  invert : F → Except ArithmeticError F
  sqrt : F → Except CodecError F
  length_coefficients (x : F) : (coefficients x).length = degree
  ofCoefficients_eq_ok_iff {cs : List (Residue p)} {x : F} :
    ofCoefficients cs = .ok x ↔ cs = coefficients x

export CoordinateField (coefficients ofCoefficients)

instance (p : Nat) [Modulus p] : CoordinateField (Residue p) p where
  degree := 1
  ofBase a := a
  coefficients a := [a]
  ofCoefficients
    | [a] => .ok a
    | cs => .error (.wrongLength 1 cs.length)
  nonresidue := 1
  invert := Residue.invert
  sqrt := Residue.sqrt
  length_coefficients _ := rfl
  ofCoefficients_eq_ok_iff {cs x} := by
    rcases cs with _ | ⟨a, _ | ⟨b, cs⟩⟩ <;> simp

instance (p : Nat) [Modulus p] : CoordinateField (Quadratic p) p where
  degree := 2
  ofBase a := ⟨a, 0⟩
  coefficients a := [a.c0, a.c1]
  ofCoefficients
    | [a, b] => .ok ⟨a, b⟩
    | cs => .error (.wrongLength 2 cs.length)
  nonresidue := Quadratic.nonresidue p
  invert := Quadratic.invert
  sqrt := Quadratic.sqrt
  length_coefficients _ := rfl
  ofCoefficients_eq_ok_iff {cs x} := by
    rcases cs with _ | ⟨a, _ | ⟨b, _ | ⟨c, cs⟩⟩⟩ <;> simp [Quadratic.ext_iff]

/--
How a sign bit tells `y` from `-y`: it is set on the larger of the two, compared by the highest
coefficient that is not zero, or on odd values, by the lowest such coefficient.
-/
inductive SignConvention
  | lexicographic
  | parity
  deriving DecidableEq, Repr

section

variable {F : Type} {p : Nat} [Modulus p] [CoordinateField F p]

def Residue.isLarger (a : Residue p) : Bool := a.compare (-a) = .gt

def signBit (convention : SignConvention) (y : F) : Bool :=
  match convention with
  | .lexicographic => ((coefficients y).reverse.find? (· ≠ 0)).any Residue.isLarger
  | .parity => ((coefficients y).find? (· ≠ 0)).any Residue.isOdd

def weierstrass [Add F] [Mul F] (a b x : F) : F := x * x * x + a * x + b

def recoverY [Add F] [Mul F] [Neg F] (convention : SignConvention) (a b x : F) (sign : Bool) :
    Except CodecError F := do
  let y ← CoordinateField.sqrt (weierstrass a b x)
  if signBit convention y = sign then .ok y
  else if signBit convention (-y) = sign then .ok (-y)
  -- Both roots are zero, and zero carries no sign.
  else .error (.invalidEncoding .nonCanonicalSign)

end

end PairingWire
