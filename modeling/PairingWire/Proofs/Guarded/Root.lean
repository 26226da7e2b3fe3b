import PairingWire.Proofs.Coordinate.Sign
import PairingWire.Proofs.Guarded.Basic

/-!
Square roots with guarded inversions. A root that fails its verification stops the computation, as
does a coordinate with neither one nor two coefficients. Modulo a prime that is 3 modulo 4 nothing
stops, in the field of residues and in its quadratic extension.
-/

namespace PairingWire.Guarded

section Root

variable {p : Nat} [Modulus p]

def residueRoot (a : Residue p) : Guarded (Residue p) :=
  if a = 0 then pure 0
  else if Residue.legendre a ≠ 1 then of (.error .notASquare)
  else do
    let root ← of (Residue.rootCandidate a)
    if root * root = a then pure root else stop

/-- A root in the extension by a root of `beta`, as its two coefficients. -/
def quadraticRoot (a0 a1 beta : Residue p) : Guarded (Residue p × Residue p) :=
  if a1 = 0 then
    if a0.isSquare then do
      let x0 ← residueRoot a0
      return (x0, 0)
    else do
      let inverseBeta ← inverse beta
      let x1 ← residueRoot (a0 * inverseBeta)
      return (0, x1)
  else do
    let gamma ← residueRoot (a0.square - beta * a1.square)
    let half ← inverse (Residue.ofNat p 2)
    let sum := (a0 + gamma) * half
    let x0 ← residueRoot (if sum.isSquare then sum else (a0 - gamma) * half)
    let inverseDouble ← inverse x0.double
    let x1 := a1 * inverseDouble
    if x0.square + beta * x1.square = a0 ∧ (x0 * x1).double = a1 then return (x0, x1) else stop

def sqrt {F : Type} [CoordinateField F p] (a : F) : Guarded F :=
  match coefficients a with
  | [a0] => do
    let x ← residueRoot a0
    return CoordinateField.ofBase x
  | [a0, a1] => do
    let (x0, x1) ← quadraticRoot a0 a1 (CoordinateField.nonresidue F)
    of (liftArithmetic (ofCoefficients [x0, x1]))
  | _ => stop

variable [BlumPrime p]

theorem residueRoot_eq (a : Residue p) : residueRoot a = of a.sqrt := by
  rw [residueRoot, Residue.sqrt_eq]
  refine of_ite (fun _ => rfl) fun nonzero => ?_
  refine of_ite (fun _ => rfl) fun character => ?_
  refine of_bind fun root found => ?_
  have square : a.isSquare = true := by
    rw [Residue.isSquare_iff_pow nonzero]
    exact (Residue.legendre_eq_one_iff nonzero).1 (not_not.1 character)
  have verified : root * root = a := by
    rw [Residue.rootCandidate, if_pos (Residue.modulus_mod_four p), power_eq_pow] at found
    cases found
    exact Residue.pow_quarter_mul_self square
  rw [if_pos verified, if_pos verified]
  rfl

theorem quadraticRoot_eq (a : Quadratic p) :
    (quadraticRoot a.c0 a.c1 (Quadratic.nonresidue p) >>= fun x => pure ⟨x.1, x.2⟩) = of a.sqrt := by
  by_cases base : a.c1 = 0
  · rw [Quadratic.sqrt_base base, quadraticRoot, if_pos base, Quadratic.sqrtBase]
    cases square : a.c0.isSquare with
    | true =>
        rw [if_pos rfl, if_pos rfl, residueRoot_eq]
        cases a.c0.sqrt <;> rfl
    | false =>
        have nonzero : Quadratic.nonresidue p ≠ 0 := neg_ne_zero.2 one_ne_zero
        rw [if_neg Bool.false_ne_true, if_neg Bool.false_ne_true, inverse_eq nonzero, pure_bind_eq,
          Residue.div, if_neg nonzero, liftArithmetic_ok, ok_bind, residueRoot_eq]
        cases (a.c0 * (Quadratic.nonresidue p)⁻¹).sqrt <;> rfl
  · rw [quadraticRoot, if_neg base, Quadratic.normExpression_eq, residueRoot_eq]
    cases norm : a.norm.sqrt with
    | error err =>
        rw [Quadratic.sqrt_of_norm_error base norm, Residue.sqrt_error norm]
        rfl
    | ok gamma =>
        -- The codec finds a root here, which shows that no inverse of zero is asked for.
        obtain ⟨x0, first, found, _⟩ := Quadratic.sqrt_of_norm base norm
        have gamma_root := Residue.mul_self_of_sqrt norm
        have first_root := Residue.mul_self_of_sqrt first
        have half : (if ((a.c0 + gamma) * 2⁻¹).isSquare then (a.c0 + gamma) * 2⁻¹
            else (a.c0 - gamma) * 2⁻¹) = a.squareHalf gamma := by
          rw [Quadratic.squareHalf, Quadratic.halfSum, Quadratic.halfSum, ← sub_eq_add_neg]
        have two : Residue.ofNat p 2 ≠ 0 := Residue.two_ne_zero_of_odd (p := p)
        have half_eq : (Residue.ofNat p 2)⁻¹ = (2 : Residue p)⁻¹ := rfl
        rw [of_ok_bind, inverse_eq two, pure_bind_eq, half_eq]
        simp only [half]
        rw [residueRoot_eq, first, of_ok_bind,
          inverse_eq (Quadratic.double_ne_zero base gamma_root first_root), pure_bind_eq,
          if_pos (Quadratic.verification base gamma_root first_root), found]
        rfl

end Root

class GuardedCoordinates (F : Type) {p : Nat} [Modulus p] [CoordinateField F p] : Prop where
  sqrt_eq (a : F) : sqrt a = of (CoordinateField.sqrt a)

section Instances

variable {p : Nat} [Modulus p] [BlumPrime p]

instance : GuardedCoordinates (Residue p) where
  sqrt_eq a := by
    change (residueRoot a >>= fun x => pure x) = of a.sqrt
    rw [bind_pure, residueRoot_eq]

instance : GuardedCoordinates (Quadratic p) where
  sqrt_eq a := quadraticRoot_eq a

end Instances

end PairingWire.Guarded
