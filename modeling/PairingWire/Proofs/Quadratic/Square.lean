import PairingWire.Proofs.Guarded.Root
import PairingWire.Proofs.Primality

/-!
The squares of the quadratic extension are exactly the elements a root is found for. In the base field
that is every element, and the root lies in it or is a multiple of the adjoined one; outside, each root
of the norm leaves one half that is a square, and every root of that half leads to a root.
-/

namespace PairingWire.Quadratic

variable {p : Nat} [Modulus p] [BlumPrime p]

theorem exists_sqrt_iff_exists {a : Quadratic p} : (∃ x, a.sqrt = .ok x) ↔ ∃ y, y * y = a := by
  constructor
  · rintro ⟨x, found⟩
    exact ⟨x, mul_self_of_sqrt found⟩
  · rintro ⟨y, rfl⟩
    exact exists_sqrt_mul_self y

theorem sqrt_of_not_exists {a : Quadratic p} (rootless : ¬∃ y, y * y = a) :
    a.sqrt = .error .notASquare := by
  rw [← exists_sqrt_iff_exists, not_exists] at rootless
  obtain ⟨err, failed⟩ := exists_error_of_ne_ok rootless
  rw [failed, sqrt_error failed]

section Outside

variable {a : Quadratic p} {gamma : Residue p}

theorem halfSum_neg (a : Quadratic p) (gamma : Residue p) :
    a.halfSum (-gamma) = (a.c0 - gamma) * 2⁻¹ := by
  rw [halfSum, sub_eq_add_neg]

theorem one_half_is_square (outside : a.c1 ≠ 0) (root : gamma * gamma = a.norm) :
    (∃ b, b * b = (a.c0 + gamma) * 2⁻¹) ↔ ¬∃ b, b * b = (a.c0 - gamma) * 2⁻¹ := by
  have opposite := isSquare_halfSum outside root
  rw [← halfSum_neg, ← halfSum, ← Residue.isSquare_iff_exists, ← Residue.isSquare_iff_exists, opposite,
    Bool.not_eq_true', Bool.not_eq_true]

theorem root_of_half (outside : a.c1 ≠ 0) (root : gamma * gamma = a.norm) {x : Residue p}
    (first : x * x = (a.c0 + gamma) * 2⁻¹ ∨ x * x = (a.c0 - gamma) * 2⁻¹) :
    2 * x ≠ 0 ∧ (⟨x, a.c1 * (2 * x)⁻¹⟩ : Quadratic p) * ⟨x, a.c1 * (2 * x)⁻¹⟩ = a := by
  rw [two_mul, ← Residue.double]
  rcases first with sum | difference
  · exact ⟨double_ne_zero_of_half outside root sum,
      mul_self_of_verification (verification_of_half outside root sum)⟩
  -- The half difference is the half sum for the opposite root of the norm.
  · rw [← halfSum_neg] at difference
    have root' := (neg_mul_neg gamma gamma).trans root
    exact ⟨double_ne_zero_of_half outside root' difference,
      mul_self_of_verification (verification_of_half outside root' difference)⟩

end Outside

/--
In the quadratic extension of either engine a root is found exactly for the squares, and every other
element is refused as no square. An element of the base field has a root there or a multiple of the
adjoined root; outside the base field each root of the norm leaves exactly one half that is a square, and
every root of it gives coefficients that pass the verification, so that no assertion is ever reached.
-/
theorem sqrt_decides_extension_squares (e : Engine) (a : Fq2 e) :
    ((∃ x, CoordinateField.sqrt a = .ok x ∧ x * x = a) ↔ ∃ y, y * y = a) ∧
    ((¬∃ y, y * y = a) → CoordinateField.sqrt a = .error .notASquare) ∧
    (a.c1 = 0 →
      (a.c0 = 0 → CoordinateField.sqrt a = .ok 0) ∧
      ((∃ b, b * b = a.c0) → ∃ x, CoordinateField.sqrt a = .ok ⟨x, 0⟩ ∧ x * x = a.c0) ∧
      ((¬∃ b, b * b = a.c0) →
        ∃ x, CoordinateField.sqrt a = .ok ⟨0, x⟩ ∧ nonresidue e.fieldOrder * (x * x) = a.c0)) ∧
    (a.c1 ≠ 0 → ∀ gamma,
      gamma * gamma = a.c0 * a.c0 - nonresidue e.fieldOrder * (a.c1 * a.c1) →
      ((∃ b, b * b = (a.c0 + gamma) * 2⁻¹) ↔ ¬∃ b, b * b = (a.c0 - gamma) * 2⁻¹) ∧
      ∀ x, x * x = (a.c0 + gamma) * 2⁻¹ ∨ x * x = (a.c0 - gamma) * 2⁻¹ →
        2 * x ≠ 0 ∧ (⟨x, a.c1 * (2 * x)⁻¹⟩ : Fq2 e) * ⟨x, a.c1 * (2 * x)⁻¹⟩ = a) ∧
    Guarded.sqrt a = Guarded.of (CoordinateField.sqrt a) := by
  refine ⟨?_, sqrt_of_not_exists, ?_, ?_, Guarded.GuardedCoordinates.sqrt_eq a⟩
  · constructor
    · rintro ⟨x, _, square⟩
      exact ⟨x, square⟩
    · intro square
      obtain ⟨x, found⟩ := exists_sqrt_iff_exists.2 square
      exact ⟨x, found, mul_self_of_sqrt found⟩
  · intro base
    have embedded : CoordinateField.sqrt a = sqrtBase a.c0 := sqrt_base base
    rw [embedded]
    refine ⟨?_, sqrtBase_of_root, sqrtBase_of_rootless⟩
    intro zero
    rw [zero, sqrtBase_zero]
  · intro outside gamma equation
    have root : gamma * gamma = a.norm := equation.trans (normExpression_eq a)
    exact ⟨one_half_is_square outside root, fun x first => root_of_half outside root first⟩

end PairingWire.Quadratic
