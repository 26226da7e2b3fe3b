import PairingWire.Proofs.Quadratic.Field

/-!
Square roots in the quadratic extension. An element is a square exactly if its norm is one, and then
a root is found: of the half sum and the half difference of the first coefficient and a root of the
norm one is a square, and the two coefficients that it leads to pass the final verification.
-/

namespace PairingWire.Quadratic

variable {p : Nat} [Modulus p]

theorem sqrt_base {a : Quadratic p} (base : a.c1 = 0) : a.sqrt = sqrtBase a.c0 := by
  rw [sqrt, if_pos base]

variable [BlumPrime p]

theorem normExpression_eq (a : Quadratic p) :
    a.c0.square - nonresidue p * a.c1.square = a.norm := by
  simp only [Residue.square, nonresidue, norm]
  ring

theorem invert_two : (Residue.ofNat p 2).invert = .ok (2 : Residue p)⁻¹ := by
  have nonzero : Residue.ofNat p 2 ≠ 0 := Residue.two_ne_zero_of_odd (p := p)
  rw [Residue.invert, if_neg nonzero]
  rfl

theorem div_nonresidue (a : Residue p) : a.div (nonresidue p) = .ok (-a) := by
  have nonzero : nonresidue p ≠ 0 := neg_ne_zero.2 one_ne_zero
  rw [Residue.div, if_neg nonzero, nonresidue, inv_neg, inv_one, mul_neg_one]

omit [BlumPrime p] in
theorem sqrtBase_zero : sqrtBase (0 : Residue p) = .ok 0 := by
  rw [sqrtBase, if_pos Residue.isSquare_zero, Residue.sqrt, if_pos rfl]
  rfl

theorem sqrtBase_of_root {a : Residue p} (square : ∃ b, b * b = a) :
    ∃ x, sqrtBase a = .ok ⟨x, 0⟩ ∧ x * x = a := by
  have decided := Residue.isSquare_iff_exists.2 square
  refine ⟨_, ?_, Residue.pow_quarter_mul_self decided⟩
  rw [sqrtBase, if_pos decided, Residue.sqrt_of_isSquare decided, ok_bind, pure_eq_ok]

theorem sqrtBase_of_rootless {a : Residue p} (rootless : ¬∃ b, b * b = a) :
    ∃ x, sqrtBase a = .ok ⟨0, x⟩ ∧ nonresidue p * (x * x) = a := by
  rw [← Residue.isSquare_iff_exists, Bool.not_eq_true] at rootless
  have opposite := Residue.isSquare_neg rootless
  refine ⟨(-a) ^ ((p + 1) / 4), ?_, ?_⟩
  · rw [sqrtBase, if_neg (by simp [rootless]), div_nonresidue, liftArithmetic_ok, ok_bind,
      Residue.sqrt_of_isSquare opposite, ok_bind, pure_eq_ok]
  · rw [Residue.pow_quarter_mul_self opposite, nonresidue, neg_mul_neg, one_mul]

theorem sqrtBase_spec (a : Residue p) : ∃ x, sqrtBase a = .ok x ∧ x * x = ⟨a, 0⟩ := by
  by_cases square : ∃ b, b * b = a
  · obtain ⟨x, found, root⟩ := sqrtBase_of_root square
    refine ⟨_, found, ?_⟩
    rw [← root]
    ext1 <;> simp [c0_mul, c1_mul]
  · obtain ⟨x, found, root⟩ := sqrtBase_of_rootless square
    refine ⟨_, found, ?_⟩
    rw [← root]
    ext1 <;> simp [c0_mul, c1_mul, nonresidue]

def halfSum (a : Quadratic p) (gamma : Residue p) : Residue p := (a.c0 + gamma) * 2⁻¹

/-- The half sum if it is a square, and else the half difference. -/
def squareHalf (a : Quadratic p) (gamma : Residue p) : Residue p :=
  if (a.halfSum gamma).isSquare then a.halfSum gamma else a.halfSum (-gamma)

variable {a : Quadratic p} {gamma : Residue p}

theorem two_mul_halfSum (a : Quadratic p) (gamma : Residue p) :
    2 * a.halfSum gamma = a.c0 + gamma := by
  rw [halfSum, mul_comm, mul_assoc, inv_mul_cancel₀ Residue.two_ne_zero_of_odd, mul_one]

theorem halfSum_equation (root : gamma * gamma = a.norm) :
    4 * (a.halfSum gamma * a.halfSum gamma) - 4 * (a.c0 * a.halfSum gamma) = a.c1 * a.c1 := by
  have twice := two_mul_halfSum a gamma
  have expanded : gamma * gamma = a.c0 * a.c0 + a.c1 * a.c1 := root
  linear_combination (2 * a.halfSum gamma + gamma - a.c0) * twice + expanded

theorem halfSum_ne_zero (outside : a.c1 ≠ 0) (root : gamma * gamma = a.norm) :
    a.halfSum gamma ≠ 0 := by
  intro zero
  have equation := halfSum_equation root
  rw [zero] at equation
  apply mul_ne_zero outside outside
  linear_combination -equation

/-- The two halves have the product `-(c1 / 2)²`, so that exactly one of them is a square. -/
theorem isSquare_halfSum (outside : a.c1 ≠ 0) (root : gamma * gamma = a.norm) :
    (a.halfSum gamma).isSquare = !(a.halfSum (-gamma)).isSquare := by
  have two := Residue.two_ne_zero_of_odd (p := p)
  have expanded : gamma * gamma = a.c0 * a.c0 + a.c1 * a.c1 := root
  have product : a.halfSum gamma * a.halfSum (-gamma) = -1 * (a.c1 * 2⁻¹ * (a.c1 * 2⁻¹)) := by
    rw [halfSum, halfSum]
    linear_combination -(2⁻¹ * 2⁻¹) * expanded
  apply Residue.isSquare_eq_not
  rw [← Residue.legendre_mul, product, Residue.legendre_mul, Residue.legendre_neg_one,
    Residue.legendre_mul_self (mul_ne_zero outside (inv_ne_zero two)), mul_one]

theorem isSquare_squareHalf (outside : a.c1 ≠ 0) (root : gamma * gamma = a.norm) :
    (a.squareHalf gamma).isSquare = true := by
  unfold squareHalf
  split
  · assumption
  · rename_i nonsquare
    rw [isSquare_halfSum outside root, Bool.not_eq_true, Bool.not_eq_false'] at nonsquare
    exact nonsquare

theorem squareHalf_eq_halfSum (a : Quadratic p) (gamma : Residue p) :
    ∃ other, other * other = gamma * gamma ∧ a.squareHalf gamma = a.halfSum other := by
  unfold squareHalf
  split
  · exact ⟨gamma, rfl, rfl⟩
  · exact ⟨-gamma, neg_mul_neg gamma gamma, rfl⟩

theorem double_ne_zero_of_half (outside : a.c1 ≠ 0) (root : gamma * gamma = a.norm) {x0 : Residue p}
    (first : x0 * x0 = a.halfSum gamma) : x0.double ≠ 0 := by
  have nonzero : x0 ≠ 0 := by
    rintro rfl
    rw [mul_zero] at first
    exact halfSum_ne_zero outside root first.symm
  rw [Residue.double, ← two_mul]
  exact mul_ne_zero Residue.two_ne_zero_of_odd nonzero

/-- The final verification refuses no coefficients that come from a root of a half. -/
theorem verification_of_half (outside : a.c1 ≠ 0) (root : gamma * gamma = a.norm) {x0 : Residue p}
    (first : x0 * x0 = a.halfSum gamma) :
    x0.square + nonresidue p * (a.c1 * x0.double⁻¹).square = a.c0 ∧
      (x0 * (a.c1 * x0.double⁻¹)).double = a.c1 := by
  have denominator := double_ne_zero_of_half outside root first
  have equation := halfSum_equation root
  rw [← first] at equation
  have double_eq : x0.double = 2 * x0 := (two_mul x0).symm
  rw [double_eq] at denominator ⊢
  have nonzero : x0 ≠ 0 := right_ne_zero_of_mul denominator
  have two := Residue.two_ne_zero_of_odd (p := p)
  constructor
  · simp only [Residue.square, nonresidue]
    field_simp
    linear_combination equation
  · simp only [Residue.double]
    field_simp
    ring

theorem double_ne_zero (outside : a.c1 ≠ 0) (root : gamma * gamma = a.norm) {x0 : Residue p}
    (first : x0 * x0 = a.squareHalf gamma) : x0.double ≠ 0 := by
  obtain ⟨other, same, chosen⟩ := squareHalf_eq_halfSum a gamma
  exact double_ne_zero_of_half outside (same.trans root) (first.trans chosen)

theorem verification (outside : a.c1 ≠ 0) (root : gamma * gamma = a.norm) {x0 : Residue p}
    (first : x0 * x0 = a.squareHalf gamma) :
    x0.square + nonresidue p * (a.c1 * x0.double⁻¹).square = a.c0 ∧
      (x0 * (a.c1 * x0.double⁻¹)).double = a.c1 := by
  obtain ⟨other, same, chosen⟩ := squareHalf_eq_halfSum a gamma
  exact verification_of_half outside (same.trans root) (first.trans chosen)

omit [BlumPrime p] in
theorem mul_self_of_verification {x0 x1 : Residue p}
    (verified : x0.square + nonresidue p * x1.square = a.c0 ∧ (x0 * x1).double = a.c1) :
    (⟨x0, x1⟩ : Quadratic p) * ⟨x0, x1⟩ = a := by
  ext1
  · rw [← verified.1]
    simp only [c0_mul, Residue.square, nonresidue]
    ring
  · rw [c1_mul, mul_comm x1, ← Residue.double]
    exact verified.2

/-- Outside the base field a root is found as soon as the norm has one. -/
theorem sqrt_of_norm (outside : a.c1 ≠ 0) (root : a.norm.sqrt = .ok gamma) :
    ∃ x0 : Residue p, (a.squareHalf gamma).sqrt = .ok x0 ∧
      a.sqrt = .ok ⟨x0, a.c1 * x0.double⁻¹⟩ ∧
      (⟨x0, a.c1 * x0.double⁻¹⟩ : Quadratic p) * ⟨x0, a.c1 * x0.double⁻¹⟩ = a := by
  have gamma_root := Residue.mul_self_of_sqrt root
  have found := Residue.sqrt_of_isSquare (isSquare_squareHalf outside gamma_root)
  have first := Residue.mul_self_of_sqrt found
  have verified := verification outside gamma_root first
  refine ⟨_, found, ?_, ?_⟩
  · have half : (if ((a.c0 + gamma) * 2⁻¹).isSquare then (a.c0 + gamma) * 2⁻¹
        else (a.c0 - gamma) * 2⁻¹) = a.squareHalf gamma := by
      rw [squareHalf, halfSum, halfSum, ← sub_eq_add_neg]
    rw [sqrt, if_neg outside, normExpression_eq, root, ok_bind, invert_two, liftArithmetic_ok,
      ok_bind]
    simp only [half, found, ok_bind]
    rw [Residue.div, if_neg (double_ne_zero outside gamma_root first)]
    simp only [Except.mapError, ok_bind]
    rw [if_pos verified]
  · exact mul_self_of_verification verified

theorem sqrt_of_norm_error (outside : a.c1 ≠ 0) {err : CodecError} (failed : a.norm.sqrt = .error err) :
    a.sqrt = .error .notASquare := by
  rw [sqrt, if_neg outside, normExpression_eq, failed, Residue.sqrt_error failed]
  rfl

theorem mul_self_of_sqrt {a x : Quadratic p} (found : a.sqrt = .ok x) : x * x = a := by
  by_cases base : a.c1 = 0
  · obtain ⟨x', found', square⟩ := sqrtBase_spec a.c0
    rw [sqrt_base base, found'] at found
    cases found
    rw [square, ← base]
  · cases norm : a.norm.sqrt with
    | ok gamma =>
        obtain ⟨x0, _, found', square⟩ := sqrt_of_norm base norm
        rw [found'] at found
        cases found
        exact square
    | error err =>
        rw [sqrt_of_norm_error base norm] at found
        cases found

theorem sqrt_error {a : Quadratic p} {err : CodecError} (failed : a.sqrt = .error err) :
    err = .notASquare := by
  by_cases base : a.c1 = 0
  · obtain ⟨x, found, _⟩ := sqrtBase_spec a.c0
    rw [sqrt_base base, found] at failed
    cases failed
  · cases norm : a.norm.sqrt with
    | ok gamma =>
        obtain ⟨x0, _, found, _⟩ := sqrt_of_norm base norm
        rw [found] at failed
        cases failed
    | error err' =>
        rw [sqrt_of_norm_error base norm] at failed
        cases failed
        rfl

theorem exists_sqrt_mul_self (y : Quadratic p) : ∃ x, (y * y).sqrt = .ok x := by
  by_cases base : (y * y).c1 = 0
  · obtain ⟨x, found, _⟩ := sqrtBase_spec (y * y).c0
    exact ⟨x, (sqrt_base base).trans found⟩
  · have norm_square := Residue.isSquare_mul_self y.norm
    rw [← norm_mul] at norm_square
    obtain ⟨x0, _, found, _⟩ := sqrt_of_norm base (Residue.sqrt_of_isSquare norm_square)
    exact ⟨_, found⟩

end PairingWire.Quadratic
