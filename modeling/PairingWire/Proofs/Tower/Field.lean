import PairingWire.Proofs.Tower

/-!
The tower consists of fields. The power with exponent `p¹²` is the identity, so only zero is nilpotent;
and the product of the six conjugates of an element over the quadratic extension lies in this
extension. So every element but zero is a unit, and the computed inverses are inverses. No instance of
a field is declared: powers stay those of the rings.
-/

namespace PairingWire

variable {e : Engine}

namespace Fq12

theorem pow_fieldOrder_six (x : Fq12 e) : x ^ e.fieldOrder ^ 6 = x.conj := by
  calc
    x ^ e.fieldOrder ^ 6 = ((x ^ e.fieldOrder ^ 2) ^ e.fieldOrder ^ 2) ^ e.fieldOrder ^ 2 := by
      rw [← pow_mul, ← pow_mul, ← pow_add, ← pow_add]
    _ = x.conj := by simp only [pow_fieldOrder_sq, twist_ζ_twist_ζ_twist_ζ]

theorem conj_conj (x : Fq12 e) : x.conj.conj = x := by
  ext1
  · rfl
  · exact neg_neg x.c1

theorem pow_card (x : Fq12 e) : x ^ e.fieldOrder ^ 12 = x := by
  calc
    x ^ e.fieldOrder ^ 12 = (x ^ e.fieldOrder ^ 6) ^ e.fieldOrder ^ 6 := by
      rw [← pow_mul, ← pow_add]
    _ = x := by rw [pow_fieldOrder_six, pow_fieldOrder_six, conj_conj]

/-- The elements that the power with exponent `p²` fixes are those of the quadratic extension. -/
theorem eq_ofFq2_of_pow {x : Fq12 e} (fixed : x ^ e.fieldOrder ^ 2 = x) : x = ofFq2 x.c0.b0 := by
  rw [pow_fieldOrder_sq, twist_ζ] at fixed
  have equation := e.ζ_equation
  have three := e.three_ne_zero'
  have vanish {a b : Fq2 e} (nonzero : a ≠ 0) (product : a * b = 0) : b = 0 :=
    (mul_eq_zero.1 product).resolve_left nonzero
  simp only [Fq12.ext_iff, Fq6.ext_iff] at fixed
  obtain ⟨⟨-, fixed2, fixed4⟩, fixed1, fixed3, fixed5⟩ := fixed
  ext1 <;> ext1
  · rfl
  · apply vanish three
    linear_combination -(e.ζ + 1) * fixed2 + x.c0.b1 * equation
  · apply vanish three
    linear_combination (e.ζ - 2) * fixed4 + x.c0.b2 * equation
  · apply vanish e.ζ_ne_one
    linear_combination fixed1
  · apply vanish Quadratic.two_ne_zero_of_odd
    linear_combination -fixed3
  · apply vanish e.ζ_ne_zero
    linear_combination -fixed5

/-- The product of the conjugates over the quadratic extension lies in it, and vanishes for zero only. -/
theorem isUnit_of_ne_zero {x : Fq12 e} (nonzero : x ≠ 0) : IsUnit x := by
  obtain ⟨k, k_eq⟩ : ∃ k, k = e.fieldOrder ^ 2 + e.fieldOrder ^ 4 + e.fieldOrder ^ 6 +
      e.fieldOrder ^ 8 + e.fieldOrder ^ 10 := ⟨_, rfl⟩
  have shifted : (k + 1) * e.fieldOrder ^ 2 = k + e.fieldOrder ^ 12 := by
    rw [k_eq]
    ring
  -- The power with exponent `p²` permutes the conjugates in the product.
  have fixed : (x ^ (k + 1)) ^ e.fieldOrder ^ 2 = x ^ (k + 1) := by
    rw [← pow_mul, shifted, pow_add, pow_card, ← pow_succ]
  have product := eq_ofFq2_of_pow fixed
  apply (isUnit_pow_iff (Nat.succ_ne_zero k)).1
  rw [product]
  apply IsUnit.map
  apply IsUnit.mk0
  intro vanishing
  rw [vanishing, map_zero] at product
  have exponent : k + 1 ≤ e.fieldOrder ^ 12 := by
    have two : 2 ≤ e.fieldOrder ^ 2 := by cases e <;> decide
    have doubled := Nat.mul_le_mul_left (k + 1) two
    omega
  apply nonzero
  rw [← pow_card x]
  exact pow_eq_zero_of_le exponent product

theorem pow_card_sub_one {x : Fq12 e} (nonzero : x ≠ 0) : x ^ (e.fieldOrder ^ 12 - 1) = 1 := by
  have exponent : e.fieldOrder ^ 12 - 1 + 1 = e.fieldOrder ^ 12 :=
    Nat.succ_pred_eq_of_pos (Nat.pow_pos (Nat.pos_of_ne_zero (NeZero.ne _)))
  apply (isUnit_of_ne_zero nonzero).mul_right_cancel
  rw [← pow_succ, exponent, pow_card, one_mul]

end Fq12

namespace Fq6

/-- The factor that takes an element to its norm over the quadratic extension. -/
def adjugate (x : Fq6 e) : Fq6 e :=
  ⟨x.b0 * x.b0 - e.towerNonresidue * (x.b1 * x.b2),
    e.towerNonresidue * (x.b2 * x.b2) - x.b0 * x.b1, x.b1 * x.b1 - x.b0 * x.b2⟩

def norm (x : Fq6 e) : Fq2 e :=
  x.b0 * x.adjugate.b0 +
    e.towerNonresidue * (x.b2 * x.adjugate.b1 + x.b1 * x.adjugate.b2)

theorem mul_adjugate (x : Fq6 e) : x * x.adjugate = ⟨x.norm, 0, 0⟩ := by
  ext1 <;> simp only [b0_mul, b1_mul, b2_mul, norm, adjugate] <;> ring

theorem adjugate_mul (x y : Fq6 e) : (x * y).adjugate = x.adjugate * y.adjugate := by
  ext1 <;> simp only [b0_mul, b1_mul, b2_mul, adjugate] <;> ring

theorem exists_mul_eq_one {x : Fq6 e} (nonzero : x ≠ 0) : ∃ y, x * y = 1 := by
  have embedded : (⟨x, 0⟩ : Fq12 e) ≠ 0 := fun zero => nonzero (congrArg Fq12.c0 zero)
  obtain ⟨y, inverse⟩ := (Fq12.isUnit_of_ne_zero embedded).exists_right_inv
  refine ⟨y.c0, ?_⟩
  have constant := congrArg Fq12.c0 inverse
  simpa [timesV_eq] using constant

theorem norm_ne_zero {x : Fq6 e} (nonzero : x ≠ 0) : x.norm ≠ 0 := by
  obtain ⟨y, inverse⟩ := exists_mul_eq_one nonzero
  intro vanishing
  have product := x.mul_adjugate
  rw [vanishing] at product
  have adjugate_zero : x.adjugate = 0 := by
    calc
      x.adjugate = x * y * x.adjugate := by rw [inverse, one_mul]
      _ = y * (x * x.adjugate) := by ring
      _ = 0 := by rw [product]; exact mul_zero y
  have one_zero := adjugate_mul x y
  rw [inverse, adjugate_zero, zero_mul] at one_zero
  have constant := congrArg b0 one_zero
  simp [adjugate] at constant

theorem inv_eq (x : Fq6 e) : x⁻¹ = x.adjugate * ⟨x.norm⁻¹, 0, 0⟩ := by
  ext1 <;> simp [norm, adjugate] <;> rfl

theorem mul_inv_of_ne_zero {x : Fq6 e} (nonzero : x ≠ 0) : x * x⁻¹ = 1 := by
  rw [inv_eq, ← mul_assoc, mul_adjugate]
  ext1 <;> simp [norm_ne_zero nonzero]

end Fq6

namespace Fq12

theorem mul_conj (x : Fq12 e) : x * x.conj = ⟨x.c0 * x.c0 - (x.c1 * x.c1).timesV, 0⟩ := by
  ext1 <;> simp only [c0_mul, c1_mul, conj, Fq6.timesV_eq] <;> ring

theorem inv_eq (x : Fq12 e) :
    x⁻¹ = x.conj * ⟨(x.c0 * x.c0 - (x.c1 * x.c1).timesV)⁻¹, 0⟩ := by
  ext1
  · rw [c0_mul, mul_zero, Fq6.timesV_eq 0, mul_zero, add_zero]
    rfl
  · rw [c1_mul, mul_zero, zero_add]
    rfl

theorem norm_ne_zero {x : Fq12 e} (nonzero : x ≠ 0) :
    x.c0 * x.c0 - (x.c1 * x.c1).timesV ≠ 0 := by
  intro vanishing
  have product := x.mul_conj
  rw [vanishing] at product
  have conj_zero : x.conj = 0 := (isUnit_of_ne_zero nonzero).mul_right_eq_zero.1 product
  apply nonzero
  rw [← x.conj_conj, conj_zero]
  ext1
  · rfl
  · exact neg_zero

theorem mul_inv_of_ne_zero {x : Fq12 e} (nonzero : x ≠ 0) : x * x⁻¹ = 1 := by
  rw [inv_eq, ← mul_assoc, mul_conj]
  ext1
  · rw [c0_mul, mul_zero, Fq6.timesV_eq 0, mul_zero, add_zero]
    exact Fq6.mul_inv_of_ne_zero (norm_ne_zero nonzero)
  · rw [c1_mul, mul_zero, zero_mul, add_zero]
    rfl

instance : NoZeroDivisors (Fq12 e) where
  eq_zero_or_eq_zero_of_mul_eq_zero := by
    intro x y product
    by_cases zero : x = 0
    · exact .inl zero
    · exact .inr ((isUnit_of_ne_zero zero).mul_right_eq_zero.1 product)

end Fq12

end PairingWire
