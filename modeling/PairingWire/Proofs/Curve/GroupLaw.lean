import Mathlib.AlgebraicGeometry.EllipticCurve.Affine.Point
import Mathlib.Tactic.LinearCombination
import PairingWire.Proofs.Curve

/-!
The points of a smooth curve form a group under the chord and tangent law, and multiples are multiples
in this group. So a point passes the subgroup test exactly if its order divides the subgroup order;
where that is odd, no point that passes has ordinate zero.
-/

namespace PairingWire.Curve

open WeierstrassCurve

variable {F : Type} [Field F]

def toAffine (C : Curve F) : Affine F := ⟨0, 0, 0, C.a, C.b⟩

/-- A curve without singular points, over a field where 2 is invertible. -/
class Smooth (C : Curve F) : Prop where
  two_ne_zero : (2 : F) ≠ 0
  discriminant_ne_zero : C.toAffine.Δ ≠ 0

def ofGroup {C : Curve F} : C.toAffine.Point → Point F
  | .zero => .infinity
  | .some x y _ => .affine x y

variable {C : Curve F}

theorem equation_iff {x y : F} : C.toAffine.Equation x y ↔ y * y = weierstrass C.a C.b x := by
  rw [Affine.equation_iff, weierstrass, toAffine]
  constructor <;> intro equation <;> linear_combination equation

theorem onCurve_ofGroup (P : C.toAffine.Point) : C.OnCurve (ofGroup P) := by
  cases P with
  | zero => trivial
  | some x y nonsingular => exact equation_iff.1 nonsingular.1

theorem ofGroup_injective : Function.Injective (ofGroup (C := C)) := by
  rintro (_ | ⟨x, y, _⟩) (_ | ⟨x', y', _⟩) same <;> cases same <;> rfl

theorem negY_eq (x y : F) : C.toAffine.negY x y = -y := by
  rw [Affine.negY, toAffine]
  ring

theorem reflectedMeet_eq (C : Curve F) (x x' y ℓ : F) :
    reflectedMeet ℓ x y x' =
      .affine (C.toAffine.addX x x' ℓ) (C.toAffine.addY x x' y ℓ) := by
  rw [reflectedMeet, Affine.addY, Affine.negAddY, negY_eq, Affine.addX, toAffine]
  congr 1 <;> ring

theorem eq_neg_self_iff (C : Curve F) [C.Smooth] {y : F} : y = -y ↔ y = 0 := by
  constructor
  · intro opposite
    apply (mul_eq_zero.1 (_ : 2 * y = 0)).resolve_left (Smooth.two_ne_zero C)
    linear_combination opposite
  · rintro rfl
    exact neg_zero.symm

/-- A curve with vanishing linear term is smooth where 6 is invertible, unless it has a cusp. -/
theorem smooth_of_a_zero {C : Curve F} (a_zero : C.a = 0) (nonzero : C.b ≠ 0) (two : (2 : F) ≠ 0)
    (three : (3 : F) ≠ 0) : C.Smooth where
  two_ne_zero := two
  discriminant_ne_zero := by
    have discriminant : C.toAffine.Δ = -(2 * 2 * 2 * 2 * (3 * 3 * 3) * (C.b * C.b)) := by
      simp only [toAffine, WeierstrassCurve.Δ, WeierstrassCurve.b₂, WeierstrassCurve.b₄,
        WeierstrassCurve.b₆, WeierstrassCurve.b₈, a_zero]
      ring
    rw [discriminant]
    simp only [ne_eq, neg_eq_zero, mul_eq_zero, two, three, nonzero, or_self, not_false_eq_true]

section Group

variable [C.Smooth]

theorem exists_ofGroup {P : Point F} (on_curve : C.OnCurve P) :
    ∃ Q : C.toAffine.Point, ofGroup Q = P := by
  cases P with
  | infinity => exact ⟨.zero, rfl⟩
  | affine x y =>
      have equation : C.toAffine.Equation x y := equation_iff.2 on_curve
      exact ⟨.some x y ((Affine.equation_iff_nonsingular_of_Δ_ne_zero
        Smooth.discriminant_ne_zero).1 equation), rfl⟩

variable [DecidableEq F]

theorem double_ofGroup (P : C.toAffine.Point) : C.double (ofGroup P) = ofGroup (P + P) := by
  cases P with
  | zero => rfl
  | some x y nonsingular =>
      by_cases zero : y = 0
      · have vertical : y = C.toAffine.negY x y := by rw [negY_eq, zero, neg_zero]
        rw [Affine.Point.add_self_of_Y_eq vertical]
        exact if_pos zero
      · have inclined : y ≠ C.toAffine.negY x y := by
          rw [negY_eq]
          exact fun opposite => zero ((eq_neg_self_iff C).1 opposite)
        have slope : C.toAffine.slope x x y y = C.tangentSlope x y := by
          rw [Affine.slope_of_Y_ne rfl inclined, negY_eq, tangentSlope, div_eq_mul_inv, toAffine]
          congr 1 <;> ring
        rw [Affine.Point.add_self_of_Y_ne inclined]
        simp only [ofGroup, double, if_neg zero, slope, reflectedMeet_eq C]

theorem add_ofGroup (P Q : C.toAffine.Point) : C.add (ofGroup P) (ofGroup Q) = ofGroup (P + Q) := by
  cases P with
  | zero =>
      change ofGroup Q = ofGroup (0 + Q)
      rw [zero_add]
  | some x y nonsingular =>
      cases Q with
      | zero =>
          change ofGroup (.some x y nonsingular) = ofGroup (.some x y nonsingular + 0)
          rw [add_zero]
      | some x' y' nonsingular' =>
          by_cases same_x : x = x'
          · subst same_x
            by_cases same_y : y = y'
            · subst same_y
              rw [← double_ofGroup]
              simp only [ofGroup, add, if_true]
            · have opposite : y = C.toAffine.negY x y' :=
                (Affine.Y_eq_of_X_eq nonsingular.1 nonsingular'.1 rfl).resolve_left same_y
              rw [Affine.Point.add_of_Y_eq rfl opposite]
              simp only [ofGroup, add, if_true, if_neg same_y]
          · have slope : C.toAffine.slope x x' y y' = chordSlope x y x' y' := by
              rw [Affine.slope_of_X_ne same_x, chordSlope, ← div_eq_mul_inv, ← neg_sub y' y,
                ← neg_sub x' x, neg_div_neg_eq]
            rw [Affine.Point.add_of_X_ne same_x]
            simp only [ofGroup, add, if_neg same_x, slope, reflectedMeet_eq C]

theorem multiple_ofGroup (n : Nat) (P : C.toAffine.Point) :
    C.multiple n (ofGroup P) = ofGroup (n • P) := by
  -- Additive repeated doubling is that of the multiplicative copy of the group.
  have powers : doubleAndAdd (· + ·) 0 P (bitLength n) n = n • P :=
    doubleAndAdd_eq_pow (Multiplicative.ofAdd P) (lt_two_pow_bitLength n)
  rw [multiple, ← powers, map_doubleAndAdd ofGroup fun Q R => (add_ofGroup Q R).symm]
  rfl

theorem inSubgroup_ofGroup_iff (Q : C.toAffine.Point) :
    C.InSubgroup (ofGroup Q) ↔ C.order • Q = 0 := by
  rw [InSubgroup, multiple_ofGroup]
  exact ofGroup_injective.eq_iff' rfl

theorem liftArithmetic_check_ofGroup (Q : C.toAffine.Point) :
    liftArithmetic (C.check (ofGroup Q)) =
      if C.order • Q = 0 then .ok (ofGroup Q) else .error .notInSubgroup := by
  rw [check, if_neg (not_not.2 (onCurve_ofGroup Q))]
  simp only [inSubgroup_ofGroup_iff, ite_not]
  split <;> rfl

theorem valid_iff_exists {P : Point F} :
    C.Valid P ↔ ∃ Q : C.toAffine.Point, ofGroup Q = P ∧ C.order • Q = 0 := by
  constructor
  · rintro ⟨on_curve, in_subgroup⟩
    obtain ⟨Q, rfl⟩ := exists_ofGroup on_curve
    exact ⟨Q, rfl, (inSubgroup_ofGroup_iff Q).1 in_subgroup⟩
  · rintro ⟨Q, rfl, total⟩
    exact ⟨onCurve_ofGroup Q, (inSubgroup_ofGroup_iff Q).2 total⟩

/-- A point with ordinate zero has order 2, and a subgroup of odd order has no such point. -/
theorem ordinate_ne_zero_of_odd_order (odd : Odd C.order) {x y : F}
    (valid : C.Valid (.affine x y)) : y ≠ 0 := by
  rintro rfl
  obtain ⟨Q, coordinates, total⟩ := valid_iff_exists.1 valid
  have doubled : Q + Q = 0 := by
    apply ofGroup_injective
    rw [← double_ofGroup, coordinates]
    exact if_pos rfl
  obtain ⟨k, order_eq⟩ := odd
  -- The order is odd, so it leaves one `Q` over when the pairs are taken away.
  have zero : Q = 0 := by
    calc
      Q = k • (Q + Q) + Q := by rw [doubled, smul_zero, zero_add]
      _ = (2 * k + 1) • Q := by rw [← two_nsmul, ← mul_nsmul, succ_nsmul]
      _ = 0 := by rw [← order_eq, total]
  rw [zero] at coordinates
  cases coordinates

end Group

end PairingWire.Curve
