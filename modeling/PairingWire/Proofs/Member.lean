import PairingWire.Element
import PairingWire.Proofs.Curve
import PairingWire.Proofs.Curve.GroupLaw
import PairingWire.Proofs.Target

/-!
Members of the groups of an engine, told without reference to the library's own tests: scalars below
the group order, points of the curve whose order in the group of the curve divides it, and target
elements whose power with this exponent is 1. The library's tests admit exactly these.
-/

namespace PairingWire

variable {e : Engine}

namespace Engine

theorem g1_a (e : Engine) : e.g1.a = 0 := by cases e <;> rfl

theorem g2_a (e : Engine) : e.g2.a = 0 := by cases e <;> rfl

theorem g1_b_ne_zero (e : Engine) : e.g1.b ≠ 0 := by cases e <;> decide

theorem g2_b_ne_zero (e : Engine) : e.g2.b ≠ 0 := by cases e <;> decide

theorem g1_order (e : Engine) : e.g1.order = e.groupOrder := by cases e <;> rfl

theorem g2_order (e : Engine) : e.g2.order = e.groupOrder := by cases e <;> rfl

theorem odd_groupOrder (e : Engine) : Odd e.groupOrder := by
  rw [Nat.odd_iff]
  cases e <;> decide

theorem odd_g1_order (e : Engine) : Odd e.g1.order := e.g1_order ▸ e.odd_groupOrder

theorem odd_g2_order (e : Engine) : Odd e.g2.order := e.g2_order ▸ e.odd_groupOrder

instance (e : Engine) : e.g1.Smooth :=
  Curve.smooth_of_a_zero e.g1_a e.g1_b_ne_zero Residue.two_ne_zero_of_odd e.three_ne_zero

instance (e : Engine) : e.g2.Smooth :=
  Curve.smooth_of_a_zero e.g2_a e.g2_b_ne_zero Quadratic.two_ne_zero_of_odd e.three_ne_zero'

end Engine

/-- The point at infinity, or a reduced solution of `y² = x³ + b`, with `r` times the point zero. -/
structure Curve.IsMember {F : Type} {p : Nat} [CoordinateField F p] [Field F] [DecidableEq F]
    (C : Curve F) (r : Nat) (P : Point F) : Prop where
  reduced : ∀ x y, P = .affine x y → ∀ c ∈ coefficients x ++ coefficients y, c.val < p
  equation : ∀ x y, P = .affine x y → y ^ 2 = x ^ 3 + C.b
  order_dvd : ∃ Q : C.toAffine.Point, Curve.ofGroup Q = P ∧ r • Q = 0

theorem Curve.isMember_iff {F : Type} {p : Nat} [CoordinateField F p] [Field F] [DecidableEq F]
    {C : Curve F} [C.Smooth] (a_zero : C.a = 0) {P : Point F} : C.IsMember C.order P ↔ C.Valid P := by
  rw [Curve.valid_iff_exists]
  constructor
  · intro member
    exact member.order_dvd
  · rintro ⟨Q, rfl, total⟩
    refine ⟨fun x y _ c _ => c.isLt, fun x y same => ?_, Q, rfl, total⟩
    have on_curve := Curve.onCurve_ofGroup Q
    rw [same] at on_curve
    have equation : y * y = weierstrass C.a C.b x := on_curve
    rw [weierstrass, a_zero] at equation
    linear_combination equation

namespace Element

def isInfinity : Element e → Bool
  | g1 P => P.isInfinity
  | g2 Q => Q.isInfinity
  | _ => false

def IsMember : Element e → Prop
  | zp s => s.val < e.groupOrder
  | g1 P => e.g1.IsMember e.groupOrder P
  | g2 Q => e.g2.IsMember e.groupOrder Q
  | gt x => x ≠ 0 ∧ x ^ e.groupOrder = 1

theorem isMember_iff {x : Element e} : x.IsMember ↔ x.Valid := by
  cases x with
  | zp s => exact iff_of_true s.isLt trivial
  | g1 P =>
      rw [IsMember, ← e.g1_order]
      exact Curve.isMember_iff e.g1_a
  | g2 Q =>
      rw [IsMember, ← e.g2_order]
      exact Curve.isMember_iff e.g2_a
  | gt x =>
      change _ ↔ x ≠ 0 ∧ power x e.groupOrder = 1
      rw [power_eq_pow]
      exact Iff.rfl

end Element

/-!
The generators of the source groups are members: they lie on their curves, and evaluation in Jacobian
coordinates shows that their order divides the group order.
-/

namespace Engine

theorem valid_of_multiple {F : Type} [Field F] [DecidableEq F] {C : Curve F} [smooth : C.Smooth]
    (a_zero : C.a = 0) {x y : F} (on_curve : C.OnCurve (.affine x y))
    (total : (Jacobian.multiple x y (bitLength C.order) C.order).z = 0) : C.Valid (.affine x y) :=
  ⟨on_curve, Jacobian.inSubgroup_of_multiple a_zero smooth.two_ne_zero total⟩

theorem valid_g1_generator (e : Engine) : e.g1.Valid e.g1.generator := by
  cases e <;> exact valid_of_multiple rfl (by decide +kernel) (by decide +kernel)

theorem valid_g2_generator (e : Engine) : e.g2.Valid e.g2.generator := by
  cases e <;> exact valid_of_multiple rfl (by decide +kernel) (by decide +kernel)

end Engine

/-!
The curves of the engines have no point with ordinate zero: its abscissa would be a cube root of `-b`,
and a power with a third of `p - 1` as exponent shows that there is none. Over the quadratic extension
the norm carries the question to the base field.
-/

/-- What has a cube root is 1 to the power with a third of `p - 1`. -/
theorem Residue.pow_third_of_cube {p k : Nat} [Modulus p] [OddPrime p] (third : 3 * k + 1 = p)
    {x c : Residue p} (nonzero : c ≠ 0) (cube : x ^ 3 = c) : c ^ k = 1 := by
  have x_nonzero : x ≠ 0 := by
    rintro rfl
    rw [zero_pow three_ne_zero] at cube
    exact nonzero cube.symm
  have exponent : 3 * k = p - 1 := by omega
  rw [← cube, ← pow_mul, exponent, pow_card_sub_one x_nonzero]

namespace Engine

theorem third_fieldOrder (e : Engine) : 3 * (e.fieldOrder / 3) + 1 = e.fieldOrder := by
  cases e <;> decide +kernel

theorem third_powers_ne_one (e : Engine) :
    power (-e.g1.b) (e.fieldOrder / 3) ≠ 1 ∧ power (-e.g2.b).norm (e.fieldOrder / 3) ≠ 1 := by
  cases e <;> decide +kernel

theorem g1_cube_ne (e : Engine) (x : Fq e) : x ^ 3 ≠ -e.g1.b := by
  intro cube
  refine e.third_powers_ne_one.1 ?_
  rw [power_eq_pow]
  exact Residue.pow_third_of_cube e.third_fieldOrder (neg_ne_zero.2 e.g1_b_ne_zero) cube

theorem g2_cube_ne (e : Engine) (x : Fq2 e) : x ^ 3 ≠ -e.g2.b := by
  intro cube
  have norm_nonzero : (-e.g2.b).norm ≠ 0 := fun zero =>
    neg_ne_zero.2 e.g2_b_ne_zero (Quadratic.norm_eq_zero_iff.1 zero)
  have norm_cube : x.norm ^ 3 = (-e.g2.b).norm := by
    rw [← cube, pow_succ, pow_two, pow_succ, pow_two, Quadratic.norm_mul, Quadratic.norm_mul]
  refine e.third_powers_ne_one.2 ?_
  rw [power_eq_pow]
  exact Residue.pow_third_of_cube e.third_fieldOrder norm_nonzero norm_cube

theorem g1_weierstrass_ne_zero (e : Engine) (x : Fq e) : weierstrass e.g1.a e.g1.b x ≠ 0 := by
  intro zero
  refine e.g1_cube_ne x ?_
  rw [weierstrass, e.g1_a] at zero
  linear_combination zero

theorem g2_weierstrass_ne_zero (e : Engine) (x : Fq2 e) : weierstrass e.g2.a e.g2.b x ≠ 0 := by
  intro zero
  refine e.g2_cube_ne x ?_
  rw [weierstrass, e.g2_a] at zero
  linear_combination zero

end Engine

end PairingWire
