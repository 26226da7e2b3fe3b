import Mathlib.Algebra.Field.Basic
import Mathlib.Tactic.FieldSimp
import Mathlib.Tactic.Ring
import PairingWire.Curve
import PairingWire.Proofs.Outcome
import PairingWire.Proofs.Residue

/-!
What the check of a point admits: exactly the points of the curve and the subgroup. The point at
infinity always passes.
-/

namespace PairingWire

namespace Curve

variable {F : Type} [Field F] [DecidableEq F]

theorem multiple_infinity (C : Curve F) (n : Nat) : C.multiple n .infinity = .infinity := by
  refine doubleAndAdd_induction (P := fun Q => Q = Point.infinity) rfl rfl ?_ (bitLength n) n
  rintro _ _ rfl rfl
  rfl

theorem valid_infinity (C : Curve F) : C.Valid .infinity := ⟨trivial, C.multiple_infinity C.order⟩

theorem equation_of_valid {C : Curve F} {x y : F} (valid : C.Valid (.affine x y)) :
    y * y = weierstrass C.a C.b x :=
  valid.1

theorem check_of_valid {C : Curve F} {P : Point F} (valid : C.Valid P) : C.check P = .ok P := by
  rw [check, if_neg (not_not.2 valid.1), if_neg (not_not.2 valid.2)]

theorem check_eq_ok_iff {C : Curve F} {P Q : Point F} : C.check P = .ok Q ↔ P = Q ∧ C.Valid P := by
  constructor
  · intro passed
    unfold check at passed
    split at passed
    · cases passed
    · split at passed
      · cases passed
      · rename_i on_curve in_subgroup
        cases passed
        exact ⟨rfl, not_not.1 on_curve, not_not.1 in_subgroup⟩
  · rintro ⟨rfl, valid⟩
    exact check_of_valid valid

theorem check_error (C : Curve F) (P : Point F) :
    FailsWith (fun cause => cause = .notOnCurve ∨ cause = .notInSubgroup) (C.check P) := by
  refine .ite (fun _ => .error (.inl rfl)) fun _ => ?_
  exact .ite (fun _ => .error (.inr rfl)) fun _ => .ok P

theorem liftArithmetic_check_of_not_onCurve {C : Curve F} {P : Point F} (off : ¬C.OnCurve P) :
    liftArithmetic (C.check P) = .error .notOnCurve := by
  rw [check, if_pos off]
  rfl

theorem liftArithmetic_check_eq_ok_iff {C : Curve F} {P Q : Point F} :
    liftArithmetic (C.check P) = .ok Q ↔ P = Q ∧ C.Valid P :=
  liftArithmetic_eq_ok_iff.trans check_eq_ok_iff

theorem liftArithmetic_check_error (C : Curve F) (P : Point F) :
    FailsWith (fun err => err = .notOnCurve ∨ err = .notInSubgroup) (liftArithmetic (C.check P)) := by
  refine .mapError ((C.check_error P).mono ?_)
  rintro cause (rfl | rfl)
  · exact .inl rfl
  · exact .inr rfl

end Curve

/-!
Multiples of a point without inversions, in Jacobian coordinates on a curve with vanishing linear
term. With them the order of a fixed point is checked by evaluation.
-/

/-- The point with abscissa `x / z²` and ordinate `y / z³`, or the point at infinity if `z = 0`. -/
structure Jacobian (F : Type) where
  x : F
  y : F
  z : F

namespace Jacobian

variable {F : Type} [Zero F] [One F] [Add F] [Sub F] [Mul F] [DecidableEq F]

def double (J : Jacobian F) : Jacobian F :=
  let yy := J.y * J.y
  let s := J.x * yy + J.x * yy + (J.x * yy + J.x * yy)
  let m := J.x * J.x + J.x * J.x + J.x * J.x
  let x := m * m - (s + s)
  let yyyy := yy * yy + yy * yy
  let eight := yyyy + yyyy + (yyyy + yyyy)
  ⟨x, m * (s - x) - eight, J.y * J.z + J.y * J.z⟩

def ofPoint : Point F → Jacobian F
  | .infinity => ⟨1, 1, 0⟩
  | .affine x y => ⟨x, y, 1⟩

def chord (J : Jacobian F) (h r : F) : Jacobian F :=
  let hh := h * h
  let v := J.x * hh
  let x := r * r - h * hh - (v + v)
  ⟨x, r * (v - x) - J.y * (h * hh), J.z * h⟩

def addAffine (J : Jacobian F) (x y : F) : Jacobian F :=
  if J.z = 0 then ⟨x, y, 1⟩
  else
    let zz := J.z * J.z
    let h := x * zz - J.x
    let r := y * (J.z * zz) - J.y
    if h = 0 then if r = 0 then J.double else ⟨1, 1, 0⟩ else J.chord h r

def multiple (x y : F) : Nat → Nat → Jacobian F
  | 0, _ => ⟨1, 1, 0⟩
  | digits + 1, n =>
    let twice := (multiple x y digits (n / 2)).double
    if n % 2 = 0 then twice else twice.addAffine x y

section Field

variable {K : Type} [Field K] [DecidableEq K]

def toPoint (J : Jacobian K) : Point K :=
  if J.z = 0 then .infinity else .affine (J.x / (J.z * J.z)) (J.y / (J.z * J.z * J.z))

theorem toPoint_ofPoint (P : Point K) : (ofPoint P).toPoint = P := by
  cases P with
  | infinity => exact if_pos rfl
  | affine x y => simp [ofPoint, toPoint]

theorem toPoint_double {C : Curve K} (a_zero : C.a = 0) (two : (2 : K) ≠ 0) (J : Jacobian K) :
    J.double.toPoint = C.double J.toPoint := by
  have z_double : J.double.z = 2 * (J.y * J.z) := (two_mul _).symm
  by_cases infinite : J.z = 0
  · rw [toPoint, z_double, infinite, mul_zero, mul_zero, if_pos rfl, toPoint, if_pos infinite]
    rfl
  · by_cases flat : J.y = 0
    · rw [toPoint, z_double, flat, zero_mul, mul_zero, if_pos rfl, toPoint, if_neg infinite, flat,
        zero_div]
      exact (if_pos rfl).symm
    · have inclined : J.y / (J.z * J.z * J.z) ≠ 0 :=
        div_ne_zero flat (mul_ne_zero (mul_ne_zero infinite infinite) infinite)
      have finite : J.double.z ≠ 0 := by
        rw [z_double]
        exact mul_ne_zero two (mul_ne_zero flat infinite)
      rw [toPoint, if_neg finite, z_double, toPoint, if_neg infinite, Curve.double,
        if_neg inclined, Curve.reflectedMeet, Curve.tangentSlope, a_zero, add_zero,
        ← two_mul (J.y / (J.z * J.z * J.z)), ← div_eq_mul_inv]
      simp only [double]
      congr 1 <;> field_simp <;> ring

theorem toPoint_chord {J : Jacobian K} {h : K} (finite : J.z ≠ 0) (distinct : h ≠ 0) (r : K) :
    (J.chord h r).toPoint =
      Curve.reflectedMeet (r / (J.z * h)) (J.x / (J.z * J.z)) (J.y / (J.z * J.z * J.z))
        ((h + J.x) / (J.z * J.z)) := by
  rw [chord, toPoint, if_neg (mul_ne_zero finite distinct), Curve.reflectedMeet]
  congr 1 <;> field_simp <;> ring

theorem toPoint_addAffine {C : Curve K} (a_zero : C.a = 0) (two : (2 : K) ≠ 0) (J : Jacobian K)
    (x y : K) : (J.addAffine x y).toPoint = C.add J.toPoint (.affine x y) := by
  by_cases infinite : J.z = 0
  · rw [addAffine, if_pos infinite, toPoint, if_neg one_ne_zero, toPoint, if_pos infinite, mul_one,
      mul_one, div_one, div_one, Curve.add]
  · have zz : J.z * J.z ≠ 0 := mul_ne_zero infinite infinite
    have zzz : J.z * J.z * J.z ≠ 0 := mul_ne_zero zz infinite
    -- In terms of the scaled differences both operands have denominators that are powers of `z`.
    obtain ⟨h, h_eq⟩ : ∃ h, h = x * (J.z * J.z) - J.x := ⟨_, rfl⟩
    obtain ⟨r, r_eq⟩ : ∃ r, r = y * (J.z * (J.z * J.z)) - J.y := ⟨_, rfl⟩
    have x_eq : x = (h + J.x) / (J.z * J.z) := by
      rw [eq_div_iff zz, h_eq, sub_add_cancel]
    have y_eq : y = (r + J.y) / (J.z * J.z * J.z) := by
      rw [eq_div_iff zzz, r_eq, sub_add_cancel, mul_assoc J.z]
    have added : J.addAffine x y =
        if h = 0 then if r = 0 then J.double else ⟨1, 1, 0⟩ else J.chord h r := by
      rw [addAffine, if_neg infinite, h_eq, r_eq]
    rw [added, x_eq, y_eq]
    by_cases same_x : h = 0
    · rw [if_pos same_x, toPoint.eq_1 J, if_neg infinite, same_x, zero_add, Curve.add, if_pos rfl]
      by_cases same_y : r = 0
      · rw [if_pos same_y, same_y, zero_add, if_pos rfl, toPoint_double a_zero two, toPoint,
          if_neg infinite]
      · have opposite : J.y / (J.z * J.z * J.z) ≠ (r + J.y) / (J.z * J.z * J.z) := by
          intro same
          apply same_y
          exact add_eq_right.1 ((div_left_inj' zzz).1 same).symm
        rw [if_neg same_y, toPoint, if_pos rfl, if_neg opposite]
    · have distinct : J.x / (J.z * J.z) ≠ (h + J.x) / (J.z * J.z) := by
        intro same
        apply same_x
        exact add_eq_right.1 ((div_left_inj' zz).1 same).symm
      have slope : Curve.chordSlope (J.x / (J.z * J.z)) (J.y / (J.z * J.z * J.z))
          ((h + J.x) / (J.z * J.z)) ((r + J.y) / (J.z * J.z * J.z)) = r / (J.z * h) := by
        rw [Curve.chordSlope, ← sub_div, ← sub_div, add_sub_cancel_right, add_sub_cancel_right]
        field_simp
      rw [if_neg same_x, toPoint_chord infinite same_x, toPoint, if_neg infinite, Curve.add,
        if_neg distinct, slope]

theorem add_self (C : Curve K) (P : Point K) : C.add P P = C.double P := by
  cases P with
  | infinity => rfl
  | affine x y => rw [Curve.add, if_pos rfl, if_pos rfl]

theorem toPoint_multiple {C : Curve K} (a_zero : C.a = 0) (two : (2 : K) ≠ 0) (x y : K)
    (digits n : Nat) :
    (multiple x y digits n).toPoint = doubleAndAdd C.add .infinity (.affine x y) digits n := by
  induction digits generalizing n with
  | zero => rw [multiple, toPoint, if_pos rfl, doubleAndAdd]
  | succ digits ih =>
      simp only [multiple, doubleAndAdd]
      split
      · rw [toPoint_double a_zero two, ih, add_self]
      · rw [toPoint_addAffine a_zero two, toPoint_double a_zero two, ih, add_self]

/-- The subgroup test of an affine point, by evaluation without inversions. -/
theorem inSubgroup_of_multiple {C : Curve K} (a_zero : C.a = 0) (two : (2 : K) ≠ 0) {x y : K}
    (total : (multiple x y (bitLength C.order) C.order).z = 0) : C.InSubgroup (.affine x y) := by
  rw [Curve.InSubgroup, Curve.multiple, ← toPoint_multiple a_zero two, toPoint, if_pos total]

end Field

end Jacobian

end PairingWire
