import Mathlib.Algebra.CharP.Frobenius
import PairingWire.Proofs.Primality
import PairingWire.Proofs.Quadratic.Field
import PairingWire.Tower

/-!
The tower as commutative rings. The power with exponent `p²` fixes the quadratic extension and sends
`w` to its multiple by a primitive sixth root of unity, so it acts on an element by scaling the
coefficients of `1, w, …, w⁵`.
-/

namespace PairingWire

variable {e : Engine}

namespace Fq6

@[simp] theorem b0_zero : (0 : Fq6 e).b0 = 0 := rfl

@[simp] theorem b1_zero : (0 : Fq6 e).b1 = 0 := rfl

@[simp] theorem b2_zero : (0 : Fq6 e).b2 = 0 := rfl

@[simp] theorem b0_one : (1 : Fq6 e).b0 = 1 := rfl

@[simp] theorem b1_one : (1 : Fq6 e).b1 = 0 := rfl

@[simp] theorem b2_one : (1 : Fq6 e).b2 = 0 := rfl

@[simp] theorem b0_add (x y : Fq6 e) : (x + y).b0 = x.b0 + y.b0 := rfl

@[simp] theorem b1_add (x y : Fq6 e) : (x + y).b1 = x.b1 + y.b1 := rfl

@[simp] theorem b2_add (x y : Fq6 e) : (x + y).b2 = x.b2 + y.b2 := rfl

@[simp] theorem b0_neg (x : Fq6 e) : (-x).b0 = -x.b0 := rfl

@[simp] theorem b1_neg (x : Fq6 e) : (-x).b1 = -x.b1 := rfl

@[simp] theorem b2_neg (x : Fq6 e) : (-x).b2 = -x.b2 := rfl

@[simp] theorem b0_mul (x y : Fq6 e) :
    (x * y).b0 = x.b0 * y.b0 + e.towerNonresidue * (x.b1 * y.b2 + x.b2 * y.b1) := rfl

@[simp] theorem b1_mul (x y : Fq6 e) :
    (x * y).b1 = x.b0 * y.b1 + x.b1 * y.b0 + e.towerNonresidue * (x.b2 * y.b2) := rfl

@[simp] theorem b2_mul (x y : Fq6 e) :
    (x * y).b2 = x.b0 * y.b2 + x.b1 * y.b1 + x.b2 * y.b0 := rfl

@[simp] theorem b0_timesV (x : Fq6 e) : x.timesV.b0 = e.towerNonresidue * x.b2 := rfl

@[simp] theorem b1_timesV (x : Fq6 e) : x.timesV.b1 = x.b0 := rfl

@[simp] theorem b2_timesV (x : Fq6 e) : x.timesV.b2 = x.b1 := rfl

instance : CommRing (Fq6 e) where
  add_assoc x y z := by ext1 <;> exact add_assoc _ _ _
  zero_add x := by ext1 <;> exact zero_add _
  add_zero x := by ext1 <;> exact add_zero _
  add_comm x y := by ext1 <;> exact add_comm _ _
  neg_add_cancel x := by ext1 <;> exact neg_add_cancel _
  sub_eq_add_neg x y := by ext1 <;> exact sub_eq_add_neg _ _
  mul_assoc x y z := by ext1 <;> simp only [b0_mul, b1_mul, b2_mul] <;> ring
  mul_comm x y := by ext1 <;> simp only [b0_mul, b1_mul, b2_mul] <;> ring
  one_mul x := by ext1 <;> simp
  mul_one x := by ext1 <;> simp
  left_distrib x y z := by
    ext1 <;> simp only [b0_mul, b1_mul, b2_mul, b0_add, b1_add, b2_add] <;> ring
  right_distrib x y z := by
    ext1 <;> simp only [b0_mul, b1_mul, b2_mul, b0_add, b1_add, b2_add] <;> ring
  zero_mul x := by ext1 <;> simp
  mul_zero x := by ext1 <;> simp
  nsmul := nsmulRec
  zsmul := zsmulRec

def v : Fq6 e := ⟨0, 1, 0⟩

theorem timesV_eq (x : Fq6 e) : x.timesV = v * x := by
  ext1 <;> simp [v]

end Fq6

namespace Fq12

@[simp] theorem c0_zero : (0 : Fq12 e).c0 = 0 := rfl

@[simp] theorem c1_zero : (0 : Fq12 e).c1 = 0 := rfl

@[simp] theorem c0_one : (1 : Fq12 e).c0 = 1 := rfl

@[simp] theorem c1_one : (1 : Fq12 e).c1 = 0 := rfl

@[simp] theorem c0_add (x y : Fq12 e) : (x + y).c0 = x.c0 + y.c0 := rfl

@[simp] theorem c1_add (x y : Fq12 e) : (x + y).c1 = x.c1 + y.c1 := rfl

@[simp] theorem c0_mul (x y : Fq12 e) : (x * y).c0 = x.c0 * y.c0 + (x.c1 * y.c1).timesV := rfl

@[simp] theorem c1_mul (x y : Fq12 e) : (x * y).c1 = x.c0 * y.c1 + x.c1 * y.c0 := rfl

instance : CommRing (Fq12 e) where
  add_assoc x y z := by ext1 <;> exact add_assoc _ _ _
  zero_add x := by ext1 <;> exact zero_add _
  add_zero x := by ext1 <;> exact add_zero _
  add_comm x y := by ext1 <;> exact add_comm _ _
  neg_add_cancel x := by ext1 <;> exact neg_add_cancel _
  sub_eq_add_neg x y := by ext1 <;> exact sub_eq_add_neg _ _
  mul_assoc x y z := by ext1 <;> simp only [c0_mul, c1_mul, Fq6.timesV_eq] <;> ring
  mul_comm x y := by ext1 <;> simp only [c0_mul, c1_mul, Fq6.timesV_eq] <;> ring
  one_mul x := by ext1 <;> simp [Fq6.timesV_eq]
  mul_one x := by ext1 <;> simp [Fq6.timesV_eq]
  left_distrib x y z := by
    ext1 <;> simp only [c0_mul, c1_mul, c0_add, c1_add, Fq6.timesV_eq] <;> ring
  right_distrib x y z := by
    ext1 <;> simp only [c0_mul, c1_mul, c0_add, c1_add, Fq6.timesV_eq] <;> ring
  zero_mul x := by ext1 <;> simp [Fq6.timesV_eq]
  mul_zero x := by ext1 <;> simp [Fq6.timesV_eq]
  nsmul := nsmulRec
  zsmul := zsmulRec

def ofFq2 : Fq2 e →+* Fq12 e where
  toFun a := ⟨⟨a, 0, 0⟩, 0⟩
  map_zero' := rfl
  map_one' := rfl
  map_add' a b := by ext <;> simp
  map_mul' a b := by ext <;> simp

theorem ofFq2_apply (a : Fq2 e) : ofFq2 a = ⟨⟨a, 0, 0⟩, 0⟩ := rfl

theorem ofFq2_injective : Function.Injective (ofFq2 (e := e)) := by
  intro a b same
  exact congrArg (fun x => x.c0.b0) same

instance : CharP (Fq12 e) e.fieldOrder := charP_of_injective_ringHom ofFq2_injective e.fieldOrder

instance : Nontrivial (Fq12 e) := ofFq2_injective.nontrivial

def w : Fq12 e := ⟨0, 1⟩

theorem w_pow_two : (w : Fq12 e) ^ 2 = ⟨Fq6.v, 0⟩ := by
  rw [pow_two]
  ext1 <;> simp [w, Fq6.timesV_eq]

theorem w_pow_three : (w : Fq12 e) ^ 3 = ⟨0, Fq6.v⟩ := by
  rw [pow_succ, w_pow_two]
  ext1 <;> simp [w, Fq6.timesV_eq]

theorem w_pow_four : (w : Fq12 e) ^ 4 = ⟨⟨0, 0, 1⟩, 0⟩ := by
  rw [pow_succ, w_pow_three]
  ext <;> simp [w, Fq6.v]

theorem w_pow_five : (w : Fq12 e) ^ 5 = ⟨0, ⟨0, 0, 1⟩⟩ := by
  rw [pow_succ, w_pow_four]
  ext <;> simp [w]

theorem w_pow_six : (w : Fq12 e) ^ 6 = ofFq2 e.towerNonresidue := by
  rw [pow_succ, w_pow_five]
  ext <;> simp [w, ofFq2_apply]

theorem eq_sum_powers (x : Fq12 e) :
    x = ofFq2 x.c0.b0 + ofFq2 x.c1.b0 * w + ofFq2 x.c0.b1 * w ^ 2 + ofFq2 x.c1.b1 * w ^ 3 +
      ofFq2 x.c0.b2 * w ^ 4 + ofFq2 x.c1.b2 * w ^ 5 := by
  rw [w_pow_two, w_pow_three, w_pow_four, w_pow_five]
  ext <;> simp [w, Fq6.v, ofFq2_apply]

/-- The coefficient of `wⁱ` multiplied by the power of `ζ` with exponent `i`. -/
def twist (ζ : Fq2 e) (x : Fq12 e) : Fq12 e :=
  ⟨⟨x.c0.b0, ζ ^ 2 * x.c0.b1, ζ ^ 4 * x.c0.b2⟩, ⟨ζ * x.c1.b0, ζ ^ 3 * x.c1.b1, ζ ^ 5 * x.c1.b2⟩⟩

theorem map_eq_twist (φ : Fq12 e →+* Fq12 e) {ζ : Fq2 e} (fixed : ∀ a, φ (ofFq2 a) = ofFq2 a)
    (w_image : φ w = ofFq2 ζ * w) (x : Fq12 e) : φ x = twist ζ x := by
  conv_lhs => rw [eq_sum_powers x]
  rw [eq_sum_powers (twist ζ x)]
  simp only [map_add, map_mul, map_pow, fixed, w_image, twist]
  ring

end Fq12

namespace Engine

/-- The primitive sixth root of unity that the power with exponent `p²` multiplies `w` by. -/
def sixthRoot (e : Engine) : Fq e := power e.towerNonresidue.norm ((e.fieldOrder - 1) / 6)

theorem sixthRoot_equation (e : Engine) :
    e.sixthRoot * e.sixthRoot + 1 = e.sixthRoot := by
  cases e <;> decide +kernel

theorem six_dvd (e : Engine) : 6 * ((e.fieldOrder - 1) / 6) + 1 = e.fieldOrder := by
  cases e <;> decide +kernel

def ζ (e : Engine) : Fq2 e := Quadratic.ofBaseHom e.fieldOrder e.sixthRoot

theorem ζ_equation (e : Engine) : e.ζ * e.ζ + 1 = e.ζ := by
  rw [ζ, ← map_mul, ← map_one (Quadratic.ofBaseHom e.fieldOrder), ← map_add, sixthRoot_equation]

theorem three_ne_zero (e : Engine) : (3 : Fq e) ≠ 0 := by
  have foreign : ¬e.fieldOrder ∣ 3 := by cases e <;> decide
  exact fun zero => foreign ((CharP.cast_eq_zero_iff (Fq e) e.fieldOrder 3).1 zero)

theorem three_ne_zero' (e : Engine) : (3 : Fq2 e) ≠ 0 := by
  rw [← map_ofNat (Quadratic.ofBaseHom e.fieldOrder) 3, ne_eq, map_eq_zero]
  exact e.three_ne_zero

theorem ζ_ne_zero (e : Engine) : e.ζ ≠ 0 := by
  intro zero
  have equation := e.ζ_equation
  rw [zero, mul_zero, zero_add] at equation
  exact one_ne_zero equation

theorem ζ_ne_one (e : Engine) : e.ζ - 1 ≠ 0 := by
  intro zero
  have equation := e.ζ_equation
  rw [sub_eq_zero.1 zero, mul_one] at equation
  exact one_ne_zero (add_eq_left.1 equation)

theorem towerNonresidue_pow (e : Engine) :
    e.towerNonresidue ^ ((e.fieldOrder + 1) * ((e.fieldOrder - 1) / 6)) = e.ζ := by
  rw [pow_mul, pow_succ, Quadratic.pow_modulus, mul_comm, Quadratic.mul_conj, ζ, sixthRoot,
    power_eq_pow, map_pow]

theorem towerNonresidue_ne_mul_self (e : Engine) (a : Fq2 e) : e.towerNonresidue ≠ a * a := by
  intro square
  have sixth := e.six_dvd
  have root := e.towerNonresidue_pow
  have minus : e.ζ ^ 3 = -1 := by linear_combination (e.ζ + 1) * e.ζ_equation
  -- As the square of `a`, the constant would make the power with exponent `p²` of `a` its opposite.
  have exponent : e.fieldOrder * e.fieldOrder =
      2 * ((e.fieldOrder + 1) * ((e.fieldOrder - 1) / 6) * 3) + 1 := by
    generalize (e.fieldOrder - 1) / 6 = k at sixth ⊢
    rw [← sixth]
    ring
  have total := Quadratic.pow_modulus_sq a
  rw [exponent, pow_succ, pow_mul, pow_mul, sq, ← square, root, minus, neg_one_mul] at total
  have zero : a = 0 := by
    apply (mul_eq_zero.1 (_ : 2 * a = 0)).resolve_left Quadratic.two_ne_zero_of_odd
    linear_combination -total
  rw [square, zero, mul_zero] at root
  apply e.ζ_ne_zero
  rw [← root]
  apply zero_pow
  apply mul_ne_zero (Nat.succ_ne_zero _)
  rintro trivial_exponent
  rw [trivial_exponent] at sixth
  exact absurd sixth (by cases e <;> decide)

theorem towerNonresidue_ne_zero (e : Engine) : e.towerNonresidue ≠ 0 := by
  intro zero
  exact e.towerNonresidue_ne_mul_self 0 (zero.trans (mul_zero 0).symm)

end Engine

namespace Fq12

theorem ofFq2_pow (a : Fq2 e) : ofFq2 a ^ e.fieldOrder ^ 2 = ofFq2 a := by
  rw [← map_pow, sq, Quadratic.pow_modulus_sq]

theorem w_pow (e : Engine) :
    (w : Fq12 e) ^ e.fieldOrder ^ 2 = ofFq2 e.ζ * w := by
  have exponent : e.fieldOrder ^ 2 =
      6 * ((e.fieldOrder + 1) * ((e.fieldOrder - 1) / 6)) + 1 := by
    have sixth := e.six_dvd
    generalize (e.fieldOrder - 1) / 6 = k at sixth ⊢
    rw [← sixth]
    ring
  rw [exponent, pow_succ, pow_mul, w_pow_six, ← map_pow, Engine.towerNonresidue_pow]

/-- The power with exponent `p²` scales the coefficients by powers of the sixth root of unity. -/
theorem pow_fieldOrder_sq (x : Fq12 e) :
    x ^ e.fieldOrder ^ 2 = twist e.ζ x := by
  have image (y : Fq12 e) : iterateFrobenius (Fq12 e) e.fieldOrder 2 y = y ^ e.fieldOrder ^ 2 :=
    iterateFrobenius_def _ _ y
  rw [← image]
  apply map_eq_twist
  · intro a
    rw [image, ofFq2_pow]
  · rw [image, w_pow]

theorem twist_ζ (x : Fq12 e) :
    twist e.ζ x =
      ⟨⟨x.c0.b0, (e.ζ - 1) * x.c0.b1, -e.ζ * x.c0.b2⟩,
        ⟨e.ζ * x.c1.b0, -x.c1.b1, (1 - e.ζ) * x.c1.b2⟩⟩ := by
  have equation := e.ζ_equation
  ext1 <;> ext1 <;> simp only [twist]
  · linear_combination x.c0.b1 * equation
  · linear_combination (e.ζ * e.ζ + e.ζ) * x.c0.b2 * equation
  · linear_combination (e.ζ + 1) * x.c1.b1 * equation
  · linear_combination (e.ζ * e.ζ * e.ζ + e.ζ * e.ζ - 1) * x.c1.b2 * equation

theorem twist_ζ_twist_ζ (x : Fq12 e) :
    twist e.ζ (twist e.ζ x) =
      ⟨⟨x.c0.b0, -e.ζ * x.c0.b1, (e.ζ - 1) * x.c0.b2⟩,
        ⟨(e.ζ - 1) * x.c1.b0, x.c1.b1, -e.ζ * x.c1.b2⟩⟩ := by
  have equation := e.ζ_equation
  rw [twist_ζ, twist_ζ]
  ext1 <;> ext1 <;> simp only
  · linear_combination x.c0.b1 * equation
  · linear_combination x.c0.b2 * equation
  · linear_combination x.c1.b0 * equation
  · ring
  · linear_combination x.c1.b2 * equation

theorem twist_ζ_twist_ζ_twist_ζ (x : Fq12 e) :
    twist e.ζ (twist e.ζ (twist e.ζ x)) = x.conj := by
  have equation := e.ζ_equation
  rw [twist_ζ_twist_ζ, twist_ζ]
  ext1 <;> ext1 <;> simp only [conj, Fq6.b0_neg, Fq6.b1_neg, Fq6.b2_neg]
  · linear_combination -x.c0.b1 * equation
  · linear_combination -x.c0.b2 * equation
  · linear_combination x.c1.b0 * equation
  · linear_combination x.c1.b2 * equation

end Fq12

end PairingWire
