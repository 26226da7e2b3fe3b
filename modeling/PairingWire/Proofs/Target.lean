import PairingWire.Proofs.Outcome
import PairingWire.Proofs.Tower
import PairingWire.Proofs.Tower.Field
import PairingWire.Tower

/-!
The target group lies in the cyclotomic subgroup, where the powers with the exponents `p⁴ + 1` and
`p²` agree and the power with exponent `p⁶` is the inverse. The check of an element admits exactly the
members of the target group.
-/

namespace PairingWire

variable {e : Engine}

/-- The order of the target group divides the value of the twelfth cyclotomic polynomial. -/
theorem Engine.groupOrder_dvd (e : Engine) :
    e.groupOrder ∣ e.fieldOrder ^ 4 - e.fieldOrder ^ 2 + 1 := by
  cases e <;> decide +kernel

namespace Fq12

variable {x : Fq12 e}

theorem inSubgroup_iff_pow : x.InSubgroup ↔ x ^ e.groupOrder = 1 := by
  rw [InSubgroup, power_eq_pow]
  constructor
  · exact And.right
  · intro total
    refine ⟨?_, total⟩
    rintro rfl
    rw [zero_pow (NeZero.ne e.groupOrder)] at total
    exact zero_ne_one total

theorem one_inSubgroup : (1 : Fq12 e).InSubgroup := inSubgroup_iff_pow.2 (one_pow _)

theorem check_eq_ok_iff {y : Fq12 e} : x.check = .ok y ↔ x = y ∧ x.InSubgroup := by
  constructor
  · intro passed
    unfold check at passed
    split at passed
    · rename_i member
      cases passed
      exact ⟨rfl, member⟩
    · cases passed
  · rintro ⟨rfl, member⟩
    rw [check, if_pos member]

theorem check_error (x : Fq12 e) : FailsWith (· = .notInSubgroup) x.check :=
  .ite (fun _ => .ok x) fun _ => .error rfl

theorem liftArithmetic_check_eq_ok_iff {y : Fq12 e} :
    liftArithmetic x.check = .ok y ↔ x = y ∧ x.InSubgroup :=
  liftArithmetic_eq_ok_iff.trans check_eq_ok_iff

theorem liftArithmetic_check_error (x : Fq12 e) :
    FailsWith (· = .notInSubgroup) (liftArithmetic x.check) :=
  .mapError (x.check_error.mono fun _ same => congrArg CodecError.ofArithmetic same)

def IsCyclotomic (x : Fq12 e) : Prop := x ^ (e.fieldOrder ^ 4 - e.fieldOrder ^ 2 + 1) = 1

theorem InSubgroup.isCyclotomic (member : x.InSubgroup) : x.IsCyclotomic := by
  obtain ⟨k, multiple⟩ := e.groupOrder_dvd
  rw [IsCyclotomic, multiple, pow_mul, inSubgroup_iff_pow.1 member, one_pow]

theorem IsCyclotomic.isUnit (cyclotomic : x.IsCyclotomic) : IsUnit x :=
  .of_pow_eq_one cyclotomic (Nat.succ_ne_zero _)

theorem IsCyclotomic.step (cyclotomic : x.IsCyclotomic) :
    (x ^ e.fieldOrder ^ 2) ^ e.fieldOrder ^ 2 * x = x ^ e.fieldOrder ^ 2 := by
  have smaller : e.fieldOrder ^ 2 ≤ e.fieldOrder ^ 4 :=
    Nat.pow_le_pow_right (Nat.pos_of_ne_zero (NeZero.ne _)) (by decide)
  have exponent : e.fieldOrder ^ 2 * e.fieldOrder ^ 2 + 1 =
      (e.fieldOrder ^ 4 - e.fieldOrder ^ 2 + 1) + e.fieldOrder ^ 2 := by
    rw [← pow_add, show 2 + 2 = 4 from rfl]
    omega
  rw [← pow_mul, ← pow_succ, exponent, pow_add, cyclotomic, one_mul]

theorem IsCyclotomic.inverse (cyclotomic : x.IsCyclotomic) :
    ((x ^ e.fieldOrder ^ 2) ^ e.fieldOrder ^ 2) ^ e.fieldOrder ^ 2 * x = 1 := by
  have step := cyclotomic.step
  have raised : ((x ^ e.fieldOrder ^ 2) ^ e.fieldOrder ^ 2) ^ e.fieldOrder ^ 2 *
      x ^ e.fieldOrder ^ 2 = (x ^ e.fieldOrder ^ 2) ^ e.fieldOrder ^ 2 := by
    rw [← mul_pow, step]
  apply (cyclotomic.isUnit.pow (e.fieldOrder ^ 2)).mul_right_cancel
  rw [one_mul, mul_right_comm, raised, step]

/-!
The target group as a group on which the scalars act: products, inverses, quotients and powers of its
members are members, the inverse of a member always exists, and powers with scalars as exponents obey
the laws of exponents although scalars are reduced modulo the group order.
-/

variable {y : Fq12 e}

theorem exp_eq_pow (x : Fq12 e) (k : Fr e) : x.exp k = x ^ k.val := power_eq_pow x k.val

theorem mul_exp (x y : Fq12 e) (k : Fr e) : (x * y).exp k = x.exp k * y.exp k := by
  simp only [exp_eq_pow, mul_pow]

theorem inverse_eq_ok_iff : x.inverse = .ok y ↔ x ≠ 0 ∧ x⁻¹ = y := by
  unfold inverse
  split <;> simp_all

theorem div_eq_ok_iff {z : Fq12 e} : x.div y = .ok z ↔ y ≠ 0 ∧ x * y⁻¹ = z := by
  unfold div
  split <;> simp_all

namespace InSubgroup

theorem pow_order (member : x.InSubgroup) : x ^ e.groupOrder = 1 := inSubgroup_iff_pow.1 member

theorem ne_zero (member : x.InSubgroup) : x ≠ 0 := member.1

theorem mul (left : x.InSubgroup) (right : y.InSubgroup) : (x * y).InSubgroup := by
  apply inSubgroup_iff_pow.2
  rw [mul_pow, left.pow_order, right.pow_order, one_mul]

theorem inv (member : x.InSubgroup) : (x⁻¹).InSubgroup := by
  apply inSubgroup_iff_pow.2
  calc
    x⁻¹ ^ e.groupOrder = (x * x⁻¹) ^ e.groupOrder := by rw [mul_pow, member.pow_order, one_mul]
    _ = 1 := by rw [mul_inv_of_ne_zero member.ne_zero, one_pow]

theorem exp (member : x.InSubgroup) (k : Fr e) : (x.exp k).InSubgroup := by
  apply inSubgroup_iff_pow.2
  rw [exp_eq_pow, ← pow_mul, mul_comm, pow_mul, member.pow_order, one_pow]

theorem inverse (member : x.InSubgroup) : x.inverse = .ok x⁻¹ :=
  inverse_eq_ok_iff.2 ⟨member.ne_zero, rfl⟩

theorem div (member : y.InSubgroup) (x : Fq12 e) : x.div y = .ok (x * y⁻¹) :=
  div_eq_ok_iff.2 ⟨member.ne_zero, rfl⟩

theorem pow_mod (member : x.InSubgroup) (n : Nat) : x ^ (n % e.groupOrder) = x ^ n :=
  (pow_eq_pow_mod n member.pow_order).symm

theorem exp_one (member : x.InSubgroup) : x.exp 1 = x := by
  rw [exp_eq_pow, Residue.val_one, member.pow_mod, pow_one]

theorem exp_add (member : x.InSubgroup) (a b : Fr e) : x.exp (a + b) = x.exp a * x.exp b := by
  simp only [exp_eq_pow]
  rw [Residue.val_add, member.pow_mod, pow_add]

theorem exp_mul (member : x.InSubgroup) (a b : Fr e) : x.exp (a * b) = (x.exp a).exp b := by
  simp only [exp_eq_pow]
  rw [Residue.val_mul, member.pow_mod, pow_mul]

end InSubgroup

/--
The scalars act on the elements with property `M` by powers. The first law says which ones; by it no map
but the power itself has the laws.
-/
structure ExponentLaws (e : Engine) (M : Fq12 e → Prop) : Prop where
  exp_eq_pow (k : Fr e) {x : Fq12 e} : M x → x.exp k = x ^ k.val
  exp_one {x : Fq12 e} : M x → x.exp 1 = x
  mul_exp (k : Fr e) {x y : Fq12 e} : M x → M y → (x * y).exp k = x.exp k * y.exp k
  exp_add (a b : Fr e) {x : Fq12 e} : M x → x.exp (a + b) = x.exp a * x.exp b
  exp_mul (a b : Fr e) {x : Fq12 e} : M x → x.exp (a * b) = (x.exp a).exp b

theorem exponentLaws_of_inSubgroup {M : Fq12 e → Prop} (member : ∀ x, M x → x.InSubgroup) :
    ExponentLaws e M := by
  constructor
  · intro k x _
    exact exp_eq_pow x k
  · intro x holds
    exact (member x holds).exp_one
  · intro k x y _ _
    exact mul_exp x y k
  · intro a b x holds
    exact (member x holds).exp_add a b
  · intro a b x holds
    exact (member x holds).exp_mul a b

end Fq12

end PairingWire
