import Mathlib.Algebra.CharP.Lemmas
import Mathlib.Tactic.FieldSimp
import Mathlib.Tactic.LinearCombination
import Mathlib.Tactic.Ring
import PairingWire.Proofs.Residue.Square
import PairingWire.Quadratic

/-!
The quadratic extension as a commutative ring, and as a field where -1 is no square of the base
field. There the power with exponent `p` is the conjugate, so that every element is its own power
with exponent `p * p`.
-/

namespace PairingWire.Quadratic

variable {p : Nat}

variable [Modulus p]

theorem c0_zero : (0 : Quadratic p).c0 = 0 := rfl

theorem c1_zero : (0 : Quadratic p).c1 = 0 := rfl

theorem c0_one : (1 : Quadratic p).c0 = 1 := rfl

theorem c1_one : (1 : Quadratic p).c1 = 0 := rfl

instance : CommRing (Quadratic p) where
  add_assoc a b c := by ext1 <;> exact add_assoc _ _ _
  zero_add a := by ext1 <;> exact zero_add _
  add_zero a := by ext1 <;> exact add_zero _
  add_comm a b := by ext1 <;> exact add_comm _ _
  neg_add_cancel a := by ext1 <;> exact neg_add_cancel _
  sub_eq_add_neg a b := by ext1 <;> exact sub_eq_add_neg _ _
  mul_assoc a b c := by ext1 <;> simp only [c0_mul, c1_mul] <;> ring
  mul_comm a b := by ext1 <;> simp only [c0_mul, c1_mul] <;> ring
  one_mul a := by ext1 <;> simp only [c0_mul, c1_mul, c0_one, c1_one] <;> ring
  mul_one a := by ext1 <;> simp only [c0_mul, c1_mul, c0_one, c1_one] <;> ring
  left_distrib a b c := by ext1 <;> simp only [c0_mul, c1_mul, c0_add, c1_add] <;> ring
  right_distrib a b c := by ext1 <;> simp only [c0_mul, c1_mul, c0_add, c1_add] <;> ring
  zero_mul a := by ext1 <;> simp only [c0_mul, c1_mul, c0_zero, c1_zero] <;> ring
  mul_zero a := by ext1 <;> simp only [c0_mul, c1_mul, c0_zero, c1_zero] <;> ring
  natCast n := ⟨n, 0⟩
  natCast_zero := by ext1 <;> simp [c0_zero, c1_zero]
  natCast_succ n := by ext1 <;> simp [c0_add, c1_add, c0_one, c1_one]
  nsmul := nsmulRec
  zsmul := zsmulRec

theorem natCast_eq_ofNat (n : Nat) : (n : Quadratic p) = ofNat p n := rfl

def ofBaseHom (p : Nat) [Modulus p] : Residue p →+* Quadratic p where
  toFun a := ⟨a, 0⟩
  map_zero' := rfl
  map_one' := rfl
  map_add' a b := by ext1 <;> simp [c0_add, c1_add]
  map_mul' a b := by ext1 <;> simp [c0_mul, c1_mul]

theorem ofBaseHom_apply (a : Residue p) : ofBaseHom p a = ⟨a, 0⟩ := rfl

def root (p : Nat) [Modulus p] : Quadratic p := ⟨0, 1⟩

theorem root_mul_self : root p * root p = -1 := by
  ext1 <;> simp [root, c0_mul, c1_mul, c0_neg, c1_neg, c0_one, c1_one]

theorem eq_base_add_root (a : Quadratic p) : a = ofBaseHom p a.c0 + ofBaseHom p a.c1 * root p := by
  ext1 <;> simp [root, ofBaseHom_apply, c0_add, c1_add, c0_mul, c1_mul]

theorem ofBaseHom_injective : Function.Injective (ofBaseHom p) := by
  intro a b same
  exact congrArg c0 same

instance : CharP (Quadratic p) p := charP_of_injective_ringHom ofBaseHom_injective p

theorem mul_conj (a : Quadratic p) : a * a.conj = ofBaseHom p a.norm := by
  ext1
  · simp only [c0_mul, conj, norm, ofBaseHom_apply]
    ring
  · simp only [c1_mul, conj, ofBaseHom_apply]
    ring

theorem norm_mul (a b : Quadratic p) : (a * b).norm = a.norm * b.norm := by
  simp only [norm, c0_mul, c1_mul]
  ring

theorem conj_conj (a : Quadratic p) : a.conj.conj = a := by
  ext1
  · rfl
  · exact neg_neg a.c1

theorem inv_eq (a : Quadratic p) : a⁻¹ = a.conj * ofBaseHom p a.norm⁻¹ := by
  ext1
  · change a.c0 * a.norm⁻¹ = _
    simp [c0_mul, conj, ofBaseHom_apply]
  · change -a.c1 * a.norm⁻¹ = _
    simp [c1_mul, conj, ofBaseHom_apply]

section Blum

variable [BlumPrime p]

theorem norm_eq_zero_iff {a : Quadratic p} : a.norm = 0 ↔ a = 0 := by
  constructor
  · intro zero
    ext1
    · exact Residue.eq_zero_of_sum_squares zero
    · exact Residue.eq_zero_of_sum_squares ((add_comm _ _).trans zero)
  · rintro rfl
    simp [norm, c0_zero, c1_zero]

instance : Nontrivial (Quadratic p) := ofBaseHom_injective.nontrivial

instance : Field (Quadratic p) where
  mul_inv_cancel a nonzero := by
    have norm_nonzero : a.norm ≠ 0 := fun zero => nonzero (norm_eq_zero_iff.1 zero)
    rw [inv_eq, ← mul_assoc, mul_conj, ← map_mul, mul_inv_cancel₀ norm_nonzero, map_one]
  inv_zero := by
    rw [inv_eq, norm_eq_zero_iff.2 rfl, inv_zero, map_zero, mul_zero]
  nnqsmul := _
  qsmul := _

theorem two_ne_zero_of_odd : (2 : Quadratic p) ≠ 0 := by
  rw [← map_ofNat (ofBaseHom p) 2, ne_eq, map_eq_zero]
  exact Residue.two_ne_zero_of_odd

theorem root_pow_modulus : root p ^ p = -root p := by
  obtain ⟨k, quotient⟩ : ∃ k, p = 2 * (2 * k + 1) + 1 := ⟨p / 4, by
    have mod_four := Residue.modulus_mod_four p
    omega⟩
  have odd : Odd (2 * k + 1) := ⟨k, rfl⟩
  calc root p ^ p = root p ^ (2 * (2 * k + 1) + 1) := by rw [← quotient]
    _ = (root p * root p) ^ (2 * k + 1) * root p := by rw [pow_succ, pow_mul, sq]
    _ = -root p := by rw [root_mul_self, odd.neg_one_pow, neg_one_mul]

/-- The power with exponent `p` is the conjugate. -/
theorem pow_modulus (a : Quadratic p) : a ^ p = a.conj := by
  calc a ^ p = (ofBaseHom p a.c0 + ofBaseHom p a.c1 * root p) ^ p := by rw [← eq_base_add_root]
    _ = ofBaseHom p a.c0 ^ p + (ofBaseHom p a.c1) ^ p * root p ^ p := by
      rw [add_pow_char, mul_pow]
    _ = ofBaseHom p a.c0 + ofBaseHom p a.c1 * -root p := by
      rw [← map_pow, ← map_pow, Residue.pow_card, Residue.pow_card, root_pow_modulus]
    _ = a.conj := by
      ext1 <;> simp [root, conj, ofBaseHom_apply, c0_add, c1_add, c0_mul, c1_mul, c0_neg, c1_neg]

theorem pow_modulus_sq (a : Quadratic p) : a ^ (p * p) = a := by
  rw [pow_mul, pow_modulus, pow_modulus, conj_conj]

end Blum

end PairingWire.Quadratic
