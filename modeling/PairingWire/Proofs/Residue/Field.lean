import Mathlib.Algebra.CharP.Defs
import Mathlib.FieldTheory.Finite.Basic
import PairingWire.Proofs.Residue
import PairingWire.Residue

/-!
Residues modulo `m` as a commutative ring, and modulo an odd prime as a field. The laws are carried
over from the integers modulo `m`; `power` is the power of the ring, and with it the inverse of the
library is the inverse of the field.
-/

namespace PairingWire

class OddPrime (p : Nat) : Prop where
  prime : p.Prime
  ne_two : p ≠ 2

/-- A prime modulus that is 3 modulo 4. There -1 is no square, and one power gives a square root. -/
class BlumPrime (p : Nat) : Prop extends OddPrime p where
  mod_four : p % 4 = 3

namespace Residue

section Ring

variable {m : Nat}

def toZMod (a : Residue m) : ZMod m := a.val

theorem toZMod_injective : Function.Injective (toZMod (m := m)) := by
  intro a b same
  have reduced := (ZMod.natCast_eq_natCast_iff' a.val b.val m).1 same
  rw [Nat.mod_eq_of_lt a.isLt, Nat.mod_eq_of_lt b.isLt] at reduced
  exact ext reduced

theorem toZMod_add (a b : Residue m) : (a + b).toZMod = a.toZMod + b.toZMod := by
  rw [toZMod, val_add, ZMod.natCast_mod, Nat.cast_add]
  rfl

theorem toZMod_mul (a b : Residue m) : (a * b).toZMod = a.toZMod * b.toZMod := by
  rw [toZMod, val_mul, ZMod.natCast_mod, Nat.cast_mul]
  rfl

theorem toZMod_neg (a : Residue m) : (-a).toZMod = -a.toZMod := by
  rw [toZMod, val_neg, ZMod.natCast_mod, Nat.cast_sub a.isLt.le, ZMod.natCast_self, zero_sub]
  rfl

theorem toZMod_sub (a b : Residue m) : (a - b).toZMod = a.toZMod - b.toZMod := by
  rw [toZMod, val_sub, ZMod.natCast_mod, Nat.cast_add, Nat.cast_sub b.isLt.le, ZMod.natCast_self,
    zero_sub, ← sub_eq_add_neg]
  rfl

variable [Modulus m]

theorem toZMod_ofNat (n : Nat) : (ofNat m n).toZMod = n := ZMod.natCast_mod n m

theorem toZMod_surjective : Function.Surjective (toZMod (m := m)) := by
  intro z
  exact ⟨ofNat m z.val, (toZMod_ofNat z.val).trans (ZMod.natCast_zmod_val z)⟩

instance (priority := low) : NatCast (Residue m) := ⟨ofNat m⟩

instance (priority := low) : IntCast (Residue m) := ⟨fun n => ofNat m (n % m).toNat⟩

instance (priority := low) : SMul Nat (Residue m) := ⟨fun n a => ofNat m n * a⟩

instance (priority := low) : SMul Int (Residue m) := ⟨fun n a => (n : Residue m) * a⟩

instance (priority := low) : Pow (Residue m) Nat := ⟨fun a n => ofNat m (a.val ^ n)⟩

theorem natCast_eq_ofNat (n : Nat) : (n : Residue m) = ofNat m n := rfl

theorem ofNat_val (a : Residue m) : ofNat m a.val = a := ext (Nat.mod_eq_of_lt a.isLt)

theorem toZMod_zero : (0 : Residue m).toZMod = 0 := by
  rw [toZMod, val_zero, Nat.cast_zero]

theorem toZMod_one : (1 : Residue m).toZMod = 1 :=
  (toZMod_ofNat 1).trans Nat.cast_one

theorem toZMod_intCast (n : Int) : (n : Residue m).toZMod = n := by
  have nonneg : 0 ≤ n % (m : Int) := Int.emod_nonneg n (by exact_mod_cast NeZero.ne m)
  have cast : ((n % (m : Int)).toNat : ZMod m) = ((n % (m : Int) : Int) : ZMod m) := by
    conv_rhs => rw [← Int.toNat_of_nonneg nonneg]
    exact (Int.cast_natCast _).symm
  exact (toZMod_ofNat _).trans (cast.trans (ZMod.intCast_mod n m))

theorem toZMod_pow (a : Residue m) (n : Nat) : (a ^ n).toZMod = a.toZMod ^ n :=
  (toZMod_ofNat _).trans (Nat.cast_pow a.val n)

theorem toZMod_nsmul (n : Nat) (a : Residue m) : (n • a).toZMod = n • a.toZMod := by
  rw [nsmul_eq_mul, ← toZMod_ofNat n]
  exact toZMod_mul _ _

theorem toZMod_zsmul (n : Int) (a : Residue m) : (n • a).toZMod = n • a.toZMod := by
  rw [zsmul_eq_mul, ← toZMod_intCast n]
  exact toZMod_mul _ _

instance : CommRing (Residue m) :=
  toZMod_injective.commRing toZMod toZMod_zero toZMod_one toZMod_add toZMod_mul toZMod_neg
    toZMod_sub toZMod_nsmul toZMod_zsmul toZMod_pow toZMod_ofNat toZMod_intCast

def toZModHom (m : Nat) [Modulus m] : Residue m →+* ZMod m where
  toFun := toZMod
  map_one' := toZMod_one
  map_mul' := toZMod_mul
  map_zero' := toZMod_zero
  map_add' := toZMod_add

instance : CharP (Residue m) m :=
  (RingHom.charP_iff (toZModHom m) toZMod_injective m).2 inferInstance

instance : Finite (Residue m) := Finite.of_injective _ toZMod_injective

end Ring

section Field

variable {p : Nat} [Modulus p]

theorem inv_eq_pow (a : Residue p) : a⁻¹ = a ^ (p - 2) := power_eq_pow a (p - 2)

variable [OddPrime p]

instance : Fact p.Prime := ⟨OddPrime.prime⟩

instance : Fact (1 < p) := ⟨(OddPrime.prime (p := p)).one_lt⟩

theorem two_lt_modulus (p : Nat) [OddPrime p] : 2 < p :=
  lt_of_le_of_ne (OddPrime.prime (p := p)).two_le (OddPrime.ne_two (p := p)).symm

theorem odd_modulus (p : Nat) [OddPrime p] : p % 2 = 1 :=
  (OddPrime.prime (p := p)).eq_two_or_odd.resolve_left OddPrime.ne_two

instance : Nontrivial (Residue p) := by
  refine ⟨0, 1, fun same => ?_⟩
  have classes := congrArg toZMod same
  rw [toZMod_zero, toZMod_one] at classes
  exact zero_ne_one classes

/-- Fermat's little theorem for residues. -/
theorem pow_card_sub_one {a : Residue p} (nonzero : a ≠ 0) : a ^ (p - 1) = 1 := by
  apply toZMod_injective
  rw [toZMod_pow, toZMod_one]
  refine ZMod.pow_card_sub_one_eq_one fun zero => nonzero (toZMod_injective ?_)
  rw [zero, toZMod_zero]

theorem pow_card (a : Residue p) : a ^ p = a := by
  apply toZMod_injective
  rw [toZMod_pow, ZMod.pow_card]

theorem mul_inv_cancel_of_ne_zero {a : Residue p} (nonzero : a ≠ 0) : a * a⁻¹ = 1 := by
  have exponent : p - 2 + 1 = p - 1 := by
    have bound := two_lt_modulus p
    omega
  rw [inv_eq_pow, mul_comm, ← pow_succ, exponent, pow_card_sub_one nonzero]

theorem inv_zero_eq : (0 : Residue p)⁻¹ = 0 := by
  have bound := two_lt_modulus p
  rw [inv_eq_pow, zero_pow (by omega)]

instance : Field (Residue p) where
  mul_inv_cancel _ nonzero := mul_inv_cancel_of_ne_zero nonzero
  inv_zero := inv_zero_eq
  nnqsmul := _
  qsmul := _

theorem two_ne_zero_of_odd : (2 : Residue p) ≠ 0 := by
  intro zero
  have divides : p ∣ 2 := (CharP.cast_eq_zero_iff (Residue p) p 2).1 zero
  exact absurd (Nat.le_of_dvd (by decide) divides) (not_le.2 (two_lt_modulus p))

end Field

end Residue

end PairingWire
