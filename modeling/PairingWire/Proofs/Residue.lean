import Mathlib.Algebra.Order.Ring.Nat
import PairingWire.Proofs.Bytes
import PairingWire.Proofs.Outcome
import PairingWire.Residue

/-!
Powers and encodings of residues. Repeated doubling computes the power with the same exponent in every
monoid, and a map that respects the operation respects repeated doubling. Exactly the octets that are
written for a residue are read as that residue.
-/

namespace PairingWire

theorem lt_two_pow_bitLength (n : Nat) : n < 2 ^ bitLength n := by
  unfold bitLength
  split
  · simp_all
  · exact Nat.lt_log2_self

theorem bitLength_le_iff {n digits : Nat} : bitLength n ≤ digits ↔ n < 2 ^ digits := by
  unfold bitLength
  split
  · rename_i zero
    simp [zero]
  · rename_i nonzero
    rw [Nat.add_one_le_iff, Nat.log2_lt nonzero]

theorem lt_two_pow_div_two {digits n : Nat} (bound : n < 2 ^ (digits + 1)) : n / 2 < 2 ^ digits := by
  rw [Nat.pow_succ] at bound
  omega

theorem doubleAndAdd_eq_pow {M : Type} [Monoid M] (x : M) {digits n : Nat} (bound : n < 2 ^ digits) :
    doubleAndAdd (· * ·) 1 x digits n = x ^ n := by
  induction digits generalizing n with
  | zero =>
      have zero : n = 0 := by simpa using bound
      rw [zero, pow_zero, doubleAndAdd]
  | succ digits ih =>
      have half := ih (lt_two_pow_div_two bound)
      simp only [doubleAndAdd, half, ← pow_add]
      split
      · congr 1
        omega
      · rw [← pow_succ]
        congr 1
        omega

theorem power_eq_pow {M : Type} [Monoid M] (x : M) (n : Nat) : power x n = x ^ n :=
  doubleAndAdd_eq_pow x (lt_two_pow_bitLength n)

theorem map_doubleAndAdd {M N : Type} {op : M → M → M} {op' : N → N → N} (f : M → N)
    (respects : ∀ x y, f (op x y) = op' (f x) (f y)) (unit x : M) (digits n : Nat) :
    f (doubleAndAdd op unit x digits n) = doubleAndAdd op' (f unit) (f x) digits n := by
  induction digits generalizing n with
  | zero => rfl
  | succ digits ih =>
      simp only [doubleAndAdd]
      split <;> simp only [respects, ih]

theorem doubleAndAdd_induction {M : Type} {op : M → M → M} {P : M → Prop} {unit x : M}
    (start : P unit) (base : P x) (keeps : ∀ y z, P y → P z → P (op y z)) (digits n : Nat) :
    P (doubleAndAdd op unit x digits n) := by
  induction digits generalizing n with
  | zero => exact start
  | succ digits ih =>
      have half := ih (n / 2)
      simp only [doubleAndAdd]
      split
      · exact keeps _ _ half half
      · exact keeps _ _ (keeps _ _ half half) base

namespace Residue

variable {m : Nat}

theorem modulus_lt_width (m : Nat) : m < 256 ^ width m := by
  have digits : bitLength m ≤ 8 * width m := by
    unfold width
    omega
  calc
    m < 2 ^ bitLength m := lt_two_pow_bitLength m
    _ ≤ 2 ^ (8 * width m) := Nat.pow_le_pow_right two_pos digits
    _ = 256 ^ width m := pow_mul 2 8 (width m)

theorem toNatBE_toBytes (a : Residue m) : Bytes.toNatBE a.toBytes = a.val :=
  Bytes.toNatBE_ofNatBE (Nat.lt_trans a.isLt (modulus_lt_width m))

theorem reverse_toBytes (a : Residue m) : a.toBytes.reverse = Bytes.ofNatLE (width m) a.val :=
  List.reverse_reverse _

theorem ofBytes_toBytes (a : Residue m) : ofBytes m a.toBytes = .ok a := by
  simp [ofBytes, length_toBytes, toNatBE_toBytes, ofNat?_val]

theorem ofBytes_eq_ok_iff {bs : Bytes} {a : Residue m} :
    ofBytes m bs = .ok a ↔ a.toBytes = bs := by
  constructor
  · intro found
    unfold ofBytes at found
    split at found
    · rename_i width_eq
      rw [toBytes, ofNat?_eq_ok_iff.1 found, ← width_eq, Bytes.ofNatBE_toNatBE]
    · cases found
  · rintro rfl
    exact ofBytes_toBytes a

theorem compare_eq_compare_toBytes (a b : Residue m) :
    a.compare b = Ord.compare a.toBytes b.toBytes := by
  have same : a.toBytes.length = b.toBytes.length := by rw [length_toBytes, length_toBytes]
  rw [Bytes.compare_eq_compare_toNatBE same, toNatBE_toBytes, toNatBE_toBytes, compare]

theorem ofBytes_error {bs : Bytes} (width_eq : bs.length = width m) :
    FailsWith (· = .notReduced) (ofBytes m bs) := by
  rw [ofBytes, if_pos width_eq, ofNat?]
  split
  · exact .ok _
  · exact .error rfl

theorem width_ne_zero (m : Nat) [Modulus m] : width m ≠ 0 := by
  have digits : bitLength m ≠ 0 := by
    rw [bitLength, if_neg (NeZero.ne m)]
    exact Nat.succ_ne_zero _
  unfold width
  omega

/-- The first octet of a residue whose modulus is less than `k` times the last place value. -/
theorem toNat_head_lt {m k : Nat} (small : m ≤ k * 256 ^ (width m - 1)) {a : Residue m} {b : UInt8}
    {bs : Bytes} (written : a.toBytes = b :: bs) : b.toNat < k := by
  have places : bs.length = width m - 1 := by
    have total := length_toBytes a
    rw [written, List.length_cons] at total
    omega
  -- The number is the first octet times the last place value, and less than that again.
  have value := toNatBE_toBytes a
  rw [written, Bytes.toNatBE_cons, places, mul_comm] at value
  have bound : b.toNat * 256 ^ (width m - 1) < k * 256 ^ (width m - 1) := by
    have reduced := a.isLt
    omega
  exact lt_of_mul_lt_mul_right bound (Nat.zero_le _)

end Residue

end PairingWire
