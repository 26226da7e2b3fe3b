import Mathlib.Algebra.Order.Ring.Nat
import Mathlib.Data.Nat.Digits.Defs
import Mathlib.Tactic.Ring
import PairingWire.Bytes

/-!
Octet strings as numbers: the value is below the power for the length, writing and reading are inverse
on the numbers that fit, and concatenation adds place values.
-/

namespace PairingWire.Bytes

theorem toNatLE_lt (bs : Bytes) : toNatLE bs < 256 ^ bs.length := by
  induction bs with
  | nil => simp [toNatLE]
  | cons b bs ih =>
      have octet := b.toNat_lt
      simp only [toNatLE, List.length_cons, Nat.pow_succ]
      omega

theorem toNatLE_ofNatLE (width n : Nat) : toNatLE (ofNatLE width n) = n % 256 ^ width := by
  induction width generalizing n with
  | zero => simp [ofNatLE, toNatLE, Nat.mod_one]
  | succ width ih =>
      have head : (UInt8.ofNat n).toNat = n % 256 := UInt8.toNat_ofNat'
      rw [ofNatLE, toNatLE, ih, head, Nat.pow_succ, Nat.mul_comm (256 ^ width) 256, Nat.mod_mul]

theorem toNatBE_ofNatBE {width n : Nat} (fits : n < 256 ^ width) :
    toNatBE (ofNatBE width n) = n := by
  rw [toNatBE, ofNatBE, List.reverse_reverse, toNatLE_ofNatLE, Nat.mod_eq_of_lt fits]

theorem toNatLE_append (as bs : Bytes) :
    toNatLE (as ++ bs) = toNatLE as + 256 ^ as.length * toNatLE bs := by
  induction as with
  | nil => simp [toNatLE]
  | cons a as ih =>
      simp only [List.cons_append, toNatLE, List.length_cons, ih, pow_succ]
      ring

theorem toNatBE_cons (b : UInt8) (bs : Bytes) :
    toNatBE (b :: bs) = 256 ^ bs.length * b.toNat + toNatBE bs := by
  simp only [toNatBE, List.reverse_cons, toNatLE_append, toNatLE, List.length_reverse]
  ring

theorem toNatBE_lt (bs : Bytes) : toNatBE bs < 256 ^ bs.length := by
  have bound := toNatLE_lt bs.reverse
  rwa [List.length_reverse] at bound

theorem toNatBE_zeros (k : Nat) (bs : Bytes) :
    toNatBE (List.replicate k 0 ++ bs) = toNatBE bs := by
  induction k with
  | zero => rfl
  | succ k ih =>
      have zero : (0 : UInt8).toNat = 0 := rfl
      rw [List.replicate_succ, List.cons_append, toNatBE_cons, ih, zero, Nat.mul_zero, Nat.zero_add]

theorem toNatBE_eq_ofDigits (bs : Bytes) :
    toNatBE bs = Nat.ofDigits 256 (bs.reverse.map UInt8.toNat) := by
  unfold toNatBE
  induction bs.reverse with
  | nil => rfl
  | cons b bs ih => rw [toNatLE, ih, List.map_cons, Nat.ofDigits_cons]

/-- The higher place decides between two numbers that differ there. -/
theorem compare_places {place a b low low' : Nat} (fits : low < place) (fits' : low' < place) :
    compare (place * a + low) (place * b + low') = (compare a b).then (compare low low') := by
  rcases Nat.lt_trichotomy a b with less | rfl | greater
  · have step : place * (a + 1) ≤ place * b := Nat.mul_le_mul_left place less
    have below : place * a + low < place * b + low' := by
      rw [Nat.mul_succ] at step
      omega
    rw [Nat.compare_eq_lt.2 less, Nat.compare_eq_lt.2 below]
    rfl
  · have same : compare a a = .eq := Nat.compare_eq_eq.2 rfl
    rw [same, Ordering.then]
    simp only [compare, compareOfLessAndEq, Nat.add_lt_add_iff_left, Nat.add_left_cancel_iff]
  · have step : place * (b + 1) ≤ place * a := Nat.mul_le_mul_left place greater
    have above : place * b + low' < place * a + low := by
      rw [Nat.mul_succ] at step
      omega
    rw [Nat.compare_eq_gt.2 greater, Nat.compare_eq_gt.2 above]
    rfl

theorem compare_octets (a b : UInt8) : compare a b = compare a.toNat b.toNat := by
  change compareOfLessAndEq a b = compareOfLessAndEq a.toNat b.toNat
  simp only [compareOfLessAndEq, UInt8.lt_iff_toNat_lt, ← UInt8.toNat_inj]

theorem compare_eq_compare_toNatBE {as bs : Bytes} (same : as.length = bs.length) :
    compare as bs = compare (toNatBE as) (toNatBE bs) := by
  induction as generalizing bs with
  | nil =>
      obtain rfl := List.length_eq_zero_iff.1 same.symm
      rfl
  | cons a as ih =>
      cases bs with
      | nil => cases same
      | cons b bs =>
          have rest : as.length = bs.length := Nat.succ.inj same
          have fits := toNatBE_lt as
          rw [rest] at fits
          rw [List.compare_cons_cons, compare_octets, ih rest, toNatBE_cons, toNatBE_cons, rest,
            compare_places fits (toNatBE_lt bs)]

theorem compare_append {as bs : Bytes} (same : as.length = bs.length) (cs ds : Bytes) :
    compare (as ++ cs) (bs ++ ds) = (compare as bs).then (compare cs ds) := by
  induction as generalizing bs with
  | nil =>
      obtain rfl := List.length_eq_zero_iff.1 same.symm
      rfl
  | cons a as ih =>
      cases bs with
      | nil => cases same
      | cons b bs =>
          rw [List.cons_append, List.cons_append, List.compare_cons_cons, List.compare_cons_cons,
            ih (Nat.succ.inj same), Ordering.then_assoc]

theorem ofNatLE_zero (width : Nat) : ofNatLE width 0 = List.replicate width 0 := by
  induction width with
  | zero => rfl
  | succ width ih =>
      rw [ofNatLE, Nat.zero_div, ih, List.replicate_succ]
      rfl

theorem ofNatBE_zero (width : Nat) : ofNatBE width 0 = List.replicate width 0 := by
  rw [ofNatBE, ofNatLE_zero, List.reverse_replicate]

theorem all_zero_iff {bs : Bytes} : bs.all (· = 0) = true ↔ bs = List.replicate bs.length 0 := by
  simp [List.eq_replicate_iff]

theorem ofNatLE_add (width more n : Nat) :
    ofNatLE (width + more) n = ofNatLE width n ++ ofNatLE more (n / 256 ^ width) := by
  induction width generalizing n with
  | zero => rw [Nat.zero_add, Nat.pow_zero, Nat.div_one, ofNatLE, List.nil_append]
  | succ width ih =>
      rw [Nat.succ_add, ofNatLE, ofNatLE, ih, List.cons_append, Nat.div_div_eq_div_mul,
        Nat.pow_succ']

theorem take_ofNatLE {width kept : Nat} (fits : kept ≤ width) (n : Nat) :
    (ofNatLE width n).take kept = ofNatLE kept n := by
  obtain ⟨more, rfl⟩ := Nat.exists_eq_add_of_le fits
  rw [ofNatLE_add, List.take_left' (length_ofNatLE kept n)]

theorem ofNatLE_eq_iff (bs : Bytes) {n : Nat} :
    ofNatLE bs.length n = bs ↔ n % 256 ^ bs.length = toNatLE bs := by
  constructor
  · intro same
    rw [← toNatLE_ofNatLE, same]
  · intro same
    calc
      ofNatLE bs.length n = ofNatLE bs.length (toNatLE (ofNatLE bs.length n)) := by
        have back := ofNatLE_toNatLE (ofNatLE bs.length n)
        rw [length_ofNatLE] at back
        exact back.symm
      _ = ofNatLE bs.length (toNatLE bs) := by rw [toNatLE_ofNatLE, same]
      _ = bs := ofNatLE_toNatLE bs

theorem ofNatBE_add {width n : Nat} (fits : n < 256 ^ width) (more : Nat) :
    ofNatBE (width + more) n = List.replicate more 0 ++ ofNatBE width n := by
  rw [ofNatBE, ofNatLE_add, Nat.div_eq_of_lt fits, ofNatLE_zero, List.reverse_append,
    List.reverse_replicate, ofNatBE]

end PairingWire.Bytes
