import Mathlib.Data.List.Basic
import Mathlib.Data.Nat.Digits.Defs
import Mathlib.Tactic.IntervalCases
import PairingWire.Bytes
import PairingWire.Proofs.Bytes

/-!
Hexadecimal text: the digits of either case with their values, the number that a text of digits writes,
and the octets that its digits make in pairs. A character that is no digit is noticed in its UTF-8
octets, since those outside ASCII are above all digits.
-/

namespace PairingWire.Hex

def IsDigit (c : Char) : Prop := c ∈ "0123456789abcdefABCDEF".toList

instance (c : Char) : Decidable (IsDigit c) := inferInstanceAs (Decidable (c ∈ _))

def digitValue (c : Char) : Nat := "0123456789abcdef".toList.idxOf c.toLower

def number (cs : List Char) : Nat := Nat.ofDigits 16 (cs.reverse.map digitValue)

section Digit

variable {c : Char}

/-- What the table of the digits shows holds of every digit. -/
theorem of_isDigit {P : Char → Prop} [DecidablePred P]
    (table : ("0123456789abcdefABCDEF".toList.all fun c => decide (P c)) = true) (digit : IsDigit c) :
    P c :=
  of_decide_eq_true (List.all_eq_true.1 table c digit)

theorem digit?_of_isDigit (digit : IsDigit c) : digit? c = some (digitValue c) :=
  of_isDigit (P := fun c => digit? c = some (digitValue c)) (by decide) digit

theorem digitValue_lt (digit : IsDigit c) : digitValue c < 16 :=
  of_isDigit (P := fun c => digitValue c < 16) (by decide) digit

theorem toNat_lt_of_isDigit (digit : IsDigit c) : c.toNat < 128 :=
  of_isDigit (P := fun c => c.toNat < 128) (by decide) digit

theorem isDigit_of_range {low high : Char}
    (range : ∀ n ∈ List.range' low.toNat (high.toNat + 1 - low.toNat), IsDigit (Char.ofNat n))
    (bounds : low ≤ c ∧ c ≤ high) : IsDigit c := by
  have lower : low.toNat ≤ c.toNat := bounds.1
  have upper : c.toNat ≤ high.toNat := bounds.2
  rw [← Char.ofNat_toNat c]
  apply range
  rw [List.mem_range'_1]
  omega

theorem digit?_of_not_isDigit (illegal : ¬IsDigit c) : digit? c = none := by
  rw [digit?, if_neg, if_neg, if_neg]
  · exact fun bounds => illegal (isDigit_of_range (by decide) bounds)
  · exact fun bounds => illegal (isDigit_of_range (by decide) bounds)
  · exact fun bounds => illegal (isDigit_of_range (by decide) bounds)

theorem isDigit_digit {n : Nat} (small : n < 16) : IsDigit (digit n) := by
  interval_cases n <;> decide

theorem digitValue_digit {n : Nat} (small : n < 16) : digitValue (digit n) = n := by
  interval_cases n <;> decide

theorem digit?_digit {n : Nat} (small : n < 16) : digit? (digit n) = some n := by
  rw [digit?_of_isDigit (isDigit_digit small), digitValue_digit small]

end Digit

section Number

variable {cs : List Char}

theorem number_cons (c : Char) (cs : List Char) :
    number (c :: cs) = digitValue c * 16 ^ cs.length + number cs := by
  simp only [number, List.reverse_cons, List.map_append, List.map_cons, List.map_nil,
    Nat.ofDigits_append, Nat.ofDigits_singleton, List.length_map, List.length_reverse]
  ring

theorem number_zeros (k : Nat) (cs : List Char) : number (List.replicate k '0' ++ cs) = number cs := by
  induction k with
  | zero => rfl
  | succ k ih =>
      have zero : digitValue '0' = 0 := by decide
      rw [List.replicate_succ, List.cons_append, number_cons, ih, zero, Nat.zero_mul, Nat.zero_add]

theorem padEven_eq (cs : List Char) :
    padEven cs = List.replicate (cs.length % 2) '0' ++ cs := by
  unfold padEven
  rcases Nat.mod_two_eq_zero_or_one cs.length with even | odd
  · simp [even]
  · simp [odd]

theorem length_padEven (cs : List Char) : (padEven cs).length = 2 * ((cs.length + 1) / 2) := by
  rw [padEven_eq, List.length_append, List.length_replicate]
  omega

theorem number_padEven (cs : List Char) : number (padEven cs) = number cs := by
  rw [padEven_eq, number_zeros]

theorem forall_isDigit_zeros (k : Nat) (cs : List Char) :
    (∀ c ∈ List.replicate k '0' ++ cs, IsDigit c) ↔ ∀ c ∈ cs, IsDigit c := by
  have zeros : ∀ c ∈ List.replicate k '0', IsDigit c := by
    intro c member
    rw [List.eq_of_mem_replicate member]
    decide
  rw [List.forall_mem_append]
  exact and_iff_right zeros

theorem forall_padEven_iff : (∀ c ∈ padEven cs, IsDigit c) ↔ ∀ c ∈ cs, IsDigit c := by
  rw [padEven_eq, forall_isDigit_zeros]

end Number

section Case

variable {cs cs' : List Char}

theorem isDigit_toLower (c : Char) : IsDigit c.toLower ↔ IsDigit c := by
  by_cases ascii : c.toNat < 128
  · have table : ∀ n < 128, IsDigit (Char.ofNat n).toLower ↔ IsDigit (Char.ofNat n) := by
      decide +kernel
    have entry := table c.toNat ascii
    rwa [Char.ofNat_toNat] at entry
  · have same : c.toLower = c := by
      refine dif_neg ?_
      rintro ⟨_, upper⟩
      have bound : c.toNat ≤ 'Z'.toNat := upper
      exact ascii (lt_of_le_of_lt bound (by decide))
    rw [same]

theorem forall_isDigit_of_lower (same : cs.map Char.toLower = cs'.map Char.toLower) :
    (∀ c ∈ cs, IsDigit c) ↔ ∀ c ∈ cs', IsDigit c := by
  have lower (ds : List Char) : (∀ c ∈ ds, IsDigit c) ↔ ∀ c ∈ ds.map Char.toLower, IsDigit c := by
    simp only [List.forall_mem_map, isDigit_toLower]
  rw [lower cs, same, ← lower cs']

theorem number_of_lower (same : cs.map Char.toLower = cs'.map Char.toLower) :
    number cs = number cs' := by
  have places (ds : List Char) : number ds = Nat.ofDigits 16
      ((ds.map Char.toLower).reverse.map fun c => "0123456789abcdef".toList.idxOf c) := by
    rw [number, ← List.map_reverse, List.map_map]
    rfl
  rw [places cs, same, ← places cs']

end Case

section Octets

theorem utf8_of_isDigit {c : Char} (digit : IsDigit c) :
    (String.utf8EncodeChar c).map Char.ofUInt8 = [c] :=
  of_isDigit (P := fun c => (String.utf8EncodeChar c).map Char.ofUInt8 = [c]) (by decide) digit

theorem toNat_ofUInt8 (b : UInt8) : (Char.ofUInt8 b).toNat = b.toNat := UInt8.toNat_toUInt32 b

/-- Outside ASCII the last octet is above all digits. -/
theorem exists_octet_not_isDigit {c : Char} (illegal : ¬IsDigit c) :
    ∃ octet ∈ (String.utf8EncodeChar c).map Char.ofUInt8, ¬IsDigit octet := by
  by_cases ascii : c.toNat ≤ 127
  · have single : String.utf8EncodeChar c = [UInt8.ofNat c.toNat] := if_pos ascii
    have same : Char.ofUInt8 (UInt8.ofNat c.toNat) = c := by
      apply Char.toNat_inj.1
      rw [toNat_ofUInt8, UInt8.toNat_ofNat']
      exact Nat.mod_eq_of_lt (by omega)
    rw [single, List.map_singleton, same]
    exact ⟨c, List.mem_singleton_self c, illegal⟩
  -- Continuation octets are at least 128, and every digit is below.
  · have last : UInt8.ofNat (c.toNat % 64 + 128) ∈ String.utf8EncodeChar c := by
      change _ ∈ if c.toNat ≤ 127 then _ else _
      rw [if_neg ascii]
      split
      · simp
      · split <;> simp
    refine ⟨_, List.mem_map_of_mem last, fun legal => ?_⟩
    have small := toNat_lt_of_isDigit legal
    rw [toNat_ofUInt8, UInt8.toNat_ofNat'] at small
    omega

variable {cs : List Char}

theorem octets_of_forall (legal : ∀ c ∈ cs, IsDigit c) : octets cs = cs := by
  induction cs with
  | nil => rfl
  | cons c cs ih =>
      have rest := ih fun c' member => legal c' (List.mem_cons_of_mem c member)
      rw [octets, List.flatMap_cons, utf8_of_isDigit (legal c List.mem_cons_self), ← octets, rest]
      rfl

theorem forall_octets_iff : (∀ c ∈ octets cs, IsDigit c) ↔ ∀ c ∈ cs, IsDigit c := by
  constructor
  · intro legal c member
    by_contra illegal
    obtain ⟨octet, octet_member, octet_illegal⟩ := exists_octet_not_isDigit illegal
    exact octet_illegal (legal octet (List.mem_flatMap.2 ⟨c, member, octet_member⟩))
  · intro legal
    rwa [octets_of_forall legal]

theorem octets_eq_nil_iff : octets cs = [] ↔ cs = [] := by
  constructor
  · intro none
    cases cs with
    | nil => rfl
    | cons c cs =>
        have first := (List.flatMap_eq_nil_iff.1 none) c List.mem_cons_self
        rw [List.map_eq_nil_iff] at first
        exact absurd first String.utf8EncodeChar_ne_nil
  · rintro rfl
    rfl

end Octets

section Pairs

variable {cs : List Char}

theorem toBytes?_of_not_forall (illegal : ¬∀ c ∈ cs, IsDigit c) : toBytes? cs = none := by
  induction cs using toBytes?.induct with
  | case1 => exact absurd (List.forall_mem_nil _) illegal
  | case2 h l rest ih =>
      rw [List.forall_mem_cons, List.forall_mem_cons, not_and_or, not_and_or] at illegal
      rcases illegal with first | second | later
      · simp [toBytes?, digit?_of_not_isDigit first]
      · simp [toBytes?, digit?_of_not_isDigit second]
      · simp [toBytes?, ih later]
  | case3 => rfl

theorem exists_toBytes? (legal : ∀ c ∈ cs, IsDigit c) (even : cs.length % 2 = 0) :
    ∃ bs, toBytes? cs = some bs ∧ cs.length = 2 * bs.length ∧ Bytes.toNatBE bs = number cs := by
  induction cs using toBytes?.induct with
  | case1 => exact ⟨[], rfl, rfl, rfl⟩
  | case2 h l rest ih =>
      rw [List.forall_mem_cons, List.forall_mem_cons] at legal
      obtain ⟨first, second, later⟩ := legal
      rw [List.length_cons, List.length_cons] at even
      obtain ⟨bs, found, length_eq, same⟩ := ih later (by omega)
      have high := digitValue_lt first
      have low := digitValue_lt second
      have octet : (UInt8.ofNat (16 * digitValue h + digitValue l)).toNat =
          16 * digitValue h + digitValue l := by
        rw [UInt8.toNat_ofNat']
        omega
      refine ⟨UInt8.ofNat (16 * digitValue h + digitValue l) :: bs, ?_, ?_, ?_⟩
      · simp [toBytes?, digit?_of_isDigit first, digit?_of_isDigit second, found]
      · rw [List.length_cons, List.length_cons, List.length_cons, length_eq]
        omega
      · calc
          Bytes.toNatBE (UInt8.ofNat (16 * digitValue h + digitValue l) :: bs) =
              256 ^ bs.length * (16 * digitValue h + digitValue l) + number rest := by
            rw [Bytes.toNatBE_cons, octet, same]
          _ = digitValue h * 16 ^ (rest.length + 1) +
              (digitValue l * 16 ^ rest.length + number rest) := by
            rw [length_eq, pow_succ, pow_mul]
            ring
          _ = number (h :: l :: rest) := by
            rw [number_cons, number_cons, List.length_cons]
  | case3 => cases even

end Pairs

section Written

theorem length_ofByte (b : UInt8) : (ofByte b).length = 2 := rfl

theorem toList_ofBytes (bs : Bytes) : (ofBytes bs).toList = bs.flatMap ofByte := String.toList_ofList

theorem forall_ofBytes (bs : Bytes) : ∀ c ∈ (ofBytes bs).toList, IsDigit c := by
  rw [toList_ofBytes]
  intro c member
  obtain ⟨b, _, written⟩ := List.mem_flatMap.1 member
  have bound := b.toNat_lt
  rcases List.mem_pair.1 written with rfl | rfl
  · exact isDigit_digit (by omega)
  · exact isDigit_digit (by omega)

theorem length_ofBytes (bs : Bytes) : (ofBytes bs).toList.length = 2 * bs.length := by
  rw [toList_ofBytes]
  induction bs with
  | nil => rfl
  | cons b bs ih =>
      rw [List.flatMap_cons, List.length_append, ih, length_ofByte, List.length_cons]
      omega

theorem number_ofBytes (bs : Bytes) : number (ofBytes bs).toList = Bytes.toNatBE bs := by
  induction bs with
  | nil => rfl
  | cons b bs ih =>
      have bound := b.toNat_lt
      have length_eq := length_ofBytes bs
      rw [toList_ofBytes] at ih length_eq ⊢
      have high : digitValue (digit (b.toNat / 16)) = b.toNat / 16 := digitValue_digit (by omega)
      have low : digitValue (digit (b.toNat % 16)) = b.toNat % 16 := digitValue_digit (by omega)
      calc
        number ((b :: bs).flatMap ofByte) =
            number (digit (b.toNat / 16) :: digit (b.toNat % 16) :: bs.flatMap ofByte) := rfl
        _ = b.toNat / 16 * 16 ^ (2 * bs.length + 1) +
            (b.toNat % 16 * 16 ^ (2 * bs.length) + Bytes.toNatBE bs) := by
          rw [number_cons, number_cons, List.length_cons, length_eq, ih, high, low]
        _ = 256 ^ bs.length * (16 * (b.toNat / 16) + b.toNat % 16) + Bytes.toNatBE bs := by
          rw [pow_succ, pow_mul]
          ring
        _ = Bytes.toNatBE (b :: bs) := by rw [Nat.div_add_mod, Bytes.toNatBE_cons]

end Written

end PairingWire.Hex
