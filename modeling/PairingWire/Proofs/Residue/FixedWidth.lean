import PairingWire.Engine
import PairingWire.Proofs.Guarded.Encoding

/-!
Residues and octet strings of the full width correspond one to one, in the same order. Numbers are carried
over to residues in octets without leading zeros, and back out of limbs that may be wider than the
modulus; neither way loses anything.
-/

namespace PairingWire

namespace Bytes

def placeValue (bs : Bytes) : Nat := Nat.ofDigits 256 (bs.reverse.map UInt8.toNat)

/-- The octets of a number without leading zeros, the most significant first; zero has one octet. -/
def minimal (n : Nat) : Bytes :=
  if n = 0 then [0] else ((Nat.digits 256 n).map UInt8.ofNat).reverse

theorem toNatBE_minimal (n : Nat) : toNatBE (minimal n) = n := by
  by_cases zero : n = 0
  · rw [zero]
    rfl
  · have octets : ∀ d ∈ Nat.digits 256 n, (UInt8.toNat ∘ UInt8.ofNat) d = id d := by
      intro d member
      have small : d < 256 := Nat.digits_lt_base (by decide) member
      rw [Function.comp_apply, UInt8.toNat_ofNat', Nat.mod_eq_of_lt small, id]
    rw [minimal, if_neg zero, toNatBE_eq_ofDigits, List.reverse_reverse, List.map_map,
      List.map_congr_left octets, List.map_id, Nat.ofDigits_digits]

end Bytes

namespace Residue

variable {m : Nat}

def toNumber (a : Residue m) : Nat := Bytes.toNatBE (Bytes.ofNatBE (Guarded.limbOctets m) a.val)

def ofNumber (m : Nat) [Modulus m] (n : Nat) : Except ArithmeticError (Residue m) :=
  if m ≤ n then .error .notReduced else .ok (ofNat m (Bytes.toNatBE (Bytes.minimal n)))

theorem toNumber_eq_val (a : Residue m) : a.toNumber = a.val := by
  apply Bytes.toNatBE_ofNatBE
  calc
    a.val < m := a.isLt
    _ < 256 ^ width m := modulus_lt_width m
    _ ≤ 256 ^ Guarded.limbOctets m :=
      Nat.pow_le_pow_right (by decide) (Guarded.width_le_limbOctets m)

theorem ofNumber_eq_ofNat? [Modulus m] (n : Nat) : ofNumber m n = ofNat? m n := by
  rw [ofNumber, ofNat?, Bytes.toNatBE_minimal]
  by_cases reduced : n < m
  · have same : ofNat m n = ⟨n, reduced⟩ := ext (Nat.mod_eq_of_lt reduced)
    rw [if_neg (not_le.2 reduced), dif_pos reduced, same]
  · rw [if_pos (not_lt.1 reduced), dif_neg reduced]

theorem width_le_iff (m n : Nat) : width m ≤ n ↔ m < 256 ^ n := by
  have places : 256 ^ n = 2 ^ (8 * n) := (pow_mul 2 8 n).symm
  rw [places, ← bitLength_le_iff, width]
  omega

theorem ofBytes_of_length {bs : Bytes} (total : bs.length = width m) :
    ofBytes m bs = ofNat? m bs.placeValue := by
  rw [ofBytes, if_pos total, Bytes.toNatBE_eq_ofDigits, Bytes.placeValue]

theorem ofBytes_of_length_ne {bs : Bytes} (ragged : bs.length ≠ width m) :
    ofBytes m bs = .error (.wrongLength (width m) bs.length) := if_neg ragged

theorem exists_ofBytes_iff {bs : Bytes} :
    (∃ a, ofBytes m bs = .ok a) ↔ bs.length = width m ∧ bs.placeValue < m := by
  by_cases total : bs.length = width m
  · rw [ofBytes_of_length total]
    constructor
    · rintro ⟨a, found⟩
      exact ⟨total, (ofNat?_eq_ok_iff.1 found) ▸ a.isLt⟩
    · rintro ⟨_, reduced⟩
      exact ⟨⟨bs.placeValue, reduced⟩, ofNat?_eq_ok_iff.2 rfl⟩
  · rw [ofBytes_of_length_ne total]
    constructor
    · rintro ⟨a, found⟩
      cases found
    · rintro ⟨total', _⟩
      exact absurd total' total

/-- The residues modulo `m` and the strings of one width whose value is below `m`. -/
structure FixedWidth (m : Nat) [Modulus m] : Prop where
  width_le_iff (n : Nat) : width m ≤ n ↔ m < 256 ^ n
  accepted (bs : Bytes) : (∃ a, ofBytes m bs = .ok a) ↔ bs.length = width m ∧ bs.placeValue < m
  read {bs : Bytes} {a : Residue m} :
    ofBytes m bs = .ok a → a.toNumber = bs.placeValue ∧ a.toBytes = bs
  wrongLength {bs : Bytes} :
    bs.length ≠ width m → ofBytes m bs = .error (.wrongLength (width m) bs.length)
  notReduced {bs : Bytes} :
    bs.length = width m → m ≤ bs.placeValue → ofBytes m bs = .error .notReduced
  ofBytes_toBytes (a : Residue m) : ofBytes m a.toBytes = .ok a
  ofNumber_toNumber (a : Residue m) : ofNumber m a.toNumber = .ok a
  numbers (a : Residue m) (n : Nat) : a.toNumber = a.val ∧ ofNumber m n = ofNat? m n
  stored (a : Residue m) : Guarded.residueBytes a = pure a.toBytes
  ordered (a b : Residue m) : a.compare b = Ord.compare a.toBytes b.toBytes

theorem fixedWidth (m : Nat) [Modulus m] : FixedWidth m where
  width_le_iff := width_le_iff m
  accepted _ := exists_ofBytes_iff
  read {bs a} found := by
    have written := ofBytes_eq_ok_iff.1 found
    refine ⟨?_, written⟩
    rw [toNumber_eq_val, ← toNatBE_toBytes, written, Bytes.toNatBE_eq_ofDigits, Bytes.placeValue]
  wrongLength := ofBytes_of_length_ne
  notReduced total large := by
    rw [ofBytes_of_length total, ofNat?, dif_neg (not_lt.2 large)]
  ofBytes_toBytes := ofBytes_toBytes
  ofNumber_toNumber a := by rw [ofNumber_eq_ofNat?, toNumber_eq_val, ofNat?_val]
  numbers a n := ⟨a.toNumber_eq_val, ofNumber_eq_ofNat? n⟩
  stored := Guarded.residueBytes_eq
  ordered := compare_eq_compare_toBytes

/-- Both fields of either engine are encoded in octets of one width, in order. -/
theorem fields_encoded_in_order (e : Engine) :
    FixedWidth e.groupOrder ∧ FixedWidth e.fieldOrder :=
  ⟨fixedWidth _, fixedWidth _⟩

end Residue

end PairingWire
