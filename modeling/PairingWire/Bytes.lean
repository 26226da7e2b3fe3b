/-!
Octet strings as numbers, least or most significant octet first, and as hexadecimal text. Reading a
string and writing the number with the string's length gives the string back.
-/

namespace PairingWire

abbrev Bytes := List UInt8

namespace Bytes

def toNatLE : Bytes → Nat
  | [] => 0
  | b :: bs => b.toNat + 256 * toNatLE bs

/-- Exactly `width` octets, least significant first; higher digits are dropped. -/
def ofNatLE : Nat → Nat → Bytes
  | 0, _ => []
  | width + 1, n => UInt8.ofNat n :: ofNatLE width (n / 256)

def toNatBE (bs : Bytes) : Nat := toNatLE bs.reverse

def ofNatBE (width n : Nat) : Bytes := (ofNatLE width n).reverse

@[simp] theorem length_ofNatLE (width n : Nat) : (ofNatLE width n).length = width := by
  induction width generalizing n with
  | zero => rfl
  | succ width ih => simp [ofNatLE, ih]

@[simp] theorem length_ofNatBE (width n : Nat) : (ofNatBE width n).length = width := by
  simp [ofNatBE]

theorem ofNatLE_toNatLE (bs : Bytes) : ofNatLE bs.length (toNatLE bs) = bs := by
  induction bs with
  | nil => rfl
  | cons b bs ih =>
    have hb := b.toNat_lt
    have hdiv : (b.toNat + 256 * toNatLE bs) / 256 = toNatLE bs := by omega
    have hhead : UInt8.ofNat (b.toNat + 256 * toNatLE bs) = b := by
      apply UInt8.toNat_inj.1
      rw [UInt8.toNat_ofNat']
      omega
    simp [toNatLE, ofNatLE, hdiv, hhead, ih]

theorem ofNatBE_toNatBE (bs : Bytes) : ofNatBE bs.length (toNatBE bs) = bs := by
  have h := ofNatLE_toNatLE bs.reverse
  rw [List.length_reverse] at h
  simp [toNatBE, ofNatBE, h]

end Bytes

/-! Octets are written as two lower-case digits each; digits are read in either case. -/

namespace Hex

def digit? (c : Char) : Option Nat :=
  if '0' ≤ c ∧ c ≤ '9' then some (c.toNat - '0'.toNat)
  else if 'a' ≤ c ∧ c ≤ 'f' then some (c.toNat - 'a'.toNat + 10)
  else if 'A' ≤ c ∧ c ≤ 'F' then some (c.toNat - 'A'.toNat + 10)
  else none

def digit (n : Nat) : Char :=
  if n < 10 then Char.ofNat ('0'.toNat + n) else Char.ofNat ('a'.toNat + (n - 10))

def ofByte (b : UInt8) : List Char := [digit (b.toNat / 16), digit (b.toNat % 16)]

def ofBytes (bs : Bytes) : String := String.ofList (bs.flatMap ofByte)

def value (digits : List Nat) : Nat := digits.foldl (fun n d => 16 * n + d) 0

def digits? (cs : List Char) : Option (List Nat) := cs.mapM digit?

/-- The UTF-8 octets of a text, each as the character with its number. -/
def octets (cs : List Char) : List Char :=
  cs.flatMap fun c => (String.utf8EncodeChar c).map Char.ofUInt8

def padEven (digits : List Char) : List Char :=
  if digits.length % 2 = 1 then '0' :: digits else digits

def toBytes? : List Char → Option Bytes
  | [] => some []
  | h :: l :: rest => do
    let high ← digit? h
    let low ← digit? l
    let bs ← toBytes? rest
    return UInt8.ofNat (16 * high + low) :: bs
  | [_] => none

end Hex

end PairingWire
