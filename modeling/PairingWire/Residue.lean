import PairingWire.Error

/-!
Residues modulo `m`, each held as its least non-negative representative, and their encodings. For a
prime modulus the inverse is the power with exponent `m - 2`.
-/

namespace PairingWire

def bitLength (n : Nat) : Nat := if n = 0 then 0 else n.log2 + 1

/-- The `n`-fold combination of `x`, for `n` of at most `digits` binary digits. -/
@[specialize] def doubleAndAdd {M : Type} (op : M → M → M) (unit x : M) : Nat → Nat → M
  | 0, _ => unit
  | digits + 1, n =>
    let half := doubleAndAdd op unit x digits (n / 2)
    if n % 2 = 0 then op half half else op (op half half) x

@[specialize] def power {M : Type} [One M] [Mul M] (x : M) (n : Nat) : M :=
  doubleAndAdd (· * ·) 1 x (bitLength n) n

abbrev Modulus (m : Nat) : Prop := @NeZero Nat Zero.ofOfNat0 m

theorem Modulus.pos (m : Nat) [nonzero : Modulus m] : 0 < m := Nat.pos_of_ne_zero nonzero.out

structure Residue (m : Nat) where
  val : Nat
  isLt : val < m
  deriving DecidableEq, Repr

namespace Residue

variable {m : Nat}

@[ext] theorem ext {a b : Residue m} (h : a.val = b.val) : a = b := by
  cases a; cases b; cases h; rfl

theorem modulus_pos (a : Residue m) : 0 < m := Nat.lt_of_le_of_lt (Nat.zero_le _) a.isLt

def ofNat (m : Nat) [Modulus m] (n : Nat) : Residue m := ⟨n % m, Nat.mod_lt n (Modulus.pos m)⟩

instance [Modulus m] : Zero (Residue m) := ⟨ofNat m 0⟩

instance [Modulus m] : One (Residue m) := ⟨ofNat m 1⟩

instance : Add (Residue m) := ⟨fun a b => ⟨(a.val + b.val) % m, Nat.mod_lt _ a.modulus_pos⟩⟩

instance : Neg (Residue m) := ⟨fun a => ⟨(m - a.val) % m, Nat.mod_lt _ a.modulus_pos⟩⟩

instance : Sub (Residue m) :=
  ⟨fun a b => ⟨(a.val + (m - b.val)) % m, Nat.mod_lt _ a.modulus_pos⟩⟩

instance : Mul (Residue m) := ⟨fun a b => ⟨a.val * b.val % m, Nat.mod_lt _ a.modulus_pos⟩⟩

/-- Zero has the inverse zero here; `invert` refuses it. -/
instance [Modulus m] : Inv (Residue m) := ⟨fun a => power a (m - 2)⟩

theorem val_zero [Modulus m] : (0 : Residue m).val = 0 := Nat.zero_mod m

theorem val_one [Modulus m] : (1 : Residue m).val = 1 % m := rfl

theorem val_add (a b : Residue m) : (a + b).val = (a.val + b.val) % m := rfl

theorem val_neg (a : Residue m) : (-a).val = (m - a.val) % m := rfl

theorem val_sub (a b : Residue m) : (a - b).val = (a.val + (m - b.val)) % m := rfl

theorem val_mul (a b : Residue m) : (a * b).val = a.val * b.val % m := rfl

theorem eq_zero_iff [Modulus m] (a : Residue m) : a = 0 ↔ a.val = 0 :=
  ⟨fun h => h ▸ val_zero, fun h => ext (h.trans val_zero.symm)⟩

def square (a : Residue m) : Residue m := a * a

def double (a : Residue m) : Residue m := a + a

def isOdd (a : Residue m) : Bool := a.val % 2 = 1

def compare (a b : Residue m) : Ordering := Ord.compare a.val b.val

def invert [Modulus m] (a : Residue m) : Except ArithmeticError (Residue m) :=
  if a = 0 then .error .inverseOfZero else .ok a⁻¹

def div [Modulus m] (a b : Residue m) : Except ArithmeticError (Residue m) :=
  if b = 0 then .error .divisionByZero else .ok (a * b⁻¹)

def ofNat? (m n : Nat) : Except ArithmeticError (Residue m) :=
  if h : n < m then .ok ⟨n, h⟩ else .error .notReduced

theorem ofNat?_val (a : Residue m) : ofNat? m a.val = .ok a := by simp [ofNat?, a.isLt]

theorem ofNat?_eq_ok_iff {n : Nat} {a : Residue m} : ofNat? m n = .ok a ↔ a.val = n := by
  unfold ofNat?
  split
  · rw [Except.ok.injEq, Residue.ext_iff, eq_comm]
  · rename_i h
    refine ⟨fun e => (nomatch e), fun e => absurd (e ▸ a.isLt) h⟩

/-!
Residues as octets of a fixed width, most significant first, and as hexadecimal text. Exactly the
reduced values of the full width are read back from octets.
-/

def width (m : Nat) : Nat := (bitLength m + 7) / 8

def toBytes (a : Residue m) : Bytes := Bytes.ofNatBE (width m) a.val

def ofBytes (m : Nat) (bs : Bytes) : Except ArithmeticError (Residue m) :=
  if bs.length = width m then ofNat? m (Bytes.toNatBE bs)
  else .error (.wrongLength (width m) bs.length)

def toHex (a : Residue m) : String := Hex.ofBytes a.toBytes

def hexDigits : List Char → List Char
  | '0' :: 'x' :: digits => digits
  | digits => digits

/--
Reads digits of either case, at most as many as the full width; fewer are preceded by zeros. A character
that is no digit is reported before the length, and the length before the range.
-/
def ofHex (m : Nat) (s : String) : Except ArithmeticError (Residue m) :=
  let digits := Hex.octets (hexDigits s.toList)
  if digits = [] then .error .invalidHex
  else
    match Hex.toBytes? (Hex.padEven digits) with
    | none => .error .invalidHex
    | some raw =>
      if width m < raw.length then .error (.wrongLength (width m) raw.length)
      else ofBytes m (List.replicate (width m - raw.length) 0 ++ raw)

theorem length_toBytes (a : Residue m) : a.toBytes.length = width m := Bytes.length_ofNatBE _ _

end Residue

end PairingWire
