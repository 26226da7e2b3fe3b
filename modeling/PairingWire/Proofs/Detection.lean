import PairingWire.Proofs.RoundTrip

/-!
Telling frames from bare native data by the magic word. Every frame starts with it. Native data starts
with it if it starts with a number, least significant octet first, whose lowest four octets spell it:
this can happen to scalars, to target elements and to finite points of the BN engine, and to nothing
else. Points of the BLS engine start with a flag that the magic word does not have.
-/

namespace PairingWire

variable {e : Engine} {bs : Bytes}

def Layout.Native.frontNumber {F : Type} {p : Nat} [CoordinateField F p] (e : Engine)
    (P : Point F) : Option Nat :=
  match e, P with
  | .bn254, .affine x _ => (coefficients x).head?.map Residue.val
  | _, _ => none

namespace Element

/-- The number whose lowest octets a native encoding starts with, if it starts with one. -/
def frontNumber : Element e → Option Nat
  | zp s => some s.val
  | g1 P => Layout.Native.frontNumber e P
  | g2 Q => Layout.Native.frontNumber e Q
  | gt x => some x.c0.b0.c0.val

/-- Whether the native encoding starts with the magic word. -/
def spellsMagic (x : Element e) : Bool := x.frontNumber.any fun n => n % 2 ^ 32 = 0x4542414F

end Element

theorem isLegacy_of_take {n : Nat} (front : bs.take 4 = Bytes.ofNatLE 4 n) :
    isLegacy bs = !decide (n % 2 ^ 32 = 0x4542414F) := by
  have spelled : Bytes.ofNatLE 4 n = Header.magic ↔ n % 2 ^ 32 = 0x4542414F :=
    Bytes.ofNatLE_eq_iff Header.magic
  change decide (bs.take 4 ≠ Header.magic) = _
  rw [front, ← decide_not, decide_eq_decide, ne_eq, spelled]

theorem isLegacy_cons {first : UInt8} {rest : Bytes} (other : first ≠ 0x4F) :
    isLegacy (first :: rest) = true := by
  apply decide_eq_true
  intro same
  exact other (List.cons.inj same).1

theorem isLegacy_toBytes_append (h : Header) (payload : Bytes) :
    isLegacy (h.toBytes ++ payload) = false := rfl

namespace Layout.Native

variable {F : Type} [CoordinateField F e.fieldOrder] [Field F] [LawfulCoordinates F]

theorem four_lt_width (e : Engine) : 4 < Residue.width e.fieldOrder := by cases e <;> decide

theorem four_lt_coordinateWidth : 4 < coordinateWidth F :=
  Nat.lt_of_lt_of_le (four_lt_width e)
    (Nat.le_mul_of_pos_left _ (LawfulCoordinates.degree_pos (F := F)))

theorem isLegacy_encodePoint (P : Point F) :
    isLegacy (encodePoint e P) = !(frontNumber e P).any fun n => n % 2 ^ 32 = 0x4542414F := by
  have inside := four_lt_coordinateWidth (F := F)
  cases e with
  | bn254 =>
      cases P with
      | infinity => exact isLegacy_of_take (n := 0) (take_encodePoint_infinity inside)
      | affine x y =>
          cases split : coefficients x with
          | nil =>
              have count := CoordinateField.length_coefficients x
              rw [split] at count
              exact absurd count (LawfulCoordinates.degree_pos (F := F)).ne
          | cons c cs =>
              have front := take_encodePoint_affine (y := y) split (four_lt_width .bn254).le inside
              rw [frontNumber, split]
              exact isLegacy_of_take front
  | bls12P381 =>
      -- The compression flag keeps the first octet from being the first letter.
      obtain ⟨first, rest, written, flagged⟩ := encodePoint_eq_cons Engine.bls12P381.fieldOrder_le P
      rw [written, frontNumber]
      · apply isLegacy_cons
        rintro rfl
        exact flagged rfl
      · intro x y impossible
        cases impossible

end Layout.Native

namespace Element

def nativeBytes : Element e → Bytes
  | zp s => s.toBytes.reverse
  | g1 P => Layout.Native.encodePoint e P
  | g2 Q => Layout.Native.encodePoint e Q
  | gt x => Layout.Native.encodeTarget x

theorem encode_legacy_bare (x : Element e) (compress : Option Bool) :
    x.encode ⟨.legacy, compress, false⟩ = .ok x.nativeBytes := by
  cases x <;> rfl

theorem isLegacy_nativeBytes (x : Element e) : isLegacy x.nativeBytes = !x.spellsMagic := by
  cases x with
  | zp s =>
      apply isLegacy_of_take
      rw [nativeBytes, Residue.reverse_toBytes]
      exact Bytes.take_ofNatLE (by cases e <;> decide) s.val
  | g1 P => exact Layout.Native.isLegacy_encodePoint P
  | g2 Q => exact Layout.Native.isLegacy_encodePoint Q
  | gt x =>
      apply isLegacy_of_take
      exact Layout.Native.take_encodeTarget x (Layout.Native.four_lt_width e).le

theorem isLegacy_of_encode_framed {x : Element e} {s : Settings} (framed : s.withHeader = true)
    (written : x.encode s = .ok bs) : isLegacy bs = false := by
  obtain ⟨compress, encoded, _, _, _, rfl⟩ := encode_eq_ok_iff.1 written
  rw [if_pos framed]
  exact isLegacy_toBytes_append _ _

/--
Bare native data passes for legacy unless it spells the magic word, whatever compression is asked for,
and frames never do.
-/
theorem legacy_unless_magic_spelled (e : Engine) :
    (∀ (x : Element e) (compress : Option Bool), ∃ bs,
      x.encode ⟨.legacy, compress, false⟩ = .ok bs ∧ isLegacy bs = !x.spellsMagic) ∧
    (∀ (x : Element e) (s : Settings) (bs : Bytes), s.withHeader = true → x.encode s = .ok bs →
      isLegacy bs = false) := by
  constructor
  · intro x compress
    exact ⟨x.nativeBytes, encode_legacy_bare x compress, isLegacy_nativeBytes x⟩
  · intro x s bs framed written
    exact isLegacy_of_encode_framed framed written

def magicScalar : Element .bn254 := zp (.ofNat _ 0x4542414F)

def magicPoint : Element .bn254 :=
  g1 (.affine (Engine.bn254.fq 0x4542414F)
    (Engine.bn254.fq 0x9271fec4d2037b4eb709bfed68499f4e5eaedf3df965ec544e44c751248369d))

theorem magicPoint_isMember : magicPoint.IsMember := by
  apply isMember_iff.2
  exact Engine.valid_of_multiple rfl (by decide) (by decide +kernel)

theorem framed_magicScalar_not_legacy :
    magicScalar.encode {} = .ok ([0x4F, 0x41, 0x42, 0x45, 2, 0xB1, 0x6F, 3, 0] ++
      List.replicate 28 0 ++ [0x45, 0x42, 0x41, 0x4F]) ∧
    isLegacy ([0x4F, 0x41, 0x42, 0x45, 2, 0xB1, 0x6F, 3, 0] ++ List.replicate 28 0 ++
      [0x45, 0x42, 0x41, 0x4F]) = false := by
  have written : magicScalar.encode {} = .ok ([0x4F, 0x41, 0x42, 0x45, 2, 0xB1, 0x6F, 3, 0] ++
      List.replicate 28 0 ++ [0x45, 0x42, 0x41, 0x4F]) := rfl
  exact ⟨written, (legacy_unless_magic_spelled .bn254).2 magicScalar {} _ rfl written⟩

/-- Both are members, and the native encoding of both is the magic word and zeros: no legacy data. -/
theorem magic_natives_not_legacy :
    magicScalar.IsMember ∧ magicPoint.IsMember ∧
    magicScalar.encode ⟨.legacy, none, false⟩ =
      .ok ([0x4F, 0x41, 0x42, 0x45] ++ List.replicate 28 0) ∧
    magicPoint.encode ⟨.legacy, none, false⟩ =
      .ok ([0x4F, 0x41, 0x42, 0x45] ++ List.replicate 28 0) ∧
    isLegacy ([0x4F, 0x41, 0x42, 0x45] ++ List.replicate 28 0) = false := by
  exact ⟨isMember_iff.2 trivial, magicPoint_isMember, rfl, rfl, rfl⟩

end Element

end PairingWire
