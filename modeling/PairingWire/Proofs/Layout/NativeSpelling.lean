import PairingWire.Proofs.Curve.GroupLaw
import PairingWire.Proofs.Layout.Native

/-!
Which strings the engines read as a point. Each reads what it writes, and the BN engine moreover reads
the point at infinity from the infinity flag beside any abscissa. Nothing else is read: flags and low
bits make up an octet, and the sign is forced, as a point with ordinate zero is not in the subgroup.
-/

namespace PairingWire.Layout.Native

theorem leading_split : ∀ b : UInt8, b &&& 0x80 ≠ 0 → b &&& 0x40 = 0 →
    (b &&& 0x1F) ||| (0x80 ||| if b &&& 0x20 ≠ 0 then 0x20 else 0) = b := by
  decide +kernel

theorem leading_infinity_split : ∀ b : UInt8, b &&& 0x80 ≠ 0 → b &&& 0x40 ≠ 0 → b &&& 0x20 = 0 →
    (b &&& 0x1F) ||| (0x80 ||| 0x40) = b := by
  decide +kernel

theorem trailing_split : ∀ b : UInt8, b &&& 0x40 = 0 →
    (b &&& 0x3F) ||| (0 ||| if b &&& 0x80 ≠ 0 then 0x80 else 0) = b := by
  decide +kernel

theorem trailing_infinity_split : ∀ b : UInt8, b &&& 0xC0 ≠ 0xC0 → b &&& 0x40 ≠ 0 →
    (b &&& 0x3F) ||| 0x40 = b := by
  decide +kernel

theorem trailing_infinity_bits : ∀ b : UInt8, b.toNat < 0x40 →
    (b ||| 0x40) &&& 0x3F = b ∧ (b ||| 0x40) &&& 0xC0 ≠ 0xC0 ∧ (b ||| 0x40) &&& 0x40 ≠ 0 := by
  decide +kernel

section Form

variable {F : Type} {p : Nat} [CoordinateField F p]

theorem takeAbscissa_eq_ok_iff {bs : Bytes} {x : F} :
    takeAbscissa bs = .ok x ↔ putCoordinate x = bs :=
  mapError_eq_ok_iff.trans takeCoordinate_eq_ok_iff

def flaggedInfinity (x : F) : Bytes := (setTop 0x40 (putCoordinate x)).reverse

/--
The strings that stand for a point: what is written for it and, with the BN engine, the infinity flag
beside any abscissa.
-/
inductive Spells [Modulus p] (e : Engine) : Point F → Bytes → Prop
  | written (P : Point F) : Spells e P (encodePoint e P)
  | flagged (x : F) : e = .bn254 → Spells e .infinity (flaggedInfinity x)

variable [Modulus p] {e : Engine} {P : Point F} {bs : Bytes}

theorem Spells.eq_encodePoint (spelled : Spells e P bs) (single : e = .bls12P381 ∨ P ≠ .infinity) :
    encodePoint e P = bs := by
  cases spelled with
  | written => rfl
  | flagged x engine =>
      subst engine
      rcases single with impossible | finite
      · cases impossible
      · exact absurd rfl finite

variable [Field F] {C : Curve F} [LawfulCoordinates F]

/-- The ordinate that is found carries the sign that was asked for, unless it is zero. -/
theorem liftX_sound [OddPrime p] {x : F} {larger : Bool} (found : liftX C x larger = .ok P) :
    ∃ y, P = .affine x y ∧ (y ≠ 0 → signBit .lexicographic y = larger) := by
  unfold liftX at found
  split at found
  · rename_i root _
    cases found
    refine ⟨_, rfl, ?_⟩
    intro nonzero
    by_cases matching : signBit .lexicographic root = larger
    · rw [if_pos matching]
      exact matching
    · rw [if_neg matching] at nonzero ⊢
      rw [signBit_neg .lexicographic (neg_ne_zero.1 nonzero)]
      exact (Bool.not_eq.2 matching)
  · cases found

theorem encodeTop_infinity (c i l : UInt8) :
    encodeTop c i l (.infinity : Point F) =
      (0 ||| (c ||| i)) :: List.replicate (coordinateWidth F - 1) 0 := by
  rw [encodeTop, zeros_eq_cons, setTop]

end Form

variable {F : Type} {p : Nat} [Modulus p] [CoordinateField F p] [Field F] [DecidableEq F]
  [LawfulCoordinates F] [OddPrime p] {e : Engine} {C : Curve F} [C.Smooth] {bs : Bytes} {P : Point F}

theorem encodeTop_of_decodeLeading (odd : Odd C.order) (total : bs.length = coordinateWidth F)
    (valid : C.Valid P) (found : decodeLeading C bs = .ok P) :
    encodeTop 0x80 0x40 0x20 P = bs := by
  cases bs with
  | nil => cases found
  | cons first rest =>
      simp only [decodeLeading] at found
      split at found
      · cases found
      · rename_i compressed
        split at found
        · rename_i infinity
          split at found
          · cases found
          · rename_i canonical
            cases found
            obtain ⟨no_sign, zeros⟩ := not_or.1 canonical
            obtain ⟨low_zero, rest_zeros⟩ := List.cons.inj (Bytes.all_zero_iff.1 (not_not.1 zeros))
            have split := leading_infinity_split first compressed infinity (by simpa using no_sign)
            rw [low_zero] at split
            rw [encodeTop_infinity, split, ← total, rest_zeros]
            simp
        · rename_i finite
          obtain ⟨x, x_read, lifted⟩ := bind_eq_ok_iff.1 found
          obtain ⟨y, rfl, sign⟩ := liftX_sound lifted
          rw [encodeTop, takeAbscissa_eq_ok_iff.1 x_read, setTop,
            sign (Curve.ordinate_ne_zero_of_odd_order odd valid)]
          simp only [decide_eq_true_eq]
          rw [leading_split first compressed (not_not.1 finite)]

theorem spelled_of_decodeTrailing (odd : Odd C.order) (valid : C.Valid P)
    (found : decodeTrailing C bs = .ok P) : Spells .bn254 P bs := by
  unfold decodeTrailing at found
  split at found
  · cases found
  · rename_i last rest reversed
    have bs_eq : bs = (last :: rest).reverse := by rw [← reversed, List.reverse_reverse]
    split at found
    · cases found
    · rename_i flags
      obtain ⟨x, x_read, chosen⟩ := bind_eq_ok_iff.1 found
      have written := takeAbscissa_eq_ok_iff.1 x_read
      split at chosen
      · rename_i infinity
        cases chosen
        -- The abscissa has been read, but the point does not show it.
        have spelling : flaggedInfinity x = bs := by
          rw [flaggedInfinity, written, setTop, trailing_infinity_split last flags infinity, bs_eq]
        rw [← spelling]
        exact .flagged x rfl
      · rename_i finite
        obtain ⟨y, rfl, sign⟩ := liftX_sound chosen
        have spelling : encodePoint .bn254 (.affine x y) = bs := by
          rw [encodePoint, encodeTop, written, setTop,
            sign (Curve.ordinate_ne_zero_of_odd_order odd valid)]
          simp only [decide_eq_true_eq]
          rw [trailing_split last (not_not.1 finite), bs_eq]
        rw [← spelling]
        exact .written _

omit [DecidableEq F] [OddPrime p] [C.Smooth] in
theorem decodeTrailing_flaggedInfinity (spare : p ≤ 0x40 * 256 ^ (Residue.width p - 1)) (x : F) :
    decodeTrailing C (flaggedInfinity x) = .ok .infinity := by
  obtain ⟨b, rest, split, bound⟩ := putCoordinate_eq_cons spare x
  obtain ⟨low, flags, infinity⟩ := trailing_infinity_bits b bound
  rw [decodeTrailing, flaggedInfinity, List.reverse_reverse, split, setTop]
  simp only [low, if_neg flags]
  rw [← split, takeAbscissa_putCoordinate, ok_bind, if_pos infinity]

theorem decodePoint_eq_ok_iff (spare : p ≤ e.flagLimit * 256 ^ (Residue.width p - 1))
    (odd : Odd C.order) : decodePoint e C bs = .ok P ↔ C.Valid P ∧ Spells e P bs := by
  constructor
  · intro found
    have valid := valid_of_decodePoint found
    have total := length_of_decodePoint found
    refine ⟨valid, ?_⟩
    rw [decodePoint_eq, if_neg (not_lt.2 total.ge), List.take_of_length_le total.le] at found
    obtain ⟨Q, read, checked⟩ := bind_eq_ok_iff.1 found
    rw [if_neg (not_not.2 total)] at checked
    obtain ⟨rfl, _⟩ := Curve.check_eq_ok_iff.1 checked
    cases e with
    | bn254 => exact spelled_of_decodeTrailing odd valid read
    | bls12P381 =>
        have written := encodeTop_of_decodeLeading odd total valid read
        rw [← written]
        exact .written Q
  · rintro ⟨valid, spelled⟩
    cases spelled with
    | written => exact decodePoint_encodePoint spare valid
    | flagged x engine =>
        subst engine
        have total : (flaggedInfinity x).length = coordinateWidth F := by
          rw [flaggedInfinity, List.length_reverse, length_setTop, length_putCoordinate]
        have read : readPoint .bn254 C (flaggedInfinity x) = .ok .infinity :=
          decodeTrailing_flaggedInfinity spare x
        rw [decodePoint_eq, if_neg (not_lt.2 total.ge), List.take_of_length_le total.le, read,
          ok_bind, if_neg (not_not.2 total), Curve.check_of_valid valid]

end PairingWire.Layout.Native
