import Mathlib.NumberTheory.LegendreSymbol.QuadraticChar.Basic
import PairingWire.Proofs.Residue.Field
import PairingWire.Residue.Root

/-!
The quadratic character modulo an odd prime. By Euler's criterion it tells the squares from the other
residues; it is multiplicative, and it takes each of its three values.
-/

namespace PairingWire.Residue

variable {p : Nat} [Modulus p]

theorem isSquare_zero : (0 : Residue p).isSquare = true := by
  simp [isSquare, legendre]

theorem isSquare_iff_pow {a : Residue p} (nonzero : a ≠ 0) :
    a.isSquare = true ↔ a ^ ((p - 1) / 2) = 1 := by
  unfold isSquare legendre
  rw [if_neg nonzero, power_eq_pow]
  split <;> simp_all

theorem legendre_eq_one_iff {a : Residue p} (nonzero : a ≠ 0) :
    legendre a = 1 ↔ a ^ ((p - 1) / 2) = 1 := by
  unfold legendre
  rw [if_neg nonzero, power_eq_pow]
  split <;> simp_all

theorem isSquare_iff_legendre {a : Residue p} (nonzero : a ≠ 0) :
    a.isSquare = true ↔ legendre a = 1 :=
  (isSquare_iff_pow nonzero).trans (legendre_eq_one_iff nonzero).symm

theorem legendre_eq_zero_iff {a : Residue p} : legendre a = 0 ↔ a = 0 := by
  unfold legendre
  split
  · simp_all
  · split <;> simp_all

theorem isSquare_eq_false_iff {a : Residue p} : a.isSquare = false ↔ legendre a = -1 := by
  unfold isSquare legendre
  split
  · simp
  · split <;> simp

theorem isSquare_eq_not {a b : Residue p} (opposite : legendre a * legendre b = -1) :
    a.isSquare = !b.isSquare := by
  have nonzero {c : Residue p} (factor : legendre c ≠ 0) : c ≠ 0 :=
    fun zero => factor (legendre_eq_zero_iff.2 zero)
  have left : legendre a ≠ 0 := fun zero => by rw [zero, zero_mul] at opposite; cases opposite
  have right : legendre b ≠ 0 := fun zero => by rw [zero, mul_zero] at opposite; cases opposite
  cases first : b.isSquare with
  | true =>
      rw [(isSquare_iff_legendre (nonzero right)).1 first, mul_one] at opposite
      exact isSquare_eq_false_iff.2 opposite
  | false =>
      rw [isSquare_eq_false_iff.1 first, mul_neg_one, neg_inj] at opposite
      exact (isSquare_iff_legendre (nonzero left)).2 opposite

variable [OddPrime p]

theorem ringChar_ne_two (p : Nat) [OddPrime p] : ringChar (ZMod p) ≠ 2 := by
  rw [ZMod.ringChar_zmod_n]
  exact OddPrime.ne_two

theorem half_add_half (p : Nat) [OddPrime p] : (p - 1) / 2 + (p - 1) / 2 = p - 1 := by
  have odd := odd_modulus p
  omega

/-- Euler's criterion, without the direction that needs a root. -/
theorem pow_half_eq_one_or (a : Residue p) (nonzero : a ≠ 0) :
    a ^ ((p - 1) / 2) = 1 ∨ a ^ ((p - 1) / 2) = -1 := by
  refine mul_self_eq_one_iff.1 ?_
  rw [← pow_add, half_add_half, pow_card_sub_one nonzero]

theorem isSquare_mul_self (b : Residue p) : (b * b).isSquare = true := by
  by_cases zero : b = 0
  · rw [zero, mul_zero]
    exact isSquare_zero
  · rw [isSquare_iff_pow (mul_ne_zero zero zero), mul_pow, ← pow_add, half_add_half,
      pow_card_sub_one zero]

theorem legendre_mul_self {b : Residue p} (nonzero : b ≠ 0) : legendre (b * b) = 1 :=
  (isSquare_iff_legendre (mul_ne_zero nonzero nonzero)).1 (isSquare_mul_self b)

theorem legendre_eq_quadraticChar (a : Residue p) : legendre a = quadraticChar (ZMod p) a.toZMod := by
  have odd := odd_modulus p
  have half : Fintype.card (ZMod p) / 2 = (p - 1) / 2 := by
    rw [ZMod.card]
    omega
  by_cases zero : a = 0
  · rw [legendre_eq_zero_iff.2 zero, zero, toZMod_zero, quadraticChar_zero]
  · have class_nonzero : a.toZMod ≠ 0 := by
      rw [← toZMod_zero, toZMod_injective.ne_iff]
      exact zero
    have same : a.toZMod ^ ((p - 1) / 2) = 1 ↔ a ^ ((p - 1) / 2) = 1 := by
      rw [← toZMod_pow, ← toZMod_one, toZMod_injective.eq_iff]
    rw [quadraticChar_eq_pow_of_char_ne_two (ringChar_ne_two p) class_nonzero, half, legendre,
      if_neg zero, power_eq_pow]
    simp only [same]

theorem legendre_mul (a b : Residue p) : legendre (a * b) = legendre a * legendre b := by
  simp only [legendre_eq_quadraticChar, toZMod_mul, map_mul]

/-- Euler's criterion: the character is negative exactly where there is no root. -/
theorem isSquare_iff_exists {a : Residue p} : a.isSquare = true ↔ ∃ b, b * b = a := by
  constructor
  · intro square
    have residue : IsSquare a.toZMod := by
      by_contra nonsquare
      have negative := quadraticChar_neg_one_iff_not_isSquare.2 nonsquare
      rw [← legendre_eq_quadraticChar, ← isSquare_eq_false_iff, square] at negative
      cases negative
    obtain ⟨z, root⟩ := residue
    obtain ⟨b, rfl⟩ := toZMod_surjective z
    rw [← toZMod_mul] at root
    exact ⟨b, (toZMod_injective root).symm⟩
  · rintro ⟨b, rfl⟩
    exact isSquare_mul_self b

theorem exists_nonsquare (p : Nat) [Modulus p] [OddPrime p] : ∃ a : Residue p, legendre a = -1 := by
  obtain ⟨z, negative⟩ := quadraticChar_exists_neg_one (ringChar_ne_two p)
  obtain ⟨a, rfl⟩ := toZMod_surjective z
  exact ⟨a, (legendre_eq_quadraticChar a).trans negative⟩

theorem pow_half_of_legendre {a : Residue p} (negative : legendre a = -1) :
    a ^ ((p - 1) / 2) = -1 := by
  have nonzero : a ≠ 0 := by
    intro zero
    rw [legendre_eq_zero_iff.2 zero] at negative
    cases negative
  refine (pow_half_eq_one_or a nonzero).resolve_left fun one => ?_
  rw [(legendre_eq_one_iff nonzero).2 one] at negative
  cases negative

end PairingWire.Residue
