import Mathlib.Tactic.LinearCombination
import PairingWire.Proofs.Outcome
import PairingWire.Proofs.Residue.Character

/-!
Square roots modulo a prime that is 3 modulo 4. The character decides whether a root exists, a root
is found exactly then, and of two opposite residues one is a square.
-/

namespace PairingWire.Residue

variable {p : Nat} [Modulus p]

theorem run_error {s : RootSearch p} {err : CodecError} (failed : s.run = .error err) :
    err = .notASquare := by
  induction level : s.level using Nat.strong_induction_on generalizing s with
  | _ n ih =>
      rw [RootSearch.run] at failed
      split at failed
      · cases failed
      · split at failed
        · cases failed
          rfl
        · rename_i i found
          exact ih i (level ▸ squaringsToOne_lt found) failed rfl

def rootCandidate (a : Residue p) : Except CodecError (Residue p) :=
  if p % 4 = 3 then .ok (power a ((p + 1) / 4)) else tonelliShanks a

theorem sqrt_eq (a : Residue p) :
    a.sqrt =
      if a = 0 then .ok 0
      else if legendre a ≠ 1 then .error .notASquare
      else rootCandidate a >>= fun root => if root * root = a then .ok root else .error .notASquare := by
  unfold sqrt rootCandidate
  split
  · rfl
  · split
    · rfl
    · split <;> rfl

theorem mul_self_of_sqrt {a x : Residue p} (found : a.sqrt = .ok x) : x * x = a := by
  rw [sqrt_eq] at found
  split at found
  · rename_i zero
    cases found
    rw [zero]
    exact mul_zero 0
  · split at found
    · cases found
    · obtain ⟨root, _, verified⟩ := bind_eq_ok_iff.1 found
      split at verified
      · cases verified
        assumption
      · cases verified

theorem sqrt_error {a : Residue p} {err : CodecError} (failed : a.sqrt = .error err) :
    err = .notASquare := by
  rw [sqrt_eq] at failed
  split at failed
  · cases failed
  · split at failed
    · cases failed
      rfl
    · rcases bind_eq_error_iff.1 failed with search | ⟨root, _, refused⟩
      · unfold rootCandidate at search
        split at search
        · cases search
        · exact run_error search
      · split at refused
        · cases refused
        · cases refused
          rfl

theorem sqrt_of_not_isSquare [OddPrime p] {a : Residue p} (nonsquare : a.isSquare = false) :
    a.sqrt = .error .notASquare := by
  cases outcome : a.sqrt with
  | error err => rw [sqrt_error outcome]
  | ok x =>
      rw [← mul_self_of_sqrt outcome, isSquare_mul_self] at nonsquare
      cases nonsquare

section Blum

variable [BlumPrime p]

theorem modulus_mod_four (p : Nat) [BlumPrime p] : p % 4 = 3 := BlumPrime.mod_four

/-- The root that is returned squares to the residue, so the verification never refuses it. -/
theorem pow_quarter_mul_self {a : Residue p} (square : a.isSquare = true) :
    a ^ ((p + 1) / 4) * a ^ ((p + 1) / 4) = a := by
  have mod_four := modulus_mod_four p
  by_cases zero : a = 0
  · have exponent : (p + 1) / 4 ≠ 0 := by omega
    rw [zero, zero_pow exponent, mul_zero]
  · have exponent : (p + 1) / 4 + (p + 1) / 4 = (p - 1) / 2 + 1 := by omega
    rw [← pow_add, exponent, pow_succ, (isSquare_iff_pow zero).1 square, one_mul]

theorem sqrt_of_isSquare {a : Residue p} (square : a.isSquare = true) :
    a.sqrt = .ok (a ^ ((p + 1) / 4)) := by
  have mod_four := modulus_mod_four p
  rw [sqrt_eq]
  split
  · rename_i zero
    have exponent : (p + 1) / 4 ≠ 0 := by omega
    rw [zero, zero_pow exponent]
  · rename_i nonzero
    have character : legendre a = 1 :=
      (legendre_eq_one_iff nonzero).2 ((isSquare_iff_pow nonzero).1 square)
    rw [if_neg (not_not.2 character), rootCandidate, if_pos mod_four, power_eq_pow, ok_bind,
      if_pos (pow_quarter_mul_self square)]

theorem legendre_neg_one : legendre (-1 : Residue p) = -1 := by
  have mod_four := modulus_mod_four p
  have odd : Odd ((p - 1) / 2) := Nat.odd_iff.2 (by omega)
  rw [← isSquare_eq_false_iff, Bool.eq_false_iff, ne_eq, isSquare_iff_pow (neg_ne_zero.2 one_ne_zero),
    odd.neg_one_pow]
  intro same
  apply two_ne_zero_of_odd (p := p)
  linear_combination -same

theorem isSquare_neg_eq_not {a : Residue p} (nonzero : a ≠ 0) : (-a).isSquare = !a.isSquare := by
  apply isSquare_eq_not
  rw [← legendre_mul, neg_mul, ← neg_one_mul, legendre_mul, legendre_neg_one, legendre_mul_self nonzero,
    mul_one]

theorem isSquare_neg {a : Residue p} (nonsquare : a.isSquare = false) : (-a).isSquare = true := by
  have nonzero : a ≠ 0 := by
    rintro rfl
    rw [isSquare_zero] at nonsquare
    cases nonsquare
  rw [isSquare_neg_eq_not nonzero, nonsquare]
  rfl

theorem eq_zero_of_sum_squares {a b : Residue p} (sum : a * a + b * b = 0) : a = 0 := by
  by_contra nonzero
  have product : a * a ≠ 0 := mul_ne_zero nonzero nonzero
  have opposite : b * b = -(a * a) := by linear_combination sum
  have only := isSquare_neg_eq_not product
  rw [← opposite, isSquare_mul_self, isSquare_mul_self] at only
  cases only

end Blum

end PairingWire.Residue
