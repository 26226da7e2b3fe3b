import Mathlib.Tactic.TFAE
import PairingWire.Proofs.Primality
import PairingWire.Proofs.Residue.Search
import PairingWire.Proofs.Residue.Square

/-!
Square roots modulo any odd prime: the power that serves primes that are 3 modulo 4, and the search
elsewhere. A root is found exactly for the squares, and its verification never fails.
-/

namespace PairingWire.Residue

variable {p : Nat} [Modulus p] [OddPrime p]

theorem exists_rootCandidate {a : Residue p} (square : legendre a = 1) :
    ∃ root, rootCandidate a = .ok root ∧ root * root = a := by
  unfold rootCandidate
  split
  · rename_i three
    have : BlumPrime p := { mod_four := three }
    have nonnegative : a.isSquare = true := by
      rw [isSquare, square]
      rfl
    refine ⟨_, rfl, ?_⟩
    rw [power_eq_pow]
    exact pow_quarter_mul_self nonnegative
  · obtain ⟨_, _, s, _, _, found, verified⟩ := tonelliShanks_rounds square
    exact ⟨s.root, found, verified⟩

theorem exists_sqrt_of_isSquare {a : Residue p} (square : a.isSquare = true) :
    ∃ r, a.sqrt = .ok r := by
  rw [sqrt_eq]
  split
  · exact ⟨0, rfl⟩
  · rename_i nonzero
    have character := (isSquare_iff_legendre nonzero).1 square
    obtain ⟨root, found, verified⟩ := exists_rootCandidate character
    rw [if_neg (not_not.2 character), found, ok_bind, if_pos verified]
    exact ⟨root, rfl⟩

theorem exists_sqrt_iff_isSquare {a : Residue p} : (∃ r, a.sqrt = .ok r) ↔ a.isSquare = true := by
  constructor
  · rintro ⟨r, found⟩
    rw [← mul_self_of_sqrt found]
    exact isSquare_mul_self r
  · exact exists_sqrt_of_isSquare

theorem sqrt_mul_self_eq (x : Residue p) : (x * x).sqrt = .ok x ∨ (x * x).sqrt = .ok (-x) := by
  obtain ⟨r, found⟩ := exists_sqrt_of_isSquare (isSquare_mul_self x)
  rw [found]
  rcases mul_self_eq_mul_self_iff.1 (mul_self_of_sqrt found) with same | opposite
  · exact .inl (congrArg _ same)
  · exact .inr (congrArg _ opposite)

/--
Modulo any odd prime a root is found exactly for the residues with a root, which are those with a
character that is not negative, and all others are refused as such. The character is multiplicative and
vanishes at zero alone. The search for a non-square ends at the least one from 2 on, the search for a
root of a square ends within the rounds that the exponent of 2 in `p - 1` allows, and what is found
always passes the verification.
-/
theorem sqrt_decides_squares (p : Nat) [Modulus p] [OddPrime p] :
    (∀ a : Residue p,
      [∃ r, a.sqrt = .ok r, a.isSquare = true, 0 ≤ a.legendre, ∃ b, b * b = a].TFAE ∧
      (∀ r, a.sqrt = .ok r → r * r = a) ∧
      ((¬∃ b, b * b = a) → a.sqrt = .error .notASquare) ∧
      (a.legendre = 0 ↔ a = 0)) ∧
    (∀ x : Residue p, (x * x).sqrt = .ok x ∨ (x * x).sqrt = .ok (-x)) ∧
    (∀ a b : Residue p, (a * b).legendre = a.legendre * b.legendre) ∧
    (∃ n < p, leastNonSquare p = ofNat p (2 + n) ∧ (ofNat p (2 + n)).legendre = -1 ∧
      ∀ k < n, (ofNat p (2 + k)).legendre ≠ -1) ∧
    (∀ a : Residue p, a.legendre = 1 →
      (∃ n ≤ twoAdicity p, ∃ s, RootSearch.Rounds n (.start a) s ∧ s.error = 1 ∧
        tonelliShanks a = .ok s.root) ∧
      ∃ root, a.rootCandidate = .ok root ∧ root * root = a) := by
  refine ⟨?_, sqrt_mul_self_eq, legendre_mul, leastNonSquare_eq p, ?_⟩
  · intro a
    refine ⟨?_, fun r found => mul_self_of_sqrt found, ?_, legendre_eq_zero_iff⟩
    · tfae_have 1 ↔ 2 := exists_sqrt_iff_isSquare
      tfae_have 2 ↔ 3 := decide_eq_true_iff
      tfae_have 2 ↔ 4 := isSquare_iff_exists
      tfae_finish
    · intro rootless
      rw [← isSquare_iff_exists, Bool.not_eq_true] at rootless
      exact sqrt_of_not_isSquare rootless
  · intro a square
    obtain ⟨n, bound, s, rounds, one, found, _⟩ := tonelliShanks_rounds square
    exact ⟨⟨n, bound, s, rounds, one, found⟩, exists_rootCandidate square⟩

theorem sqrt_decides_engine_fields :
    (OddPrime Engine.bn254.fieldOrder ∧ (-1 : Fq .bn254).sqrt = .error .notASquare ∧
      ((2 * 2 : Fq .bn254).sqrt = .ok 2 ∨ (2 * 2 : Fq .bn254).sqrt = .ok (-2))) ∧
    (OddPrime Engine.bn254.groupOrder ∧ (ofNat _ 5 : Fr .bn254).sqrt = .error .notASquare ∧
      ((2 * 2 : Fr .bn254).sqrt = .ok 2 ∨ (2 * 2 : Fr .bn254).sqrt = .ok (-2))) ∧
    (OddPrime Engine.bls12P381.fieldOrder ∧ (-1 : Fq .bls12P381).sqrt = .error .notASquare ∧
      ((2 * 2 : Fq .bls12P381).sqrt = .ok 2 ∨ (2 * 2 : Fq .bls12P381).sqrt = .ok (-2))) ∧
    (OddPrime Engine.bls12P381.groupOrder ∧ (ofNat _ 5 : Fr .bls12P381).sqrt = .error .notASquare ∧
      ((2 * 2 : Fr .bls12P381).sqrt = .ok 2 ∨ (2 * 2 : Fr .bls12P381).sqrt = .ok (-2))) := by
  have nonsquares : (-1 : Fq .bn254).isSquare = false ∧ (ofNat _ 5 : Fr .bn254).isSquare = false ∧
      (-1 : Fq .bls12P381).isSquare = false ∧ (ofNat _ 5 : Fr .bls12P381).isSquare = false := by
    decide +kernel
  obtain ⟨first, second, third, fourth⟩ := nonsquares
  have rootless {p : Nat} [Modulus p] [OddPrime p] {a : Residue p} (nonsquare : a.isSquare = false) :
      a.sqrt = .error .notASquare := by
    obtain ⟨decided, _⟩ := sqrt_decides_squares p
    obtain ⟨equivalent, _, refused, _⟩ := decided a
    refine refused fun root => ?_
    have square : a.isSquare = true := (equivalent.out 1 3).2 root
    rw [square] at nonsquare
    cases nonsquare
  exact ⟨⟨inferInstance, rootless first, (sqrt_decides_squares _).2.1 2⟩,
    ⟨inferInstance, rootless second, (sqrt_decides_squares _).2.1 2⟩,
    ⟨inferInstance, rootless third, (sqrt_decides_squares _).2.1 2⟩,
    ⟨inferInstance, rootless fourth, (sqrt_decides_squares _).2.1 2⟩⟩

end PairingWire.Residue
