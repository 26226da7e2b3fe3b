import Mathlib.Tactic.Ring
import PairingWire.Proofs.Residue.Character

/-!
The search for a root modulo any odd prime. A non-square is found among the residues from 2 on. With
it, each round keeps the equation between root and error and lowers the power of 2 that bounds the
order of the error, so that for a square the error becomes 1 after at most as many rounds as 2 divides
`p - 1`.
-/

namespace PairingWire.Residue

section Twos

theorem two_pow_twosIn_dvd (fuel n : Nat) : 2 ^ twosIn fuel n ∣ n := by
  induction fuel generalizing n with
  | zero => exact one_dvd n
  | succ fuel ih =>
      rw [twosIn]
      split
      · rename_i even
        have halved := Nat.mul_dvd_mul_left 2 (ih (n / 2))
        rwa [Nat.mul_div_cancel' (Nat.dvd_of_mod_eq_zero even), ← Nat.pow_succ'] at halved
      · exact one_dvd n

theorem odd_div_two_pow_twosIn {fuel n : Nat} (positive : n ≠ 0) (bound : n < 2 ^ fuel) :
    n / 2 ^ twosIn fuel n % 2 = 1 := by
  induction fuel generalizing n with
  | zero => omega
  | succ fuel ih =>
      rw [twosIn]
      split
      · rename_i even
        rw [Nat.pow_succ', ← Nat.div_div_eq_div_mul]
        exact ih (by omega) (lt_two_pow_div_two bound)
      · rename_i odd
        rw [Nat.pow_zero, Nat.div_one]
        exact Nat.mod_two_ne_zero.1 odd

variable (p : Nat)

theorem two_pow_twoAdicity_mul_oddPart : 2 ^ twoAdicity p * oddPart p = p - 1 :=
  Nat.mul_div_cancel' (two_pow_twosIn_dvd _ _)

variable [OddPrime p]

theorem odd_oddPart : oddPart p % 2 = 1 := by
  have large := two_lt_modulus p
  exact odd_div_two_pow_twosIn (by omega) (lt_two_pow_bitLength (p - 1))

theorem twoAdicity_pos : 0 < twoAdicity p := by
  have product := two_pow_twoAdicity_mul_oddPart p
  have part := odd_oddPart p
  have modulus := odd_modulus p
  by_contra none
  rw [Nat.eq_zero_of_not_pos none, Nat.pow_zero, Nat.one_mul] at product
  omega

theorem oddPart_mul_two_pow : oddPart p * 2 ^ (twoAdicity p - 1) = (p - 1) / 2 := by
  have product := two_pow_twoAdicity_mul_oddPart p
  rw [← Nat.sub_add_cancel (twoAdicity_pos p), Nat.pow_succ] at product
  have rearranged : oddPart p * 2 ^ (twoAdicity p - 1) * 2 = p - 1 := by
    rw [← product]
    ring
  omega

end Twos

variable {p : Nat} [Modulus p]

theorem squareTimes_eq_pow (k : Nat) (a : Residue p) : squareTimes k a = a ^ 2 ^ k := by
  induction k generalizing a with
  | zero => rw [squareTimes, pow_zero, pow_one]
  | succ k ih => rw [squareTimes, ih, ← sq, ← pow_mul, Nat.pow_succ']

/-- The least number of squarings that take `t` to 1. -/
def TakenToOne (t : Residue p) (i : Nat) : Prop := t ^ 2 ^ i = 1 ∧ ∀ j < i, t ^ 2 ^ j ≠ 1

theorem takenToOne_zero_iff {t : Residue p} : TakenToOne t 0 ↔ t = 1 := by
  simp [TakenToOne]

theorem takenToOne_succ_iff {t : Residue p} {i : Nat} :
    TakenToOne t (i + 1) ↔ t ≠ 1 ∧ TakenToOne (t * t) i := by
  have shift (j : Nat) : (t * t) ^ 2 ^ j = t ^ 2 ^ (j + 1) := by
    rw [← sq, ← pow_mul, Nat.pow_succ']
  simp only [TakenToOne, shift, Nat.forall_lt_succ_left, pow_zero, pow_one]
  exact and_left_comm

theorem squaringsToOne_eq_some_iff {bound i : Nat} {t : Residue p} :
    squaringsToOne bound t = some i ↔ i < bound ∧ TakenToOne t i := by
  induction bound generalizing t i with
  | zero => simp [squaringsToOne]
  | succ bound ih =>
      by_cases one : t = 1
      · rw [squaringsToOne, if_pos one, Option.some.injEq]
        cases i with
        | zero => simp [takenToOne_zero_iff, one]
        | succ i => simp [takenToOne_succ_iff, one]
      · rw [squaringsToOne, if_neg one, Option.map_eq_some_iff]
        cases i with
        | zero => simp [takenToOne_zero_iff, one]
        | succ i => simp [takenToOne_succ_iff, one, ih]

theorem exists_takenToOne {t : Residue p} {k : Nat} (total : t ^ 2 ^ k = 1) :
    ∃ i ≤ k, TakenToOne t i := by
  classical
  have some_power : ∃ i, t ^ 2 ^ i = 1 := ⟨k, total⟩
  exact ⟨Nat.find some_power, Nat.find_min' some_power total, Nat.find_spec some_power,
    fun j earlier => Nat.find_min some_power earlier⟩

section NonSquare

theorem nonSquareFrom_eq {fuel k : Nat} {z : Residue p} (reached : k < fuel)
    (negative : legendre (z + (k : Residue p)) = -1) :
    ∃ n ≤ k, nonSquareFrom fuel z = z + (n : Residue p) ∧ legendre (z + (n : Residue p)) = -1 ∧
      ∀ j < n, legendre (z + (j : Residue p)) ≠ -1 := by
  induction fuel generalizing z k with
  | zero => cases reached
  | succ fuel ih =>
      rw [nonSquareFrom]
      split
      · rename_i here
        exact ⟨0, Nat.zero_le k, by simp, by simpa using here, by simp⟩
      · rename_i elsewhere
        have later : k ≠ 0 := by
          rintro rfl
          exact elsewhere (by simpa using negative)
        obtain ⟨k, rfl⟩ := Nat.exists_eq_succ_of_ne_zero later
        -- One place ahead everything is counted from `z + 1`.
        have shift (j : Nat) : z + 1 + (j : Residue p) = z + ((j + 1 : Nat) : Residue p) := by
          rw [Nat.cast_succ]
          ring
        rw [← shift] at negative
        obtain ⟨n, before, found, first, least⟩ := ih (Nat.lt_of_succ_lt_succ reached) negative
        refine ⟨n + 1, Nat.succ_le_succ before, found.trans (shift n), shift n ▸ first, ?_⟩
        intro j earlier
        cases j with
        | zero => simpa using elsewhere
        | succ j => exact shift j ▸ least j (Nat.lt_of_succ_lt_succ earlier)

variable [OddPrime p]

theorem leastNonSquare_eq (p : Nat) [Modulus p] [OddPrime p] :
    ∃ n < p, leastNonSquare p = ofNat p (2 + n) ∧ legendre (ofNat p (2 + n)) = -1 ∧
      ∀ j < n, legendre (ofNat p (2 + j)) ≠ -1 := by
  obtain ⟨a, negative⟩ := exists_nonsquare p
  have from_two (j : Nat) : ofNat p 2 + (j : Residue p) = ofNat p (2 + j) := by
    rw [← natCast_eq_ofNat, ← natCast_eq_ofNat, Nat.cast_add]
  have offset : ofNat p 2 + ((a - ofNat p 2).val : Residue p) = a := by
    rw [natCast_eq_ofNat, ofNat_val, add_sub_cancel]
  rw [← offset] at negative
  obtain ⟨n, before, found, first, least⟩ := nonSquareFrom_eq (a - ofNat p 2).isLt negative
  simp only [from_two] at found first least
  exact ⟨n, before.trans_lt (a - ofNat p 2).isLt, found, first, least⟩

theorem legendre_leastNonSquare : legendre (leastNonSquare p) = -1 := by
  obtain ⟨n, _, found, negative, _⟩ := leastNonSquare_eq p
  rw [found, negative]

end NonSquare

namespace RootSearch

/-- What holds of a square `a` whenever a round begins. The order of `unity` is `2 ^ level`. -/
structure Invariant (a : Residue p) (s : RootSearch p) : Prop where
  level_pos : 0 < s.level
  root_square : s.root * s.root = a * s.error
  unity_half : s.unity ^ 2 ^ (s.level - 1) = -1
  error_half : s.error ^ 2 ^ (s.level - 1) = 1

/-- What `n` rounds make of a search, each with an error that is not 1 and of an order below the level. -/
inductive Rounds : Nat → RootSearch p → RootSearch p → Prop
  | done (s : RootSearch p) : Rounds 0 s s
  | round {n i : Nat} {s s' : RootSearch p} : s.error ≠ 1 → i < s.level → TakenToOne s.error i →
      Rounds n (s.lower i) s' → Rounds (n + 1) s s'

variable {a : Residue p} {s s' : RootSearch p} {n i : Nat}

theorem run_of_error_one (one : s.error = 1) : s.run = .ok s.root := by
  rw [run, if_pos one]

theorem run_of_takenToOne (other : s.error ≠ 1) (below : i < s.level) (taken : TakenToOne s.error i) :
    s.run = (s.lower i).run := by
  have found := squaringsToOne_eq_some_iff.2 ⟨below, taken⟩
  rw [run, if_neg other]
  split
  · rename_i none
    rw [found] at none
    cases none
  · rename_i j same
    rw [found] at same
    cases same
    rfl

theorem Rounds.run_eq (rounds : Rounds n s s') : s.run = s'.run := by
  induction rounds with
  | done => rfl
  | round other below taken _ ih => rw [run_of_takenToOne other below taken, ih]

theorem Rounds.level_add_le (rounds : Rounds n s s') : s'.level + n ≤ s.level := by
  induction rounds with
  | done => exact le_rfl
  | @round n i s s' _ below _ _ ih =>
      have lowered : (s.lower i).level = i := rfl
      omega

variable [OddPrime p]

theorem start_invariant (square : legendre a = 1) : Invariant a (start a) := by
  have nonzero : a ≠ 0 := by
    rintro rfl
    rw [legendre_eq_zero_iff.2 rfl] at square
    cases square
  have odd := odd_oddPart p
  refine ⟨twoAdicity_pos p, ?_, ?_, ?_⟩
  · have exponent : (oddPart p + 1) / 2 + (oddPart p + 1) / 2 = oddPart p + 1 := by omega
    simp only [start, power_eq_pow]
    rw [← pow_add, exponent, pow_succ']
  · simp only [start, power_eq_pow]
    rw [← pow_mul, oddPart_mul_two_pow, pow_half_of_legendre legendre_leastNonSquare]
  · simp only [start, power_eq_pow]
    rw [← pow_mul, oddPart_mul_two_pow]
    exact (legendre_eq_one_iff nonzero).1 square

theorem pow_eq_neg_one_of_takenToOne {t : Residue p} (taken : TakenToOne t (i + 1)) :
    t ^ 2 ^ i = -1 := by
  have root : t ^ 2 ^ i * t ^ 2 ^ i = 1 := by
    rw [← sq, ← pow_mul, ← Nat.pow_succ]
    exact taken.1
  exact (mul_self_eq_one_iff.1 root).resolve_left (taken.2 i (Nat.lt_succ_self i))

theorem Invariant.lower (inv : Invariant a s) (other : s.error ≠ 1) (below : i < s.level)
    (taken : TakenToOne s.error i) : Invariant a (s.lower i) := by
  have positive : i ≠ 0 := by
    rintro rfl
    exact other (takenToOne_zero_iff.1 taken)
  obtain ⟨i, rfl⟩ := Nat.exists_eq_succ_of_ne_zero positive
  have factor : squareTimes (s.level - (i + 1) - 1) s.unity *
      squareTimes (s.level - (i + 1) - 1) s.unity = s.unity ^ 2 ^ (s.level - (i + 1)) := by
    rw [squareTimes_eq_pow, ← sq, ← pow_mul, ← Nat.pow_succ]
    congr 2
    omega
  have factor_half : (s.unity ^ 2 ^ (s.level - (i + 1))) ^ 2 ^ i = -1 := by
    rw [← pow_mul, ← Nat.pow_add, ← inv.unity_half]
    congr 2
    omega
  refine ⟨Nat.succ_pos i, ?_, ?_, ?_⟩
  · simp only [RootSearch.lower]
    rw [mul_mul_mul_comm, inv.root_square, mul_assoc]
  · simp only [RootSearch.lower, factor, Nat.succ_eq_add_one, Nat.add_sub_cancel]
    exact factor_half
  · simp only [RootSearch.lower, factor, Nat.succ_eq_add_one, Nat.add_sub_cancel]
    rw [mul_pow, factor_half, pow_eq_neg_one_of_takenToOne taken, neg_mul_neg, one_mul]

theorem Rounds.invariant (rounds : Rounds n s s') (inv : Invariant a s) : Invariant a s' := by
  induction rounds with
  | done => exact inv
  | round other below taken _ ih => exact ih (inv.lower other below taken)

/-- The rounds end with the error 1. -/
theorem Invariant.exists_rounds (inv : Invariant a s) :
    ∃ n s', Rounds n s s' ∧ s'.error = 1 := by
  -- The induction is on the level; the invariant bounds the order of the error by it.
  induction level : s.level using Nat.strong_induction_on generalizing s with
  | _ m ih =>
      by_cases one : s.error = 1
      · exact ⟨0, s, .done s, one⟩
      · obtain ⟨i, bound, taken⟩ := exists_takenToOne inv.error_half
        have below : i < s.level := bound.trans_lt (Nat.sub_lt inv.level_pos Nat.one_pos)
        obtain ⟨n, s', rounds, ended⟩ := ih i (level ▸ below) (inv.lower one below taken) rfl
        exact ⟨n + 1, s', .round one below taken rounds, ended⟩

theorem Invariant.root_mul_self (inv : Invariant a s) (one : s.error = 1) : s.root * s.root = a := by
  rw [inv.root_square, one, mul_one]

end RootSearch

variable [OddPrime p]

theorem tonelliShanks_rounds {a : Residue p} (square : legendre a = 1) :
    ∃ n ≤ twoAdicity p, ∃ s : RootSearch p, RootSearch.Rounds n (.start a) s ∧ s.error = 1 ∧
      tonelliShanks a = .ok s.root ∧ s.root * s.root = a := by
  have inv := RootSearch.start_invariant square
  obtain ⟨n, s, rounds, one⟩ := inv.exists_rounds
  have level : s.level + n ≤ twoAdicity p := rounds.level_add_le
  refine ⟨n, by omega, s, rounds, one, ?_, (rounds.invariant inv).root_mul_self one⟩
  rw [tonelliShanks, rounds.run_eq, RootSearch.run_of_error_one one]

end PairingWire.Residue
