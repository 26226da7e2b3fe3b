import Mathlib.GroupTheory.OrderOfElement
import PairingWire.Proofs.Residue.Root

/-!
The search for a root as two nested loops, with every place that they pass through. A round squares its
error until it is 1, and gives up when the count of squarings reaches the level; otherwise the count is the
next level. For every residue the loops end, no counter runs below zero, and they give up exactly where
there is no root other than zero.
-/

namespace PairingWire.Residue

namespace RootSearch

inductive Place (p : Nat)
  -- At the head of a round.
  | head (s : RootSearch p)
  -- In a round, after `count` squarings of its error.
  | squared (s : RootSearch p) (count : Nat) (power : Residue p)
  | found (root : Residue p)
  | exhausted
  -- More has been taken from a counter than it held.
  | underflow

namespace Place

variable {p : Nat} [Modulus p]

/-- One step. What is left of the level after the count and one more is how often the unity is squared. -/
def next : Place p → Place p
  | head s => if s.error = 1 then found s.root else squared s 0 s.error
  | squared s count power =>
    if power = 1 then if s.level < count + 1 then underflow else head (s.lower count)
    else if count + 1 = s.level then exhausted
    else squared s (count + 1) (power * power)
  | found root => found root
  | exhausted => exhausted
  | underflow => underflow

def outcome : Place p → Option (Except CodecError (Residue p))
  | found root => some (.ok root)
  | exhausted => some (.error .notASquare)
  | head _ | squared _ _ _ | underflow => none

def ceiling : Place p → Nat
  | head s => s.level
  | squared s _ _ => s.level - 1
  | found _ | exhausted | underflow => 0

/-- A bound on the steps to the end. A round at a level takes at most one step more than the level. -/
def stepsLeft : Place p → Nat
  | head s => (s.level + 1) * (s.level + 1)
  | squared s count _ => s.level * s.level + (s.level - count)
  | found _ | exhausted | underflow => 0

end Place

variable {p : Nat} [Modulus p] {a : Residue p} {s s' : RootSearch p} {n i : Nat}

theorem Rounds.snoc (rounds : Rounds n s s') (other : s'.error ≠ 1) (below : i < s'.level)
    (taken : TakenToOne s'.error i) : Rounds (n + 1) s (s'.lower i) := by
  induction rounds with
  | done s => exact .round other below taken (.done _)
  | round other' below' taken' _ ih => exact .round other' below' taken' (ih other below taken)

theorem Rounds.level_pos (rounds : Rounds n s s') (positive : 0 < s.level) : 0 < s'.level := by
  induction rounds with
  | done => exact positive
  | @round n i s s' other _ taken _ ih =>
      apply ih
      change 0 < i
      by_contra zero
      rw [Nat.eq_zero_of_not_pos zero, takenToOne_zero_iff] at taken
      exact other taken

theorem run_of_exhausted (positive : 0 < s.level) (never : ∀ j < s.level, s.error ^ 2 ^ j ≠ 1) :
    s.run = .error .notASquare := by
  have other : s.error ≠ 1 := by simpa using never 0 positive
  rw [run, if_neg other]
  split
  · rfl
  · rename_i i found
    obtain ⟨below, taken, _⟩ := squaringsToOne_eq_some_iff.1 found
    exact absurd taken (never i below)

/-- The places that a search from `s` passes through, with what holds at each of them. -/
inductive Reached (s : RootSearch p) : Place p → Prop
  | head {n : Nat} {s' : RootSearch p} : Rounds n s s' → Reached s (.head s')
  | squared {n : Nat} {s' : RootSearch p} {count : Nat} : Rounds n s s' → count < s'.level →
      s'.error ≠ 1 → (∀ j < count, s'.error ^ 2 ^ j ≠ 1) →
      Reached s (.squared s' count (s'.error ^ 2 ^ count))
  | found {n : Nat} {s' : RootSearch p} : Rounds n s s' → s'.error = 1 → Reached s (.found s'.root)
  | exhausted {n : Nat} {s' : RootSearch p} : Rounds n s s' → 0 < s'.level →
      (∀ j < s'.level, s'.error ^ 2 ^ j ≠ 1) → Reached s .exhausted

namespace Reached

variable {P : Place p}

theorem next (reached : Reached s P) (positive : 0 < s.level) : Reached s P.next := by
  cases reached with
  | @head n s' rounds =>
      rw [Place.next]
      split
      · rename_i one
        exact .found rounds one
      · rename_i other
        have first : Reached s (.squared s' 0 (s'.error ^ 2 ^ 0)) :=
          .squared rounds (rounds.level_pos positive) other
            fun j none => absurd none (Nat.not_lt_zero j)
        simpa using first
  | @squared n s' count rounds below other earlier =>
      rw [Place.next]
      split
      · rename_i one
        -- The count is still below the level, so there is something left to take from it.
        rw [if_neg (by omega)]
        exact .head (rounds.snoc other below ⟨one, earlier⟩)
      · rename_i not_one
        have later : ∀ j < count + 1, s'.error ^ 2 ^ j ≠ 1 := by
          rw [Nat.forall_lt_succ_right]
          exact ⟨earlier, not_one⟩
        split
        · rename_i last
          rw [last] at later
          exact .exhausted rounds (by omega) later
        · have square : s'.error ^ 2 ^ count * s'.error ^ 2 ^ count = s'.error ^ 2 ^ (count + 1) := by
            rw [← sq, ← pow_mul, ← Nat.pow_succ]
          rw [square]
          exact .squared rounds (by omega) other later
  | found rounds one => exact .found rounds one
  | exhausted rounds high never => exact .exhausted rounds high never

theorem iterate (reached : Reached s P) (positive : 0 < s.level) (k : Nat) :
    Reached s (Place.next^[k] P) := by
  induction k generalizing P with
  | zero => exact reached
  | succ k ih => exact ih (reached.next positive)

theorem ne_underflow (reached : Reached s P) : P ≠ .underflow := by
  rintro rfl
  cases reached

theorem ceiling_next_le (reached : Reached s P) : P.next.ceiling ≤ P.ceiling := by
  cases reached with
  | @head n s' rounds =>
      rw [Place.next]
      split
      · exact Nat.zero_le _
      · exact Nat.sub_le _ _
  | @squared n s' count rounds below other earlier =>
      rw [Place.next]
      split
      · rw [if_neg (by omega)]
        exact Nat.le_sub_one_of_lt below
      · split
        · exact Nat.zero_le _
        · exact le_rfl
  | found rounds one => exact le_rfl
  | exhausted rounds high never => exact le_rfl

theorem ceiling_next_head {s' : RootSearch p} (positive : 0 < s'.level) :
    (Place.head s').next.ceiling < s'.level := by
  rw [Place.next]
  split
  · exact positive
  · exact Nat.sub_lt positive Nat.one_pos

theorem ceiling_iterate_le (reached : Reached s P) (positive : 0 < s.level) (k : Nat) :
    (Place.next^[k] P).ceiling ≤ P.ceiling := by
  induction k generalizing P with
  | zero => exact le_rfl
  | succ k ih => exact (ih (reached.next positive)).trans reached.ceiling_next_le

theorem outcome_eq (reached : Reached s P) {r : Except CodecError (Residue p)}
    (ended : P.outcome = some r) : r = s.run := by
  cases reached with
  | head rounds => cases ended
  | squared rounds below other earlier => cases ended
  | found rounds one =>
      cases ended
      rw [rounds.run_eq, run_of_error_one one]
  | exhausted rounds high never =>
      cases ended
      rw [rounds.run_eq, run_of_exhausted high never]

theorem stepsLeft_next (reached : Reached s P) (going : P.outcome = none) :
    P.next.stepsLeft < P.stepsLeft := by
  cases reached with
  | @head n s' rounds =>
      rw [Place.next]
      split
      · exact Nat.mul_pos s'.level.succ_pos s'.level.succ_pos
      · simp only [Place.stepsLeft]
        rw [Nat.succ_mul_succ]
        omega
  | @squared n s' count rounds below other earlier =>
      rw [Place.next]
      split
      · rw [if_neg (by omega)]
        change (count + 1) * (count + 1) < s'.level * s'.level + (s'.level - count)
        -- The next round has the count as its level, and its successor is not above the level here.
        have smaller : (count + 1) * (count + 1) ≤ s'.level * s'.level := Nat.mul_le_mul below below
        omega
      · split
        · change 0 < s'.level * s'.level + (s'.level - count)
          omega
        · change s'.level * s'.level + (s'.level - (count + 1)) <
            s'.level * s'.level + (s'.level - count)
          omega
  | found rounds one => cases going
  | exhausted rounds high never => cases going

theorem exists_outcome (reached : Reached s P) (positive : 0 < s.level) :
    ∃ k ≤ P.stepsLeft, (Place.next^[k] P).outcome = some s.run := by
  -- The induction is on the bound on the steps that are left, for all places at once.
  induction bound : P.stepsLeft using Nat.strong_induction_on generalizing P with
  | _ m ih =>
      cases ended : P.outcome with
      | some r =>
          refine ⟨0, Nat.zero_le m, ?_⟩
          rw [← reached.outcome_eq ended]
          exact ended
      | none =>
          have smaller := reached.stepsLeft_next ended
          rw [bound] at smaller
          obtain ⟨k, steps, last⟩ := ih _ smaller (reached.next positive) rfl
          exact ⟨k + 1, steps.trans_lt smaller, last⟩

end Reached

section Ends

variable [OddPrime p]

theorem neg_one_ne_one : (-1 : Residue p) ≠ 1 := by
  intro same
  apply two_ne_zero_of_odd (p := p)
  linear_combination -same

theorem Invariant.orderOf_unity (inv : Invariant a s) : orderOf s.unity = 2 ^ s.level := by
  obtain ⟨m, level⟩ := Nat.exists_eq_succ_of_ne_zero inv.level_pos.ne'
  have half : s.unity ^ 2 ^ m = -1 := by
    rw [← inv.unity_half, level, Nat.succ_sub_one]
  have whole : s.unity ^ 2 ^ (m + 1) = 1 := by
    rw [Nat.pow_succ, pow_mul, half, neg_one_sq]
  rw [level]
  exact orderOf_eq_prime_pow (by rw [half]; exact neg_one_ne_one) whole

theorem Invariant.orderOf_error_dvd (inv : Invariant a s) : orderOf s.error ∣ 2 ^ (s.level - 1) :=
  orderOf_dvd_of_pow_eq_one inv.error_half

theorem error_start (a : Residue p) : (start a).error = a ^ oddPart p := power_eq_pow a _

/-- By Euler's criterion the first error is taken to 1 below the first level for squares only. -/
theorem legendre_of_start_error {j : Nat} (below : j < twoAdicity p)
    (taken : (start a).error ^ 2 ^ j = 1) : legendre a = 1 := by
  have exponent : 2 ^ (twoAdicity p - 1) = 2 ^ j * 2 ^ (twoAdicity p - 1 - j) := by
    rw [← Nat.pow_add]
    congr 1
    omega
  have half : a ^ ((p - 1) / 2) = 1 := by
    calc
      a ^ ((p - 1) / 2) = (a ^ oddPart p) ^ 2 ^ (twoAdicity p - 1) := by
        rw [← oddPart_mul_two_pow, pow_mul]
      _ = ((start a).error ^ 2 ^ j) ^ 2 ^ (twoAdicity p - 1 - j) := by
        rw [exponent, pow_mul, error_start]
      _ = 1 := by rw [taken, one_pow]
  have nonzero : a ≠ 0 := by
    rintro rfl
    have large := two_lt_modulus p
    rw [zero_pow (by omega)] at half
    exact zero_ne_one half
  exact (legendre_eq_one_iff nonzero).2 half

theorem start_level_pos (a : Residue p) : 0 < (start a).level := twoAdicity_pos p

def placeAfter (a : Residue p) (steps : Nat) : Place p := Place.next^[steps] (.head (.start a))

theorem reached_placeAfter (a : Residue p) (steps : Nat) : Reached (start a) (placeAfter a steps) :=
  (Reached.head (.done _)).iterate (start_level_pos a) steps

theorem rounds_of_head {k : Nat} (place : placeAfter a k = .head s) : ∃ n, Rounds n (.start a) s := by
  have reached := reached_placeAfter a k
  rw [place] at reached
  cases reached with
  | head rounds => exact ⟨_, rounds⟩

theorem level_lt_of_head {k k' : Nat} (later : k < k') (place : placeAfter a k = .head s)
    (place' : placeAfter a k' = .head s') : s'.level < s.level := by
  obtain ⟨n, rounds⟩ := rounds_of_head place
  have reached : Reached (start a) (Place.head s).next :=
    (Reached.head rounds).next (start_level_pos a)
  have after : placeAfter a k' = Place.next^[k' - (k + 1)] (Place.head s).next := by
    rw [← place, placeAfter, placeAfter, ← Function.iterate_succ_apply' Place.next,
      ← Function.iterate_add_apply]
    congr 2
    omega
  calc
    s'.level = (placeAfter a k').ceiling := by rw [place']; rfl
    _ ≤ (Place.head s).next.ceiling := by
      rw [after]
      exact reached.ceiling_iterate_le (start_level_pos a) _
    _ < s.level := Reached.ceiling_next_head (rounds.level_pos (start_level_pos a))

theorem card_heads_le {times : Finset Nat} (heads : ∀ k ∈ times, ∃ s, placeAfter a k = .head s) :
    times.card ≤ twoAdicity p := by
  -- The levels of the rounds are distinct and lie between 1 and the first level.
  have levels : Set.MapsTo (fun k => (placeAfter a k).ceiling) times (Finset.Icc 1 (twoAdicity p)) := by
    intro k member
    obtain ⟨s, place⟩ := heads k member
    obtain ⟨n, rounds⟩ := rounds_of_head place
    have positive := rounds.level_pos (start_level_pos a)
    have bound : s.level + n ≤ twoAdicity p := rounds.level_add_le
    simp only [place, Finset.coe_Icc, Set.mem_Icc]
    change 1 ≤ s.level ∧ s.level ≤ twoAdicity p
    omega
  have distinct : Set.InjOn (fun k => (placeAfter a k).ceiling) times := by
    intro k member k' member' same
    obtain ⟨s, place⟩ := heads k member
    obtain ⟨s', place'⟩ := heads k' member'
    simp only [place, place'] at same
    change s.level = s'.level at same
    rcases Nat.lt_trichotomy k k' with before | now | after
    · exact absurd (level_lt_of_head before place place') (by omega)
    · exact now
    · exact absurd (level_lt_of_head after place' place) (by omega)
  have total := Finset.card_le_card_of_injOn _ levels distinct
  rwa [Nat.card_Icc, Nat.add_sub_cancel] at total

/-- A bound on the steps of a search, each squaring of an error counted as one. -/
def stepBound (p : Nat) : Nat := (twoAdicity p + 1) * (twoAdicity p + 1)

theorem exists_end (a : Residue p) :
    ∃ k ≤ stepBound p, (placeAfter a k).outcome = some (tonelliShanks a) :=
  (Reached.head (.done (start a))).exists_outcome (start_level_pos a)

theorem exists_found {root : Residue p} (result : tonelliShanks a = .ok root) :
    ∃ k ≤ stepBound p, placeAfter a k = .found root := by
  obtain ⟨k, bound, ended⟩ := exists_end a
  rw [result] at ended
  refine ⟨k, bound, ?_⟩
  generalize placeAfter a k = P at ended
  cases P with
  | found root' =>
      cases ended
      rfl
  | head | squared | exhausted | underflow => cases ended

theorem exists_exhausted {err : CodecError} (result : tonelliShanks a = .error err) :
    ∃ k ≤ stepBound p, placeAfter a k = .exhausted := by
  obtain ⟨k, bound, ended⟩ := exists_end a
  rw [result] at ended
  refine ⟨k, bound, ?_⟩
  generalize placeAfter a k = P at ended
  cases P with
  | exhausted => rfl
  | head | squared | found | underflow => cases ended

end Ends

end RootSearch

section Results

variable {p : Nat} [Modulus p] [OddPrime p] {a : Residue p}

theorem legendre_eq_one_iff_exists : legendre a = 1 ↔ a ≠ 0 ∧ ∃ b, b * b = a := by
  by_cases zero : a = 0
  · simp [zero, legendre]
  · rw [← isSquare_iff_legendre zero, isSquare_iff_exists]
    exact (and_iff_right zero).symm

theorem tonelliShanks_of_legendre_ne_one (other : legendre a ≠ 1) :
    tonelliShanks a = .error .notASquare := by
  refine RootSearch.run_of_exhausted (RootSearch.start_level_pos a) fun j below taken => ?_
  exact other (RootSearch.legendre_of_start_error below taken)

theorem exists_tonelliShanks_iff :
    (∃ root, tonelliShanks a = .ok root ∧ root * root = a) ↔ a ≠ 0 ∧ ∃ b, b * b = a := by
  rw [← legendre_eq_one_iff_exists]
  constructor
  · rintro ⟨root, found, _⟩
    by_contra other
    rw [tonelliShanks_of_legendre_ne_one other] at found
    cases found
  · intro square
    obtain ⟨_, _, s, _, _, found, verified⟩ := tonelliShanks_rounds square
    exact ⟨s.root, found, verified⟩

theorem tonelliShanks_eq_power (three : p % 4 = 3) (square : legendre a = 1) :
    tonelliShanks a = .ok (power a ((p + 1) / 4)) := by
  have product := two_pow_twoAdicity_mul_oddPart p
  have part := odd_oddPart p
  have single : twoAdicity p = 1 := by
    have positive := twoAdicity_pos p
    by_contra more
    obtain ⟨m, adicity⟩ := Nat.exists_eq_add_of_le (show 2 ≤ twoAdicity p by omega)
    rw [adicity, Nat.pow_add, Nat.mul_assoc] at product
    omega
  have inv := RootSearch.start_invariant square
  have one : (RootSearch.start a).error = 1 := by
    have half := inv.error_half
    change (RootSearch.start a).error ^ 2 ^ (twoAdicity p - 1) = 1 at half
    rwa [single, Nat.sub_self, pow_zero, pow_one] at half
  have exponent : (oddPart p + 1) / 2 = (p + 1) / 4 := by
    rw [single] at product
    omega
  rw [tonelliShanks, RootSearch.run_of_error_one one, ← exponent]
  rfl

/--
The search for a non-square ends at the least one from 2 on. Without a look at the character of `a`, the
search for its root ends for every `a`, found for squares other than zero and exhausted elsewhere. No counter
runs below zero, each round has a lower level than those before it, and there are at most as many rounds
as 2 divides `p - 1`. In the search for a root of a square the orders of unity and error are as the level
says whenever a round begins; modulo a prime that is 3 modulo 4 the root is the power that serves there.
-/
theorem search_exact_without_character (p : Nat) [Modulus p] [OddPrime p] :
    (∃ n < p, leastNonSquare p = ofNat p (2 + n) ∧ (ofNat p (2 + n)).legendre = -1 ∧
      ∀ k < n, (ofNat p (2 + k)).legendre ≠ -1) ∧
    ∀ a : Residue p,
      ((∃ root, tonelliShanks a = .ok root ∧ root * root = a) ↔ a ≠ 0 ∧ ∃ b, b * b = a) ∧
      (∀ root, tonelliShanks a = .ok root →
        ∃ k ≤ RootSearch.stepBound p, RootSearch.placeAfter a k = .found root) ∧
      (¬(a ≠ 0 ∧ ∃ b, b * b = a) → tonelliShanks a = .error .notASquare ∧
        ∃ k ≤ RootSearch.stepBound p, RootSearch.placeAfter a k = .exhausted) ∧
      (∀ k, RootSearch.placeAfter a k ≠ .underflow) ∧
      (∀ k k' s s', k < k' → RootSearch.placeAfter a k = .head s →
        RootSearch.placeAfter a k' = .head s' → s'.level < s.level) ∧
      (∀ times : Finset Nat, (∀ k ∈ times, ∃ s, RootSearch.placeAfter a k = .head s) →
        times.card ≤ twoAdicity p) ∧
      ((a ≠ 0 ∧ ∃ b, b * b = a) → ∀ k s, RootSearch.placeAfter a k = .head s →
        s.root * s.root = a * s.error ∧ orderOf s.unity = 2 ^ s.level ∧
          orderOf s.error ∣ 2 ^ (s.level - 1)) ∧
      (p % 4 = 3 → (a ≠ 0 ∧ ∃ b, b * b = a) → tonelliShanks a = .ok (power a ((p + 1) / 4))) := by
  refine ⟨leastNonSquare_eq p, fun a => ?_⟩
  refine ⟨exists_tonelliShanks_iff, ?_, ?_, ?_, ?_, ?_, ?_, ?_⟩
  · intro root found
    exact RootSearch.exists_found found
  · intro rootless
    rw [← legendre_eq_one_iff_exists] at rootless
    have refused := tonelliShanks_of_legendre_ne_one rootless
    exact ⟨refused, RootSearch.exists_exhausted refused⟩
  · intro k
    exact (RootSearch.reached_placeAfter a k).ne_underflow
  · intro k k' s s' later place place'
    exact RootSearch.level_lt_of_head later place place'
  · intro times heads
    exact RootSearch.card_heads_le heads
  · intro square k s place
    obtain ⟨n, rounds⟩ := RootSearch.rounds_of_head place
    have inv := rounds.invariant (RootSearch.start_invariant (legendre_eq_one_iff_exists.2 square))
    exact ⟨inv.root_square, inv.orderOf_unity, inv.orderOf_error_dvd⟩
  · intro three square
    exact tonelliShanks_eq_power three (legendre_eq_one_iff_exists.2 square)

theorem search_exact_engine_fields :
    OddPrime Engine.bls12P381.groupOrder ∧ twoAdicity Engine.bls12P381.groupOrder = 32 ∧
    tonelliShanks (0 : Fr .bls12P381) = .error .notASquare ∧
    (∃ k, RootSearch.placeAfter (ofNat _ 5 : Fr .bls12P381) k = .exhausted) ∧
    (∃ root k, root * root = (2 * 2 : Fr .bls12P381) ∧
      RootSearch.placeAfter (2 * 2 : Fr .bls12P381) k = .found root) ∧
    orderOf (RootSearch.start (2 * 2 : Fr .bls12P381)).unity = 2 ^ 32 ∧
    tonelliShanks (2 * 2 : Fq .bls12P381) =
      .ok (power (2 * 2) ((Engine.bls12P381.fieldOrder + 1) / 4)) := by
  have nonsquare : (ofNat _ 5 : Fr .bls12P381).isSquare = false := by decide +kernel
  have adicity : twoAdicity Engine.bls12P381.groupOrder = 32 := by decide +kernel
  have rootless : ¬∃ b, b * b = (ofNat _ 5 : Fr .bls12P381) := by
    rw [← isSquare_iff_exists, nonsquare]
    exact Bool.false_ne_true
  have four : (2 * 2 : Fr .bls12P381) ≠ 0 := mul_ne_zero two_ne_zero_of_odd two_ne_zero_of_odd
  have four' : (2 * 2 : Fq .bls12P381) ≠ 0 := mul_ne_zero two_ne_zero_of_odd two_ne_zero_of_odd
  obtain ⟨_, scalar⟩ := search_exact_without_character Engine.bls12P381.groupOrder
  obtain ⟨_, base⟩ := search_exact_without_character Engine.bls12P381.fieldOrder
  obtain ⟨_, _, refused_zero, _⟩ := scalar 0
  obtain ⟨_, _, refused_five, _⟩ := scalar (ofNat _ 5)
  obtain ⟨exact_four, found_four, _, _, _, _, heads_four, _⟩ := scalar (2 * 2)
  obtain ⟨_, _, _, _, _, _, _, power_four⟩ := base (2 * 2)
  obtain ⟨root, found, verified⟩ := exact_four.2 ⟨four, 2, rfl⟩
  obtain ⟨k, _, place⟩ := found_four root found
  obtain ⟨k', _, place'⟩ := (refused_five fun square => rootless square.2).2
  obtain ⟨_, order, _⟩ := heads_four ⟨four, 2, rfl⟩ 0 (.start _) rfl
  refine ⟨inferInstance, adicity, (refused_zero fun square => square.1 rfl).1, ⟨k', place'⟩,
    ⟨root, k, verified, place⟩, ?_, ?_⟩
  · rw [order, ← adicity]
    rfl
  · exact power_four rfl ⟨four', 2, rfl⟩

end Results

end PairingWire.Residue
