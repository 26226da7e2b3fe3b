import PairingWire.Pairing
import PairingWire.Proofs.Target

/-!
The loops of several pairs run as one. The values that the pairs collect are kept multiplied together, so each
digit needs one squaring for all of them, and pairs with a point at infinity are left out at the beginning. The
product of the Miller values comes out.
-/

namespace PairingWire.Pairing

/-- A pair of finite points: the place where lines are evaluated, and the point they lead along. -/
structure Leg (e : Engine) where
  x : Fq e
  y : Fq e
  base : Point (Fq2 e)

structure SharedState (e : Engine) where
  value : Fq12 e
  reached : List (Leg e × Point (Fq2 e))

variable {e : Engine}

namespace SharedState

def lines (s : SharedState e) (target : Leg e → Point (Fq2 e) → Point (Fq2 e)) : Fq12 e :=
  (s.reached.map fun r => lineThrough r.2 (target r.1 r.2) r.1.x r.1.y).foldl (· * ·) 1

def double (s : SharedState e) : SharedState e where
  value := s.value * s.value * s.lines fun _ T => T
  reached := s.reached.map fun r => (r.1, e.g2.double r.2)

def add (s : SharedState e) (summand : Leg e → Point (Fq2 e)) : SharedState e where
  value := s.value * s.lines fun leg _ => summand leg
  reached := s.reached.map fun r => (r.1, e.g2.add r.2 (summand r.1))

end SharedState

def sharedLoop (legs : List (Leg e)) : Nat → Nat → SharedState e
  | 0, _ => ⟨1, legs.map fun leg => (leg, leg.base)⟩
  | digits + 1, n =>
    if n ≤ 1 then ⟨1, legs.map fun leg => (leg, leg.base)⟩
    else
      let s := (sharedLoop legs digits (n / 2)).double
      if n % 2 = 0 then s else s.add Leg.base

def closeShared : (e : Engine) → SharedState e → Fq12 e
  | .bn254, s =>
    ((s.add fun leg => twistFrobenius leg.base).add
      fun leg => (twistFrobenius (twistFrobenius leg.base)).neg).value
  | .bls12P381, s => s.value.conj

def leg? : Point (Fq e) × Point (Fq2 e) → Option (Leg e)
  | (.affine x y, .affine x' y') => some ⟨x, y, .affine x' y'⟩
  | _ => none

def sharedValue (pairs : List (Point (Fq e) × Point (Fq2 e))) : Fq12 e :=
  closeShared e (sharedLoop (pairs.filterMap leg?) (bitLength (loopLength e)) (loopLength e))

namespace SharedState

/-- The state holds the product of what the legs collect alone, and the points that they reach alone. -/
structure Follows (s : SharedState e) (legs : List (Leg e)) (alone : Leg e → MillerState e) : Prop where
  value : s.value = (legs.map fun leg => (alone leg).value).prod
  reached : s.reached = legs.map fun leg => (leg, (alone leg).point)

variable {s : SharedState e} {legs : List (Leg e)} {alone : Leg e → MillerState e}

theorem Follows.lines (follows : s.Follows legs alone)
    (target : Leg e → Point (Fq2 e) → Point (Fq2 e)) :
    s.lines target = (legs.map fun leg =>
      lineThrough (alone leg).point (target leg (alone leg).point) leg.x leg.y).prod := by
  rw [SharedState.lines, ← List.prod_eq_foldl, follows.reached, List.map_map]
  rfl

theorem Follows.double (follows : s.Follows legs alone) :
    s.double.Follows legs fun leg => (alone leg).double leg.x leg.y where
  value := by
    simp only [SharedState.double, MillerState.double, follows.value, follows.lines, List.prod_map_mul]
  reached := by
    simp only [SharedState.double, MillerState.double, follows.reached, List.map_map, Function.comp_def]

theorem Follows.add (follows : s.Follows legs alone) (summand : Leg e → Point (Fq2 e)) :
    (s.add summand).Follows legs fun leg => (alone leg).add (summand leg) leg.x leg.y where
  value := by
    simp only [SharedState.add, MillerState.add, follows.value, follows.lines, List.prod_map_mul]
  reached := by
    simp only [SharedState.add, MillerState.add, follows.reached, List.map_map, Function.comp_def]

end SharedState

theorem sharedLoop_start (legs : List (Leg e)) :
    SharedState.Follows ⟨1, legs.map fun leg => (leg, leg.base)⟩ legs fun leg => ⟨1, leg.base⟩ where
  value := by simp
  reached := rfl

theorem sharedLoop_follows (legs : List (Leg e)) (digits n : Nat) :
    (sharedLoop legs digits n).Follows legs fun leg => millerLoop leg.base leg.x leg.y digits n := by
  induction digits generalizing n with
  | zero => exact sharedLoop_start legs
  | succ digits ih =>
      have doubled := (ih (n / 2)).double
      simp only [sharedLoop, millerLoop]
      split
      · exact sharedLoop_start legs
      · split
        · exact doubled
        · exact doubled.add Leg.base

/-- A map that raises to some power goes through products. -/
theorem map_prod_of_pow {n : Nat} {φ : Fq12 e → Fq12 e} (power : ∀ f, f ^ n = φ f)
    (fs : List (Fq12 e)) : φ fs.prod = (fs.map φ).prod := by
  obtain rfl : (powMonoidHom n : Fq12 e → Fq12 e) = φ := funext power
  exact map_list_prod (powMonoidHom n) fs

theorem closeShared_eq_prod {s : SharedState e} {legs : List (Leg e)} {alone : Leg e → MillerState e}
    (follows : s.Follows legs alone) : closeShared e s =
      (legs.map fun leg => closeLoop e leg.base leg.x leg.y (alone leg)).prod := by
  cases e with
  | bn254 =>
      have first := follows.add fun leg => twistFrobenius leg.base
      exact (first.add fun leg => (twistFrobenius (twistFrobenius leg.base)).neg).value
  | bls12P381 =>
      -- Conjugation is a power, and so goes through the product.
      rw [closeShared, follows.value, map_prod_of_pow Fq12.pow_fieldOrder_six, List.map_map]
      rfl

def Leg.value (leg : Leg e) : Fq12 e :=
  closeLoop e leg.base leg.x leg.y
    (millerLoop leg.base leg.x leg.y (bitLength (loopLength e)) (loopLength e))

theorem millerValue_eq_elim (P : Point (Fq e)) (Q : Point (Fq2 e)) :
    millerValue P Q = (leg? (P, Q)).elim 1 Leg.value := by
  cases P with
  | infinity => rfl
  | affine x y => cases Q <;> rfl

theorem prod_legs (pairs : List (Point (Fq e) × Point (Fq2 e))) :
    ((pairs.filterMap leg?).map Leg.value).prod = (pairs.map fun q => millerValue q.1 q.2).prod := by
  induction pairs with
  | nil => rfl
  | cons q pairs ih =>
      have value := millerValue_eq_elim q.1 q.2
      rw [List.map_cons, List.prod_cons, ← ih, value]
      cases leg_eq : leg? q with
      | none =>
          rw [List.filterMap_cons_none leg_eq]
          exact (one_mul _).symm
      | some leg =>
          rw [List.filterMap_cons_some leg_eq]
          rfl

theorem sharedValue_eq_prod (pairs : List (Point (Fq e) × Point (Fq2 e))) :
    sharedValue pairs = (pairs.map fun q => millerValue q.1 q.2).prod := by
  rw [← prod_legs]
  exact closeShared_eq_prod (sharedLoop_follows _ _ _)

end PairingWire.Pairing
