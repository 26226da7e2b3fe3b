import PairingWire.Proofs.Pairing
import PairingWire.Proofs.Pairing.Shared

/-!
The pairing of several pairs is the product of their pairings, although there is one final power for all of
them, because the final power goes through products. What holds of products in a commutative ring holds of it.
-/

namespace PairingWire

open Pairing

variable {e : Engine}

namespace Pairing

theorem finalPower_prod (fs : List (Fq12 e)) : finalPower fs.prod = (fs.map finalPower).prod :=
  map_prod_of_pow (fun f => (power_eq_pow f (finalExponent e)).symm) fs

theorem finalPower_one : finalPower (1 : Fq12 e) = 1 := finalPower_prod []

end Pairing

theorem pairing_of_infinity {P : Point (Fq e)} {Q : Point (Fq2 e)}
    (trivial_pair : P = .infinity ∨ Q = .infinity) : pairing P Q = 1 := by
  rcases trivial_pair with rfl | rfl
  · exact finalPower_one
  · cases P <;> exact finalPower_one

section Lists

variable {Ps : List (Point (Fq e))} {Qs : List (Point (Fq2 e))}

theorem multiPairing_eq_error_iff :
    multiPairing Ps Qs = .error .lengthMismatch ↔ Ps.length ≠ Qs.length := by
  unfold multiPairing
  split <;> simp_all

theorem multiPairing_eq_prod (same_length : Ps.length = Qs.length) :
    multiPairing Ps Qs = .ok (List.zipWith pairing Ps Qs).prod := by
  rw [multiPairing, if_pos same_length, ← List.prod_eq_foldl, finalPower_prod, List.map_zipWith]
  rfl

end Lists

def pairsPairing (pairs : List (Point (Fq e) × Point (Fq2 e))) : Except ArithmeticError (Fq12 e) :=
  multiPairing (pairs.map Prod.fst) (pairs.map Prod.snd)

section Pairs

variable {pairs pairs' : List (Point (Fq e) × Point (Fq2 e))}

theorem pairsPairing_eq_prod (pairs : List (Point (Fq e) × Point (Fq2 e))) :
    pairsPairing pairs = .ok (pairs.map fun q => pairing q.1 q.2).prod := by
  have same_length : (pairs.map Prod.fst).length = (pairs.map Prod.snd).length := by simp
  rw [pairsPairing, multiPairing_eq_prod same_length, List.zipWith_map, List.zipWith_self]

theorem pairsPairing_perm (perm : pairs.Perm pairs') : pairsPairing pairs = pairsPairing pairs' := by
  rw [pairsPairing_eq_prod, pairsPairing_eq_prod, (perm.map _).prod_eq]

theorem pairsPairing_append (pairs pairs' : List (Point (Fq e) × Point (Fq2 e))) :
    pairsPairing (pairs ++ pairs') = .ok
      ((pairs.map fun q => pairing q.1 q.2).prod * (pairs'.map fun q => pairing q.1 q.2).prod) := by
  rw [pairsPairing_eq_prod, List.map_append, List.prod_append]

theorem prod_pairings_of_trivial (trivial_pairs : ∀ q ∈ pairs, q.1 = .infinity ∨ q.2 = .infinity) :
    (pairs.map fun q => pairing q.1 q.2).prod = 1 := by
  apply List.prod_eq_one
  intro f member
  obtain ⟨q, place, rfl⟩ := List.mem_map.1 member
  exact pairing_of_infinity (trivial_pairs q place)

theorem pairsPairing_insert {inserted : List (Point (Fq e) × Point (Fq2 e))}
    (trivial_pairs : ∀ q ∈ inserted, q.1 = .infinity ∨ q.2 = .infinity) :
    pairsPairing (pairs ++ inserted ++ pairs') = pairsPairing (pairs ++ pairs') := by
  rw [pairsPairing_append, pairsPairing_append, List.map_append, List.prod_append,
    prod_pairings_of_trivial trivial_pairs, mul_one]

theorem pairsPairing_eq_shared (pairs : List (Point (Fq e) × Point (Fq2 e))) :
    pairsPairing pairs = .ok (finalPower (sharedValue pairs)) := by
  rw [pairsPairing_eq_prod, sharedValue_eq_prod, finalPower_prod, List.map_map]
  rfl

end Pairs

/--
Points are paired in lists of one length only, and give the product of the pairings of the single pairs. So
neither the order of the pairs nor pairs with a point at infinity matter, and lists that are put together give
the product of what they give apart. Running all loops as one gives the same.
-/
theorem multiPairing_agrees_with_product (e : Engine) :
    (∀ (Ps : List (Point (Fq e))) (Qs : List (Point (Fq2 e))),
      (multiPairing Ps Qs = .error .lengthMismatch ↔ Ps.length ≠ Qs.length) ∧
      (Ps.length = Qs.length →
        multiPairing Ps Qs = .ok ((List.zipWith pairing Ps Qs).foldl (· * ·) 1))) ∧
    multiPairing (e := e) [] [] = .ok 1 ∧
    (∀ pairs pairs' : List (Point (Fq e) × Point (Fq2 e)), pairs.Perm pairs' →
      pairsPairing pairs = pairsPairing pairs') ∧
    (∀ pairs inserted pairs' : List (Point (Fq e) × Point (Fq2 e)),
      (∀ q ∈ inserted, q.1 = .infinity ∨ q.2 = .infinity) →
      pairsPairing (pairs ++ inserted ++ pairs') = pairsPairing (pairs ++ pairs')) ∧
    (∀ pairs pairs' : List (Point (Fq e) × Point (Fq2 e)), ∃ f f',
      pairsPairing pairs = .ok f ∧ pairsPairing pairs' = .ok f' ∧
      pairsPairing (pairs ++ pairs') = .ok (f * f')) ∧
    (∀ pairs : List (Point (Fq e) × Point (Fq2 e)),
      pairsPairing pairs = .ok (finalPower (sharedValue pairs))) := by
  refine ⟨?_, ?_, ?_, ?_, ?_, ?_⟩
  · intro Ps Qs
    constructor
    · exact multiPairing_eq_error_iff
    · intro same_length
      rw [multiPairing_eq_prod same_length, List.prod_eq_foldl]
  · exact multiPairing_eq_prod rfl
  · intro pairs pairs' perm
    exact pairsPairing_perm perm
  · intro pairs inserted pairs' trivial_pairs
    exact pairsPairing_insert trivial_pairs
  · intro pairs pairs'
    exact ⟨_, _, pairsPairing_eq_prod pairs, pairsPairing_eq_prod pairs', pairsPairing_append pairs pairs'⟩
  · intro pairs
    exact pairsPairing_eq_shared pairs

theorem multiPairing_of_generators :
    multiPairing [Engine.bls12P381.g1.generator] [] = .error .lengthMismatch ∧
      multiPairing [Engine.bls12P381.g1.generator, .infinity]
          [Engine.bls12P381.g2.generator, Engine.bls12P381.g2.generator] =
        .ok bls12P381TargetGenerator ∧
      multiPairing [.infinity, Engine.bls12P381.g1.generator]
          [Engine.bls12P381.g2.generator, Engine.bls12P381.g2.generator] =
        .ok bls12P381TargetGenerator := by
  obtain ⟨lists, _, reorder, insert, _⟩ := multiPairing_agrees_with_product .bls12P381
  have single := (lists [Engine.bls12P381.g1.generator] [Engine.bls12P381.g2.generator]).2 rfl
  rw [List.zipWith_cons_cons, List.zipWith_nil_left, List.foldl_cons, List.foldl_nil, one_mul] at single
  have dropped := insert [(Engine.bls12P381.g1.generator, Engine.bls12P381.g2.generator)]
    [(.infinity, Engine.bls12P381.g2.generator)] [] (by simp)
  have swapped := reorder [(.infinity, Engine.bls12P381.g2.generator),
    (Engine.bls12P381.g1.generator, Engine.bls12P381.g2.generator)] _ (.swap _ _ [])
  refine ⟨?_, dropped.trans single, swapped.trans (dropped.trans single)⟩
  exact (lists [Engine.bls12P381.g1.generator] []).1.2 (Nat.succ_ne_self 0)

end PairingWire
