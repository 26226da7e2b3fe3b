import PairingWire.Pairing
import PairingWire.Proofs.Member
import PairingWire.Proofs.Target

/-!
Pairings are members of the target group. No line through points of the twist vanishes at a point of
the first source group, because the ordinate of such a point is not zero; so Miller values are units,
and the final power takes every unit into the target group.
-/

namespace PairingWire

variable {e : Engine}

namespace Engine

theorem groupOrder_dvd_card_sub_one (e : Engine) : e.groupOrder ∣ e.fieldOrder ^ 12 - 1 := by
  cases e <;> decide +kernel

end Engine

namespace Pairing

variable {x y : Fq e}

theorem lineValue_ne_zero (ordinate : y ≠ 0) (s tx ty : Fq2 e) : lineValue e s tx ty x y ≠ 0 := by
  intro zero
  cases e with
  | bn254 => exact ordinate (congrArg (fun f => f.c0.b0.c0) zero)
  | bls12P381 => exact ordinate (congrArg (fun f => f.c1.b1.c0) zero)

theorem lineThrough_ne_zero (ordinate : y ≠ 0) (T Q : Point (Fq2 e)) :
    lineThrough T Q x y ≠ 0 := by
  unfold lineThrough
  split
  · split
    · split
      · exact lineValue_ne_zero ordinate _ _ _
      · exact one_ne_zero
    · exact lineValue_ne_zero ordinate _ _ _
  · exact one_ne_zero

theorem MillerState.add_ne_zero {s : MillerState e} (ordinate : y ≠ 0) (nonzero : s.value ≠ 0)
    (Q : Point (Fq2 e)) : (s.add Q x y).value ≠ 0 :=
  mul_ne_zero nonzero (lineThrough_ne_zero ordinate _ _)

theorem MillerState.double_ne_zero {s : MillerState e} (ordinate : y ≠ 0) (nonzero : s.value ≠ 0) :
    (s.double x y).value ≠ 0 :=
  mul_ne_zero (mul_ne_zero nonzero nonzero) (lineThrough_ne_zero ordinate _ _)

theorem millerLoop_ne_zero (ordinate : y ≠ 0) (Q : Point (Fq2 e)) (digits n : Nat) :
    (millerLoop Q x y digits n).value ≠ 0 := by
  induction digits generalizing n with
  | zero => exact one_ne_zero
  | succ digits ih =>
      have doubled := MillerState.double_ne_zero (x := x) ordinate (ih (n / 2))
      simp only [millerLoop]
      split
      · exact one_ne_zero
      · split
        · exact doubled
        · exact MillerState.add_ne_zero ordinate doubled Q

theorem conj_ne_zero {f : Fq12 e} (nonzero : f ≠ 0) : f.conj ≠ 0 := by
  rw [← Fq12.pow_fieldOrder_six]
  exact pow_ne_zero _ nonzero

theorem closeLoop_ne_zero (ordinate : y ≠ 0) (Q : Point (Fq2 e)) {s : MillerState e}
    (nonzero : s.value ≠ 0) : closeLoop e Q x y s ≠ 0 := by
  cases e with
  | bn254 =>
      exact MillerState.add_ne_zero ordinate (MillerState.add_ne_zero ordinate nonzero _) _
  | bls12P381 => exact conj_ne_zero nonzero

/-- Miller values at points of the first source group do not vanish, whatever the other point is. -/
theorem millerValue_ne_zero {P : Point (Fq e)} (valid : e.g1.Valid P) (Q : Point (Fq2 e)) :
    millerValue P Q ≠ 0 := by
  unfold millerValue
  split
  · have ordinate := Curve.ordinate_ne_zero_of_odd_order e.odd_g1_order valid
    exact closeLoop_ne_zero ordinate _ (millerLoop_ne_zero ordinate _ _ _)
  · exact one_ne_zero

/-- The final power takes every unit into the target group. -/
theorem finalPower_inSubgroup {f : Fq12 e} (nonzero : f ≠ 0) : (finalPower f).InSubgroup := by
  obtain ⟨factor, exponent⟩ : ∃ factor,
      finalExponent e = factor * ((e.fieldOrder ^ 12 - 1) / e.groupOrder) := ⟨_, rfl⟩
  apply Fq12.inSubgroup_iff_pow.2
  calc
    finalPower f ^ e.groupOrder =
        f ^ (factor * ((e.fieldOrder ^ 12 - 1) / e.groupOrder) * e.groupOrder) := by
      rw [finalPower, power_eq_pow, exponent, ← pow_mul]
    _ = (f ^ (e.fieldOrder ^ 12 - 1)) ^ factor := by
      rw [mul_assoc, Nat.div_mul_cancel e.groupOrder_dvd_card_sub_one, mul_comm, pow_mul]
    _ = 1 := by rw [Fq12.pow_card_sub_one nonzero, one_pow]

theorem foldl_millerValue_ne_zero {Ps : List (Point (Fq e))} (valid : ∀ P ∈ Ps, e.g1.Valid P)
    (Qs : List (Point (Fq2 e))) {f : Fq12 e} (nonzero : f ≠ 0) :
    (List.zipWith millerValue Ps Qs).foldl (· * ·) f ≠ 0 := by
  induction Ps generalizing Qs f with
  | nil => exact nonzero
  | cons P Ps ih =>
      cases Qs with
      | nil => exact nonzero
      | cons Q Qs =>
          have first := millerValue_ne_zero (valid P List.mem_cons_self) Q
          exact ih (fun P' member => valid P' (List.mem_cons_of_mem P member)) Qs
            (mul_ne_zero nonzero first)

end Pairing

open Pairing

theorem pairing_inSubgroup {P : Point (Fq e)} (valid : e.g1.Valid P) (Q : Point (Fq2 e)) :
    (pairing P Q).InSubgroup :=
  finalPower_inSubgroup (millerValue_ne_zero valid Q)

theorem multiPairing_inSubgroup {Ps : List (Point (Fq e))} {Qs : List (Point (Fq2 e))}
    (valid : ∀ P ∈ Ps, e.g1.Valid P) {x : Fq12 e} (found : multiPairing Ps Qs = .ok x) :
    x.InSubgroup := by
  unfold multiPairing at found
  split at found
  · cases found
    exact finalPower_inSubgroup (foldl_millerValue_ne_zero valid Qs one_ne_zero)
  · cases found

theorem targetGenerator_inSubgroup (e : Engine) : (targetGenerator e).InSubgroup := by
  cases e with
  | bn254 =>
      rw [targetGenerator, bn254TargetGenerator]
      exact pairing_inSubgroup Engine.bn254.valid_g1_generator Engine.bn254.g2.generator
  | bls12P381 =>
      rw [targetGenerator, bls12P381TargetGenerator]
      exact pairing_inSubgroup Engine.bls12P381.valid_g1_generator Engine.bls12P381.g2.generator

end PairingWire
