import PairingWire.Proofs.Coordinate.Sign
import PairingWire.Proofs.Primality

/-!
An ordinate is recovered from its abscissa and its sign bit, on every curve over the coordinate fields of
the engines. The sign bit alone decides between the two roots, also where the leading coefficient
vanishes, so that it does not matter which of them is found.
-/

namespace PairingWire

section

variable {F : Type} {p : Nat} [Modulus p] [Field F] [CoordinateField F p]

theorem weierstrass_eq (a b x : F) : weierstrass a b x = x ^ 3 + a * x + b := by
  rw [weierstrass, pow_three']

/-- What is recovered from each abscissa and sign bit, on every curve over the field. -/
structure RecoversOrdinates (F : Type) {p : Nat} [Modulus p] [Field F] [CoordinateField F p] :
    Prop where
  rootless (convention : SignConvention) {a b x : F} (sign : Bool) :
    (¬∃ y, y ^ 2 = x ^ 3 + a * x + b) → recoverY convention a b x sign = .error .notASquare
  zero_clear (convention : SignConvention) {a b x : F} :
    x ^ 3 + a * x + b = 0 → recoverY convention a b x false = .ok 0
  zero_set (convention : SignConvention) {a b x : F} :
    x ^ 3 + a * x + b = 0 →
      recoverY convention a b x true = .error (.invalidEncoding .nonCanonicalSign)
  root (convention : SignConvention) {a b x : F} (sign : Bool) :
    x ^ 3 + a * x + b ≠ 0 → (∃ y, y ^ 2 = x ^ 3 + a * x + b) →
      ∃ y, recoverY convention a b x sign = .ok y ∧ recoverY convention a b x (!sign) = .ok (-y) ∧
        y ^ 2 = x ^ 3 + a * x + b ∧ signBit convention y = sign ∧
        ∀ y', y' ^ 2 = x ^ 3 + a * x + b → signBit convention y' = sign → y' = y
  signBit_ne (convention : SignConvention) {y : F} :
    y ≠ 0 → signBit convention y ≠ signBit convention (-y)
  recovers (convention : SignConvention) {a b x y : F} :
    y ^ 2 = x ^ 3 + a * x + b → recoverY convention a b x (signBit convention y) = .ok y
  any_root (convention : SignConvention) {a b x : F} (sign : Bool) {y : F} :
    y ^ 2 = x ^ 3 + a * x + b → recoverY convention a b x sign = chooseRoot convention sign y

variable [LawfulCoordinates F] {convention : SignConvention} {a b x y : F} {sign : Bool}

theorem sq_eq_iff_onCurve : y ^ 2 = x ^ 3 + a * x + b ↔ y * y = weierstrass a b x := by
  rw [weierstrass_eq, sq]

theorem recoverY_of_rootless (rootless : ¬∃ y, y * y = weierstrass a b x) :
    recoverY convention a b x sign = .error .notASquare := by
  cases outcome : CoordinateField.sqrt (weierstrass a b x) with
  | ok y => exact absurd ⟨y, LawfulCoordinates.mul_self_of_sqrt outcome⟩ rootless
  | error err => rw [recoverY, outcome, LawfulCoordinates.sqrt_error outcome, error_bind]

omit [CoordinateField F p] [LawfulCoordinates F] [Modulus p] in
theorem ne_zero_of_root (nonzero : weierstrass a b x ≠ 0) (square : y * y = weierstrass a b x) :
    y ≠ 0 := by
  rintro rfl
  rw [mul_zero] at square
  exact nonzero square.symm

theorem chooseRoot_zero (convention : SignConvention) (sign : Bool) :
    chooseRoot convention sign (0 : F) =
      if sign then .error (.invalidEncoding .nonCanonicalSign) else .ok 0 := by
  rw [chooseRoot, neg_zero, signBit_zero]
  cases sign <;> rfl

variable [OddPrime p]

theorem exists_root_signBit (convention : SignConvention) (sign : Bool) (nonzero : y ≠ 0) :
    ∃ chosen : F, chosen * chosen = y * y ∧ signBit convention chosen = sign := by
  by_cases same : signBit convention y = sign
  · exact ⟨y, rfl, same⟩
  · refine ⟨-y, neg_mul_neg y y, ?_⟩
    rw [signBit_neg convention nonzero, Bool.not_eq]
    exact same

theorem eq_of_signBit_eq {y' : F} (square : y' * y' = y * y)
    (same : signBit convention y' = signBit convention y) : y' = y := by
  rcases mul_self_eq_mul_self_iff.1 square with equal | opposite
  · exact equal
  · by_cases zero : y = 0
    · rw [opposite, zero, neg_zero]
    · rw [opposite, signBit_neg convention zero] at same
      exact absurd same (Bool.not_ne_self _)

theorem exists_recoverY_root (nonzero : weierstrass a b x ≠ 0) (square : y * y = weierstrass a b x) :
    ∃ y, recoverY convention a b x sign = .ok y ∧ recoverY convention a b x (!sign) = .ok (-y) ∧
      y * y = weierstrass a b x ∧ signBit convention y = sign ∧
      ∀ y', y' * y' = weierstrass a b x → signBit convention y' = sign → y' = y := by
  have y_nonzero := ne_zero_of_root nonzero square
  obtain ⟨chosen, same_square, chosen_sign⟩ := exists_root_signBit convention sign y_nonzero
  have chosen_square := same_square.trans square
  have chosen_nonzero := ne_zero_of_root nonzero chosen_square
  refine ⟨chosen, ?_, ?_, chosen_square, chosen_sign, ?_⟩
  · rw [← chosen_sign, recoverY_signBit chosen_square]
  · rw [← chosen_sign, ← signBit_neg convention chosen_nonzero]
    exact recoverY_signBit ((neg_mul_neg chosen chosen).trans chosen_square)
  · intro y' square' sign'
    exact eq_of_signBit_eq (square'.trans chosen_square.symm) (sign'.trans chosen_sign.symm)

theorem recoversOrdinates : RecoversOrdinates F where
  rootless convention a b x sign none := by
    simp only [sq_eq_iff_onCurve] at none
    exact recoverY_of_rootless none
  zero_clear convention a b x zero := by
    rw [← weierstrass_eq] at zero
    rw [recoverY_eq_chooseRoot ((mul_zero 0).trans zero.symm), chooseRoot_zero]
    rfl
  zero_set convention a b x zero := by
    rw [← weierstrass_eq] at zero
    rw [recoverY_eq_chooseRoot ((mul_zero 0).trans zero.symm), chooseRoot_zero]
    rfl
  root convention a b x sign nonzero := by
    rintro ⟨y, square⟩
    rw [← weierstrass_eq] at nonzero
    simp only [sq_eq_iff_onCurve] at square ⊢
    exact exists_recoverY_root nonzero square
  signBit_ne convention y nonzero := by
    rw [signBit_neg convention nonzero]
    exact (Bool.not_ne_self _).symm
  recovers convention a b x y square := recoverY_signBit (sq_eq_iff_onCurve.1 square)
  any_root convention a b x sign y square := recoverY_eq_chooseRoot (sq_eq_iff_onCurve.1 square)

end

/-- Both coordinate fields of either engine recover the ordinates of every curve. -/
theorem ordinates_recovered (e : Engine) : RecoversOrdinates (Fq e) ∧ RecoversOrdinates (Fq2 e) :=
  ⟨recoversOrdinates, recoversOrdinates⟩

end PairingWire
