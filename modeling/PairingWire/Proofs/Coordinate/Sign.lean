import PairingWire.Coordinate
import PairingWire.Proofs.Quadratic.Root

/-!
What the point layouts use of a coordinate field: its square roots are sound and complete, and its
coefficients tell zero from the other elements. From that, the sign bit tells `y` from `-y`, and an
ordinate is recovered from its sign bit whichever root is found first.
-/

namespace PairingWire

namespace Residue

variable {p : Nat}

theorem isLarger_iff (a : Residue p) : a.isLarger = true ↔ (-a).val < a.val := by
  simp [isLarger, Residue.compare, Nat.compare_eq_gt]

variable [Modulus p]

theorem val_neg_of_ne_zero {a : Residue p} (nonzero : a ≠ 0) : (-a).val = p - a.val := by
  have positive : a.val ≠ 0 := fun zero => nonzero ((eq_zero_iff a).2 zero)
  have bound := a.isLt
  rw [val_neg, Nat.mod_eq_of_lt (by omega)]

variable [OddPrime p]

theorem isLarger_neg {a : Residue p} (nonzero : a ≠ 0) : (-a).isLarger = !a.isLarger := by
  have odd := odd_modulus p
  have opposite := val_neg_of_ne_zero nonzero
  have bound := a.isLt
  rw [Bool.eq_iff_iff, Bool.not_eq_true', ← Bool.not_eq_true, isLarger_iff, isLarger_iff, neg_neg]
  omega

theorem isOdd_neg {a : Residue p} (nonzero : a ≠ 0) : (-a).isOdd = !a.isOdd := by
  have odd := odd_modulus p
  have opposite := val_neg_of_ne_zero nonzero
  have bound := a.isLt
  simp only [isOdd, opposite]
  rw [← decide_not, decide_eq_decide]
  omega

end Residue

open CoordinateField (degree)

/-- A coordinate field with working square roots, whose elements are their coefficients. -/
class LawfulCoordinates (F : Type) {p : Nat} [CoordinateField F p] [Modulus p] [Field F] : Prop where
  degree_pos : 0 < degree F
  mul_self_of_sqrt {a x : F} : CoordinateField.sqrt a = .ok x → x * x = a
  exists_sqrt_mul_self (y : F) : ∃ x, CoordinateField.sqrt (y * y) = .ok x
  sqrt_error {a : F} {err : CodecError} : CoordinateField.sqrt a = .error err → err = .notASquare
  coefficients_neg (y : F) : coefficients (-y) = (coefficients y).map Neg.neg
  eq_zero_of_coefficients {y : F} : (∀ c ∈ coefficients y, c = 0) → y = 0
  coefficients_zero : ∀ c ∈ coefficients (0 : F), c = 0
  exists_coefficients {cs : List (Residue p)} : cs.length = degree F → ∃ x : F, coefficients x = cs

instance {p : Nat} [Modulus p] [BlumPrime p] : LawfulCoordinates (Residue p) where
  degree_pos := Nat.one_pos
  mul_self_of_sqrt := Residue.mul_self_of_sqrt
  exists_sqrt_mul_self y := ⟨_, Residue.sqrt_of_isSquare (Residue.isSquare_mul_self y)⟩
  sqrt_error := Residue.sqrt_error
  coefficients_neg _ := rfl
  eq_zero_of_coefficients zero := zero _ (List.mem_singleton_self _)
  coefficients_zero _ member := List.mem_singleton.1 member
  exists_coefficients one := (List.length_eq_one_iff.1 one).imp fun _ same => same.symm

instance {p : Nat} [Modulus p] [BlumPrime p] : LawfulCoordinates (Quadratic p) where
  degree_pos := Nat.two_pos
  mul_self_of_sqrt := Quadratic.mul_self_of_sqrt
  exists_sqrt_mul_self := Quadratic.exists_sqrt_mul_self
  sqrt_error := Quadratic.sqrt_error
  coefficients_neg _ := rfl
  eq_zero_of_coefficients zero :=
    Quadratic.ext (zero _ List.mem_cons_self)
      (zero _ (List.mem_cons_of_mem _ (List.mem_singleton_self _)))
  coefficients_zero c member := by
    rcases List.mem_pair.1 member with rfl | rfl <;> rfl
  exists_coefficients two := by
    obtain ⟨c0, c1, rfl⟩ := List.length_eq_two.1 two
    exact ⟨⟨c0, c1⟩, rfl⟩

section

variable {F : Type} {p : Nat} [Modulus p] [Field F] [CoordinateField F p] [LawfulCoordinates F]

theorem find?_map_neg (cs : List (Residue p)) :
    (cs.map Neg.neg).find? (fun c => decide (c ≠ 0)) =
      (cs.find? fun c => decide (c ≠ 0)).map Neg.neg := by
  rw [List.find?_map]
  congr 2
  funext c
  simp

theorem signBit_zero (convention : SignConvention) : signBit convention (0 : F) = false := by
  have none_nonzero : (coefficients (0 : F)).find? (fun c => decide (c ≠ 0)) = none := by
    rw [List.find?_eq_none]
    intro c member
    simp [LawfulCoordinates.coefficients_zero c member]
  have none_reversed : (coefficients (0 : F)).reverse.find? (fun c => decide (c ≠ 0)) = none := by
    rw [List.find?_eq_none]
    intro c member
    simp [LawfulCoordinates.coefficients_zero c (List.mem_reverse.1 member)]
  cases convention <;> simp only [signBit, none_nonzero, none_reversed, Option.any_none]

theorem ne_zero_of_find? {cs : List (Residue p)} {c : Residue p}
    (found : cs.find? (fun c => decide (c ≠ 0)) = some c) : c ≠ 0 := by
  have test := List.find?_some found
  simpa using test

theorem signBit_neg [OddPrime p] (convention : SignConvention) {y : F} (nonzero : y ≠ 0) :
    signBit convention (-y) = !signBit convention y := by
  have some_coefficient : ∃ c ∈ coefficients y, c ≠ 0 := by
    by_contra none
    exact nonzero (LawfulCoordinates.eq_zero_of_coefficients (by simpa using none))
  obtain ⟨c, member, c_nonzero⟩ := some_coefficient
  cases convention with
  | lexicographic =>
      obtain ⟨top, found⟩ : ∃ top,
          (coefficients y).reverse.find? (fun c => decide (c ≠ 0)) = some top :=
        Option.isSome_iff_exists.1
          (List.find?_isSome.2 ⟨c, List.mem_reverse.2 member, decide_eq_true c_nonzero⟩)
      simp only [signBit, LawfulCoordinates.coefficients_neg, ← List.map_reverse, find?_map_neg,
        found, Option.map_some, Option.any_some, Residue.isLarger_neg (ne_zero_of_find? found)]
  | parity =>
      obtain ⟨low, found⟩ : ∃ low,
          (coefficients y).find? (fun c => decide (c ≠ 0)) = some low :=
        Option.isSome_iff_exists.1
          (List.find?_isSome.2 ⟨c, member, decide_eq_true c_nonzero⟩)
      simp only [signBit, LawfulCoordinates.coefficients_neg, find?_map_neg, found,
        Option.map_some, Option.any_some, Residue.isOdd_neg (ne_zero_of_find? found)]

variable {convention : SignConvention} {a b x y : F} {sign : Bool}

theorem recoverY_sound (found : recoverY convention a b x sign = .ok y) :
    y * y = weierstrass a b x ∧ signBit convention y = sign := by
  obtain ⟨root, root_found, chosen⟩ := bind_eq_ok_iff.1 found
  have square := LawfulCoordinates.mul_self_of_sqrt root_found
  split at chosen
  · rename_i matching
    cases chosen
    exact ⟨square, matching⟩
  · split at chosen
    · rename_i matching
      cases chosen
      exact ⟨by rw [neg_mul_neg, square], matching⟩
    · cases chosen

/-- The choice between a root and its opposite by the sign bit. -/
def chooseRoot (convention : SignConvention) (sign : Bool) (root : F) : Except CodecError F :=
  if signBit convention root = sign then .ok root
  else if signBit convention (-root) = sign then .ok (-root)
  else .error (.invalidEncoding .nonCanonicalSign)

theorem chooseRoot_neg [OddPrime p] (convention : SignConvention) (sign : Bool) (root : F) :
    chooseRoot convention sign (-root) = chooseRoot convention sign root := by
  by_cases zero : root = 0
  · rw [zero, neg_zero]
  · rw [chooseRoot, chooseRoot, neg_neg, signBit_neg convention zero]
    cases signBit convention root <;> cases sign <;> rfl

/-- Whichever root is found, the same ordinate is chosen. -/
theorem recoverY_eq_chooseRoot [OddPrime p] (on_curve : y * y = weierstrass a b x) :
    recoverY convention a b x sign = chooseRoot convention sign y := by
  obtain ⟨root, found⟩ := LawfulCoordinates.exists_sqrt_mul_self (p := p) y
  rw [recoverY, ← on_curve, found, ok_bind]
  rcases mul_self_eq_mul_self_iff.1 (LawfulCoordinates.mul_self_of_sqrt found) with same | opposite
  · rw [same, chooseRoot]
  · rw [opposite]
    exact chooseRoot_neg convention sign y

theorem recoverY_signBit [OddPrime p] (on_curve : y * y = weierstrass a b x) :
    recoverY convention a b x (signBit convention y) = .ok y := by
  rw [recoverY_eq_chooseRoot on_curve, chooseRoot, if_pos rfl]

theorem recoverY_error (convention : SignConvention) (a b x : F) (sign : Bool) :
    FailsWith (fun err => err = .notASquare ∨ err = .invalidEncoding .nonCanonicalSign)
      (recoverY convention a b x sign) := by
  refine .bind (fun err no_root => .inl (LawfulCoordinates.sqrt_error no_root)) fun y _ => ?_
  refine .ite (fun _ => .ok y) fun _ => ?_
  exact .ite (fun _ => .ok (-y)) fun _ => .error (.inr rfl)

end

end PairingWire
