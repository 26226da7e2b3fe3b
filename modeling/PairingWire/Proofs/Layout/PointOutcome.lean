import PairingWire.Proofs.Coordinate.Recovery
import PairingWire.Proofs.Curve.GroupLaw
import PairingWire.Proofs.Layout.Laws
import PairingWire.Proofs.Layout.Values

/-!
What comes of the octets of a point, in the order of the tests: coefficients that are not reduced, no
point of the curve, a point outside the subgroup, or a point that is read. On curves without a point of
ordinate zero each abscissa and sign have at most one point, and the sign is never refused.
-/

namespace PairingWire.Layout

section Specification

variable {F : Type} {p : Nat} [CoordinateField F p] [Field F] [DecidableEq F]

/-- The point of the group with these coordinates is read if `r` times it is zero, and refused if not. -/
def SubgroupDecides (C : Curve F) (r : Nat) (P : Point F) (flags : Flags)
    (result : Except CodecError (Point F × Flags)) : Prop :=
  ∃ Q : C.toAffine.Point, Curve.ofGroup Q = P ∧
    (result = .error .notInSubgroup ↔ r • Q ≠ 0) ∧ (result = .ok (P, flags) ↔ r • Q = 0)

structure SignedOutcome [Modulus p] (C : Curve F) (r : Nat) (convention : SignConvention)
    (sign : Bool) (xs : Bytes) (flags : Flags) (result : Except CodecError (Point F × Flags)) :
    Prop where
  notReduced_iff : result = .error .notReduced ↔ ∃ v ∈ coefficientValues F xs, p ≤ v
  exists_abscissa : (∀ v ∈ coefficientValues F xs, v < p) → ∃ x : F, Holds xs x
  notASquare_iff {x : F} : Holds xs x →
    (result = .error .notASquare ↔ ¬∃ y, y ^ 2 = x ^ 3 + C.b)
  existsUnique_ordinate {x : F} : Holds xs x → (∃ y, y ^ 2 = x ^ 3 + C.b) →
    ∃! y, y ^ 2 = x ^ 3 + C.b ∧ signBit convention y = sign
  of_onCurve {x y : F} : Holds xs x → y ^ 2 = x ^ 3 + C.b → signBit convention y = sign →
    SubgroupDecides C r (.affine x y) flags result
  ne_notOnCurve : result ≠ .error .notOnCurve
  ne_nonCanonicalSign : result ≠ .error (.invalidEncoding .nonCanonicalSign)

structure FullOutcome (C : Curve F) (r : Nat) (xs ys : Bytes) (flags : Flags)
    (result : Except CodecError (Point F × Flags)) : Prop where
  notReduced_iff : result = .error .notReduced ↔
    ∃ v ∈ coefficientValues F xs ++ coefficientValues F ys, p ≤ v
  exists_coordinates : (∀ v ∈ coefficientValues F xs ++ coefficientValues F ys, v < p) →
    ∃ x y : F, Holds xs x ∧ Holds ys y
  notOnCurve_iff {x y : F} : Holds xs x → Holds ys y →
    (result = .error .notOnCurve ↔ y ^ 2 ≠ x ^ 3 + C.b)
  of_onCurve {x y : F} : Holds xs x → Holds ys y → y ^ 2 = x ^ 3 + C.b →
    SubgroupDecides C r (.affine x y) flags result
  ne_notASquare : result ≠ .error .notASquare

end Specification

variable {F : Type} {p : Nat} [CoordinateField F p] [Field F] [DecidableEq F] {C : Curve F} {r : Nat}
  {convention : SignConvention} {sign : Bool} {xs ys : Bytes} {x y : F} {flags : Flags}
  {result : Except CodecError (Point F × Flags)}

theorem SubgroupDecides.ne_error {P : Point F} {err : CodecError}
    (decides : SubgroupDecides C r P flags result) (other : err ≠ .notInSubgroup) :
    result ≠ .error err := by
  obtain ⟨Q, _, refused, read⟩ := decides
  by_cases zero : r • Q = 0
  · rw [read.2 zero]
    exact nofun
  · rw [refused.2 zero]
    exact fun same => other (Except.error.inj same).symm

theorem subgroupDecides [C.Smooth] (on_curve : y * y = weierstrass C.a C.b x) (flags : Flags) :
    SubgroupDecides C C.order (.affine x y) flags
      (liftArithmetic (C.check (.affine x y)) >>= fun P => .ok (P, flags)) := by
  obtain ⟨Q, same⟩ := Curve.exists_ofGroup (P := .affine x y) on_curve
  refine ⟨Q, same, ?_⟩
  rw [← same, Curve.liftArithmetic_check_ofGroup]
  by_cases zero : C.order • Q = 0 <;> simp [zero]

omit [CoordinateField F p] [DecidableEq F] in
theorem onCurve_iff (a_zero : C.a = 0) : y ^ 2 = x ^ 3 + C.b ↔ y * y = weierstrass C.a C.b x := by
  rw [weierstrass_eq, a_zero, zero_mul, add_zero, sq]

namespace FullOutcome

theorem of_unreduced
    (unreduced : ∃ v ∈ coefficientValues F xs ++ coefficientValues F ys, p ≤ v) :
    FullOutcome C r xs ys flags (.error .notReduced) where
  notReduced_iff := iff_of_true rfl unreduced
  exists_coordinates reduced := by
    obtain ⟨v, member, large⟩ := unreduced
    exact absurd (reduced v member) (not_lt.2 large)
  notOnCurve_iff holds_x holds_y := absurd unreduced (holds_x.not_unreduced_append holds_y)
  of_onCurve holds_x holds_y := absurd unreduced (holds_x.not_unreduced_append holds_y)
  ne_notASquare := nofun

theorem of_offCurve (x_total : xs.length = coordinateWidth F)
    (y_total : ys.length = coordinateWidth F) (holds_x : Holds xs x) (holds_y : Holds ys y)
    (off : y ^ 2 ≠ x ^ 3 + C.b) : FullOutcome C r xs ys flags (.error .notOnCurve) where
  notReduced_iff := iff_of_false nofun (holds_x.not_unreduced_append holds_y)
  exists_coordinates _ := ⟨x, y, holds_x, holds_y⟩
  notOnCurve_iff holds_x' holds_y' := by
    rw [holds_x.unique x_total holds_x', holds_y.unique y_total holds_y']
    exact iff_of_true rfl off
  of_onCurve holds_x' holds_y' on := by
    rw [holds_x.unique x_total holds_x', holds_y.unique y_total holds_y'] at on
    exact absurd on off
  ne_notASquare := nofun

theorem of_decides (x_total : xs.length = coordinateWidth F)
    (y_total : ys.length = coordinateWidth F) (holds_x : Holds xs x) (holds_y : Holds ys y)
    (on : y ^ 2 = x ^ 3 + C.b) (decides : SubgroupDecides C r (.affine x y) flags result) :
    FullOutcome C r xs ys flags result where
  notReduced_iff := iff_of_false (decides.ne_error nofun) (holds_x.not_unreduced_append holds_y)
  exists_coordinates _ := ⟨x, y, holds_x, holds_y⟩
  notOnCurve_iff holds_x' holds_y' := by
    rw [holds_x.unique x_total holds_x', holds_y.unique y_total holds_y']
    exact iff_of_false (decides.ne_error nofun) (not_not.2 on)
  of_onCurve holds_x' holds_y' _ := by
    rw [holds_x.unique x_total holds_x', holds_y.unique y_total holds_y']
    exact decides
  ne_notASquare := decides.ne_error nofun

end FullOutcome

variable [Modulus p]

omit [DecidableEq F] in
/-- The sign leaves one ordinate above an abscissa. -/
theorem ordinate_unique [LawfulCoordinates F] [OddPrime p] {y' : F} (on : y ^ 2 = x ^ 3 + C.b)
    (carries : signBit convention y = sign) (on' : y' ^ 2 = x ^ 3 + C.b)
    (carries' : signBit convention y' = sign) : y' = y := by
  have square : y' * y' = y * y := by rw [← sq, ← sq, on, on']
  exact eq_of_signBit_eq square (carries'.trans carries.symm)

namespace SignedOutcome

theorem of_unreduced (unreduced : ∃ v ∈ coefficientValues F xs, p ≤ v) :
    SignedOutcome C r convention sign xs flags (.error .notReduced) where
  notReduced_iff := iff_of_true rfl unreduced
  exists_abscissa reduced := by
    obtain ⟨v, member, large⟩ := unreduced
    exact absurd (reduced v member) (not_lt.2 large)
  notASquare_iff holds := absurd unreduced holds.not_unreduced
  existsUnique_ordinate holds := absurd unreduced holds.not_unreduced
  of_onCurve holds := absurd unreduced holds.not_unreduced
  ne_notOnCurve := nofun
  ne_nonCanonicalSign := nofun

theorem of_rootless (total : xs.length = coordinateWidth F) (holds : Holds xs x)
    (rootless : ¬∃ y, y ^ 2 = x ^ 3 + C.b) :
    SignedOutcome C r convention sign xs flags (.error .notASquare) where
  notReduced_iff := iff_of_false nofun holds.not_unreduced
  exists_abscissa _ := ⟨x, holds⟩
  notASquare_iff holds' := by
    rw [holds.unique total holds']
    exact iff_of_true rfl rootless
  existsUnique_ordinate holds' root := by
    rw [holds.unique total holds'] at root
    exact absurd root rootless
  of_onCurve holds' on := by
    rw [holds.unique total holds'] at on
    exact absurd ⟨_, on⟩ rootless
  ne_notOnCurve := nofun
  ne_nonCanonicalSign := nofun

theorem of_decides [LawfulCoordinates F] [OddPrime p] (total : xs.length = coordinateWidth F)
    (holds : Holds xs x) (on : y ^ 2 = x ^ 3 + C.b) (carries : signBit convention y = sign)
    (decides : SubgroupDecides C r (.affine x y) flags result) :
    SignedOutcome C r convention sign xs flags result where
  notReduced_iff := iff_of_false (decides.ne_error nofun) holds.not_unreduced
  exists_abscissa _ := ⟨x, holds⟩
  notASquare_iff holds' := by
    rw [holds.unique total holds']
    exact iff_of_false (decides.ne_error nofun) (not_not.2 ⟨y, on⟩)
  existsUnique_ordinate holds' _ := by
    rw [holds.unique total holds']
    exact ⟨y, ⟨on, carries⟩, fun y' root => ordinate_unique on carries root.1 root.2⟩
  of_onCurve holds' on' carries' := by
    obtain rfl := holds.unique total holds'
    rw [ordinate_unique on carries on' carries']
    exact decides
  ne_notOnCurve := decides.ne_error nofun
  ne_nonCanonicalSign := decides.ne_error nofun

end SignedOutcome

variable [LawfulCoordinates F]

theorem signedOutcome [OddPrime p] [C.Smooth] (a_zero : C.a = 0)
    (nowhere_zero : ∀ x, weierstrass C.a C.b x ≠ 0) (total : xs.length = coordinateWidth F) :
    SignedOutcome C C.order convention sign xs flags
      (takeSigned C convention sign xs >>= fun P => .ok (P, flags)) := by
  rcases exists_unreduced_or_holds F xs with unreduced | ⟨x, holds⟩
  · rw [takeSigned, takeCoordinate_of_unreduced total unreduced, error_bind, error_bind]
    exact .of_unreduced unreduced
  · rw [takeSigned, takeCoordinate_of_holds total holds, ok_bind]
    by_cases root : ∃ y, y * y = weierstrass C.a C.b x
    · obtain ⟨z, z_square⟩ := root
      obtain ⟨y, found, _, square, carries, _⟩ := exists_recoverY_root (nowhere_zero x) z_square
      rw [found, ok_bind, Curve.ofCoordinates]
      exact .of_decides total holds ((onCurve_iff a_zero).2 square) carries
        (subgroupDecides square flags)
    · rw [recoverY_of_rootless root, error_bind, error_bind]
      simp only [← onCurve_iff a_zero] at root
      exact .of_rootless total holds root

theorem fullOutcome [C.Smooth] (a_zero : C.a = 0) (x_total : xs.length = coordinateWidth F)
    (y_total : ys.length = coordinateWidth F) :
    FullOutcome C C.order xs ys flags
      (takeAffine C (xs ++ ys) >>= fun P => .ok (P, flags)) := by
  rw [takeAffine, List.take_left' x_total, List.drop_left' x_total]
  rcases exists_unreduced_or_holds F xs with ⟨v, member, large⟩ | ⟨x, holds_x⟩
  · rw [takeCoordinate_of_unreduced x_total ⟨v, member, large⟩, error_bind, error_bind]
    exact .of_unreduced ⟨v, List.mem_append_left _ member, large⟩
  · rw [takeCoordinate_of_holds x_total holds_x, ok_bind]
    rcases exists_unreduced_or_holds F ys with ⟨v, member, large⟩ | ⟨y, holds_y⟩
    · rw [takeCoordinate_of_unreduced y_total ⟨v, member, large⟩, error_bind, error_bind]
      exact .of_unreduced ⟨v, List.mem_append_right _ member, large⟩
    · rw [takeCoordinate_of_holds y_total holds_y, ok_bind, Curve.ofCoordinates]
      by_cases on : y ^ 2 = x ^ 3 + C.b
      · exact .of_decides x_total y_total holds_x holds_y on
          (subgroupDecides ((onCurve_iff a_zero).1 on) flags)
      · have off : ¬C.OnCurve (.affine x y) := (onCurve_iff a_zero).not.1 on
        rw [Curve.liftArithmetic_check_of_not_onCurve off, error_bind]
        exact .of_offCurve x_total y_total holds_x holds_y on

end PairingWire.Layout
