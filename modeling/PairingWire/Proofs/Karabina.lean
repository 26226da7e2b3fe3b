import PairingWire.Karabina
import PairingWire.Proofs.Target

/-!
Karabina coordinates of cyclotomic elements. Reading off the coefficients of the two relations of the
cyclotomic subgroup gives quadratic equations between the coordinates; from them the last four
coordinates determine the first two, so that decompression undoes compression. Where the third and
the fourth coordinate vanish, only the element 1 is left, because the constant of the tower is not a
square.
-/

namespace PairingWire

variable {e : Engine}

namespace Fq12

theorem IsCyclotomic.twist_mul {x : Fq12 e} (cyclotomic : x.IsCyclotomic) :
    twist e.ζ (twist e.ζ x) * x = twist e.ζ x := by
  have step := cyclotomic.step
  simpa only [pow_fieldOrder_sq] using step

theorem IsCyclotomic.conj_mul {x : Fq12 e} (cyclotomic : x.IsCyclotomic) : x.conj * x = 1 := by
  have inverse := cyclotomic.inverse
  simpa only [pow_fieldOrder_sq, twist_ζ_twist_ζ_twist_ζ] using inverse

end Fq12

namespace Karabina

theorem four_mul_ne_zero {a : Fq2 e} (nonzero : a ≠ 0) : 4 * a ≠ 0 := by
  have four : (4 : Fq2 e) = 2 * 2 := by norm_num
  rw [four]
  exact mul_ne_zero (mul_ne_zero Quadratic.two_ne_zero_of_odd Quadratic.two_ne_zero_of_odd) nonzero

/-- The equations that the two relations of the cyclotomic subgroup give for the coordinates. -/
structure Relations (k : Karabina e) : Prop where
  square0 : k.g0 * k.g0 - e.towerNonresidue * (k.g2 * k.g5) - e.towerNonresidue * (k.g3 * k.g4) +
    e.towerNonresidue * (k.g1 * k.g1) = k.g0
  square1 : k.g0 * k.g2 - 2 * (e.towerNonresidue * (k.g4 * k.g5)) +
    e.towerNonresidue * (k.g1 * k.g3) = k.g2
  square2 : k.g2 * k.g2 + e.towerNonresidue * (k.g3 * k.g3) - k.g0 * k.g4 -
    e.towerNonresidue * (k.g1 * k.g5) = k.g4
  square3 : 2 * (k.g0 * k.g1) - k.g2 * k.g4 - e.towerNonresidue * (k.g3 * k.g5) = -k.g1
  square4 : k.g0 * k.g3 + k.g1 * k.g2 - k.g4 * k.g4 - e.towerNonresidue * (k.g5 * k.g5) = -k.g3
  norm0 : k.g0 * k.g0 - 2 * (e.towerNonresidue * (k.g2 * k.g5)) +
    2 * (e.towerNonresidue * (k.g3 * k.g4)) - e.towerNonresidue * (k.g1 * k.g1) = 1
  norm2 : 2 * (k.g0 * k.g4) - k.g2 * k.g2 - 2 * (e.towerNonresidue * (k.g1 * k.g5)) +
    e.towerNonresidue * (k.g3 * k.g3) = 0
  norm4 : 2 * (k.g0 * k.g3) - 2 * (k.g1 * k.g2) + k.g4 * k.g4 -
    e.towerNonresidue * (k.g5 * k.g5) = 0

theorem relations_ofFq12 {x : Fq12 e} (cyclotomic : x.IsCyclotomic) : (ofFq12 x).Relations := by
  have step := cyclotomic.twist_mul
  have norm := cyclotomic.conj_mul
  rw [Fq12.twist_ζ_twist_ζ, Fq12.twist_ζ] at step
  simp only [Fq12.ext_iff, Fq6.ext_iff, Fq12.c0_mul, Fq12.c1_mul, Fq6.b0_add, Fq6.b1_add,
    Fq6.b2_add, Fq6.b0_mul, Fq6.b1_mul, Fq6.b2_mul, Fq6.b0_timesV, Fq6.b1_timesV,
    Fq6.b2_timesV] at step
  simp only [Fq12.ext_iff, Fq6.ext_iff, Fq12.c0_mul, Fq12.c1_mul, Fq6.b0_add, Fq6.b1_add,
    Fq6.b2_add, Fq6.b0_mul, Fq6.b1_mul, Fq6.b2_mul, Fq6.b0_timesV, Fq6.b1_timesV,
    Fq6.b2_timesV, Fq12.conj, Fq6.b0_neg, Fq6.b1_neg, Fq6.b2_neg, Fq12.c0_one, Fq6.b0_one,
    Fq6.b1_one, Fq6.b2_one] at norm
  obtain ⟨⟨step0, step2, step4⟩, step1, step3, -⟩ := step
  obtain ⟨⟨norm0, norm2, norm4⟩, -⟩ := norm
  simp only [ofFq12]
  constructor
  · linear_combination step0
  · apply mul_left_cancel₀ e.ζ_ne_zero
    linear_combination step1
  · apply mul_left_cancel₀ e.ζ_ne_one
    linear_combination step2
  · linear_combination step3
  · apply mul_left_cancel₀ e.ζ_ne_zero
    linear_combination step4
  · linear_combination norm0
  · linear_combination norm2
  · linear_combination norm4

variable {k : Karabina e}

namespace Relations

theorem four_mul (relations : k.Relations) :
    4 * (k.g1 * k.g2) = e.towerNonresidue * k.g5 * k.g5 + 3 * k.g4 * k.g4 - 2 * k.g3 := by
  linear_combination 2 * relations.square4 - relations.norm4

theorem rebuild (relations : k.Relations) : k.kept.rebuildG0 k.g1 = k.g0 := by
  simp only [KarabinaKept.rebuildG0, kept, ← Quadratic.natCast_eq_ofNat]
  push_cast
  linear_combination relations.square0 - relations.norm0

theorem g1_of_third (relations : k.Relations) (third : k.g2 ≠ 0) :
    k.g1 = (e.towerNonresidue * k.g5 * k.g5 + 3 * k.g4 * k.g4 - 2 * k.g3) * (4 * k.g2)⁻¹ := by
  rw [← div_eq_mul_inv, eq_div_iff (four_mul_ne_zero third)]
  linear_combination relations.four_mul

theorem g1_of_fourth (relations : k.Relations) (third : k.g2 = 0) (fourth : k.g3 ≠ 0) :
    k.g1 = 2 * k.g4 * k.g5 * k.g3⁻¹ := by
  have square1 := relations.square1
  rw [third] at square1
  rw [← div_eq_mul_inv, eq_div_iff fourth]
  apply mul_left_cancel₀ e.towerNonresidue_ne_zero
  linear_combination square1

theorem g4_g5_zero (relations : k.Relations) (third : k.g2 = 0) (fourth : k.g3 = 0) :
    k.g4 = 0 ∧ k.g5 = 0 := by
  have square4 := relations.square4
  have norm4 := relations.norm4
  rw [third, fourth] at square4 norm4
  have g4_zero : k.g4 = 0 := by
    apply mul_self_eq_zero.1
    apply (mul_eq_zero.1 (_ : 2 * (k.g4 * k.g4) = 0)).resolve_left Quadratic.two_ne_zero_of_odd
    linear_combination norm4 - square4
  refine ⟨g4_zero, ?_⟩
  rw [g4_zero] at norm4
  apply mul_self_eq_zero.1
  apply (mul_eq_zero.1 (_ : e.towerNonresidue * (k.g5 * k.g5) = 0)).resolve_left
    e.towerNonresidue_ne_zero
  linear_combination -norm4

/-- A second coordinate would make the constant of the tower a square. -/
theorem g1_zero (relations : k.Relations) (third : k.g2 = 0) (fourth : k.g3 = 0) : k.g1 = 0 := by
  obtain ⟨fifth, sixth⟩ := relations.g4_g5_zero third fourth
  have square3 := relations.square3
  have norm0 := relations.norm0
  rw [third, fourth, fifth, sixth] at square3 norm0
  by_contra nonzero
  -- The first coordinate is then -1/2, and the norm relation makes the constant a square.
  have first : 2 * k.g0 = -1 := by
    apply mul_right_cancel₀ nonzero
    linear_combination square3
  have two := Quadratic.two_ne_zero_of_odd (p := e.fieldOrder)
  apply e.towerNonresidue_ne_mul_self ((2 * e.ζ - 1) * (2 * k.g1)⁻¹)
  field_simp
  linear_combination (2 * k.g0 - 1) * first - 4 * norm0 - 4 * e.ζ_equation

theorem toFq12_eq_one (relations : k.Relations) (third : k.g2 = 0) (fourth : k.g3 = 0) :
    k.toFq12 = 1 := by
  obtain ⟨fifth, sixth⟩ := relations.g4_g5_zero third fourth
  have second := relations.g1_zero third fourth
  have square0 := relations.square0
  have norm0 := relations.norm0
  rw [second, third, fourth, fifth, sixth] at square0 norm0
  have first : k.g0 = 1 := by linear_combination norm0 - square0
  rw [toFq12, first, second, third, fourth, fifth, sixth]
  rfl

end Relations

end Karabina

namespace KarabinaKept

def secondCoordinate (k : KarabinaKept e) : Fq2 e :=
  let small := Quadratic.ofNat e.fieldOrder
  if k.g2 ≠ 0 then
    (e.towerNonresidue * k.g5 * k.g5 + small 3 * k.g4 * k.g4 - small 2 * k.g3) *
      (small 4 * k.g2)⁻¹
  else small 2 * k.g4 * k.g5 * k.g3⁻¹

def restore (k : KarabinaKept e) : Karabina e :=
  ⟨k.rebuildG0 k.secondCoordinate, k.secondCoordinate, k.g2, k.g3, k.g4, k.g5⟩

theorem invert_of_ne_zero {a : Fq2 e} (nonzero : a ≠ 0) : a.invert = .ok a⁻¹ := by
  rw [Quadratic.invert, if_neg nonzero]

theorem decompress_eq (k : KarabinaKept e) :
    k.decompress =
      if k.g2 = 0 ∧ k.g3 = 0 then
        if k.g4 = 0 ∧ k.g5 = 0 then .ok 1 else .error (.invalidEncoding .degenerateCyclotomic)
      else liftArithmetic k.restore.toFq12.check := by
  have small (n : Nat) : Quadratic.ofNat e.fieldOrder n = n := rfl
  by_cases third : k.g2 = 0
  · by_cases fourth : k.g3 = 0
    · rw [decompress, if_neg (not_not.2 third), if_neg (not_not.2 fourth)]
      exact (if_pos ⟨third, fourth⟩).symm
    · have second : k.secondCoordinate = 2 * k.g4 * k.g5 * k.g3⁻¹ := if_neg (not_not.2 third)
      rw [decompress, if_neg (not_not.2 third), if_pos fourth, invert_of_ne_zero fourth,
        liftArithmetic_ok, ok_bind, if_neg fun both => fourth both.2, restore, second, small]
      rfl
  · have second : k.secondCoordinate =
        (e.towerNonresidue * k.g5 * k.g5 + 3 * k.g4 * k.g4 - 2 * k.g3) * (4 * k.g2)⁻¹ :=
      if_pos third
    rw [decompress, if_pos third, if_neg fun both => third both.1]
    simp only [small, Nat.cast_ofNat]
    rw [invert_of_ne_zero (Karabina.four_mul_ne_zero third), liftArithmetic_ok, ok_bind, restore, second]

theorem secondCoordinate_kept {k : Karabina e} (relations : k.Relations)
    (some_coordinate : ¬(k.g2 = 0 ∧ k.g3 = 0)) : k.kept.secondCoordinate = k.g1 := by
  by_cases third : k.g2 = 0
  · have fourth : k.g3 ≠ 0 := fun zero => some_coordinate ⟨third, zero⟩
    rw [relations.g1_of_fourth third fourth]
    exact if_neg (not_not.2 third)
  · rw [relations.g1_of_third third]
    exact if_pos third

theorem restore_kept {k : Karabina e} (relations : k.Relations)
    (some_coordinate : ¬(k.g2 = 0 ∧ k.g3 = 0)) : k.kept.restore = k := by
  rw [restore, secondCoordinate_kept relations some_coordinate, relations.rebuild]
  rfl

/-- The kept coordinates of a cyclotomic element lead back to it, where it passes the check. -/
theorem decompress_compress {x : Fq12 e} (cyclotomic : x.IsCyclotomic) :
    x.compress.decompress = liftArithmetic x.check := by
  have relations := Karabina.relations_ofFq12 cyclotomic
  rw [decompress_eq]
  by_cases degenerate : x.compress.g2 = 0 ∧ x.compress.g3 = 0
  -- Without these two coordinates the relations leave only 1.
  · obtain ⟨third, fourth⟩ := degenerate
    have others : x.compress.g4 = 0 ∧ x.compress.g5 = 0 := relations.g4_g5_zero third fourth
    have one : x = 1 := relations.toFq12_eq_one third fourth
    rw [if_pos ⟨third, fourth⟩, if_pos others, one]
    exact (Fq12.liftArithmetic_check_eq_ok_iff.2 ⟨rfl, Fq12.one_inSubgroup⟩).symm
  · have restored : x.compress.restore = Karabina.ofFq12 x := restore_kept relations degenerate
    rw [if_neg degenerate, restored, Karabina.toFq12_ofFq12]

/-- The kept coordinates are accepted exactly of the members of the target group. -/
theorem decompress_eq_ok_iff {k : KarabinaKept e} {x : Fq12 e} :
    k.decompress = .ok x ↔ x.InSubgroup ∧ x.compress = k := by
  constructor
  · intro found
    rw [decompress_eq] at found
    split at found
    · rename_i degenerate
      split at found
      · rename_i others
        cases found
        refine ⟨Fq12.one_inSubgroup, ?_⟩
        cases k
        rw [KarabinaKept.mk.injEq]
        exact ⟨degenerate.1.symm, degenerate.2.symm, others.1.symm, others.2.symm⟩
      · cases found
    · obtain ⟨rfl, member⟩ := Fq12.liftArithmetic_check_eq_ok_iff.1 found
      exact ⟨member, rfl⟩
  · rintro ⟨member, rfl⟩
    rw [decompress_compress member.isCyclotomic]
    exact Fq12.liftArithmetic_check_eq_ok_iff.2 ⟨rfl, member⟩

theorem decompress_error (k : KarabinaKept e) :
    FailsWith (fun err => err = .invalidEncoding .degenerateCyclotomic ∨ err = .notInSubgroup)
      k.decompress := by
  rw [decompress_eq]
  refine .ite (fun _ => ?_) fun _ => ?_
  · exact .ite (fun _ => .ok 1) fun _ => .error (.inl rfl)
  · exact (Fq12.liftArithmetic_check_error _).mono fun _ => .inr

end KarabinaKept

end PairingWire
