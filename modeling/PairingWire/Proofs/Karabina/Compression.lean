import PairingWire.Proofs.Karabina
import PairingWire.Proofs.Pairing

/-!
Karabina compression on the whole cyclotomic subgroup. The two coordinates that are left out are rebuilt
by the formula of each branch, elements are told apart by the four that are kept, and what comes back is
the element, or the refusal of an element outside the target group, and never another fault.
-/

namespace PairingWire

variable {e : Engine} {x y : Fq12 e}

namespace Fq12

theorem check_eq_ite (x : Fq12 e) :
    liftArithmetic x.check =
      if x ^ e.groupOrder = 1 then .ok x else .error .notInSubgroup := by
  by_cases member : x.InSubgroup
  · rw [if_pos (inSubgroup_iff_pow.1 member)]
    exact liftArithmetic_check_eq_ok_iff.2 ⟨rfl, member⟩
  · rw [if_neg fun total => member (inSubgroup_iff_pow.2 total), check, if_neg member]
    rfl

theorem compress_injective (left : x.IsCyclotomic) (right : y.IsCyclotomic)
    (same : x.compress = y.compress) : x = y := by
  have relations_x := Karabina.relations_ofFq12 left
  have relations_y := Karabina.relations_ofFq12 right
  by_cases degenerate : x.compress.g2 = 0 ∧ x.compress.g3 = 0
  · have one_x : x = 1 := relations_x.toFq12_eq_one degenerate.1 degenerate.2
    rw [same] at degenerate
    have one_y : y = 1 := relations_y.toFq12_eq_one degenerate.1 degenerate.2
    rw [one_x, one_y]
  · have restored_x : x.compress.restore = Karabina.ofFq12 x :=
      KarabinaKept.restore_kept relations_x degenerate
    rw [same] at degenerate restored_x
    have restored_y : y.compress.restore = Karabina.ofFq12 y :=
      KarabinaKept.restore_kept relations_y degenerate
    rw [← Karabina.toFq12_ofFq12 x, ← restored_x, restored_y, Karabina.toFq12_ofFq12]

end Fq12

/--
For every cyclotomic element the branch that its kept coordinates lead to rebuilds the other two, and
decompression gives the element back exactly if it is in the target group; elsewhere its membership is
what is refused. No two of them have the same kept coordinates, and whatever is decompressed is a member
with the coordinates given.
-/
theorem cyclotomic_compression_exact (e : Engine) :
    (∀ x : Fq12 e, x ^ e.groupOrder = 1 → x ^ (e.fieldOrder ^ 4 - e.fieldOrder ^ 2 + 1) = 1) ∧
    (∀ x : Fq12 e, x ^ (e.fieldOrder ^ 4 - e.fieldOrder ^ 2 + 1) = 1 →
      let full := Karabina.ofFq12 x
      let k := x.compress
      (k.g2 ≠ 0 →
        (e.towerNonresidue * k.g5 * k.g5 + 3 * k.g4 * k.g4 - 2 * k.g3) * (4 * k.g2)⁻¹ = full.g1 ∧
        e.towerNonresidue * (2 * full.g1 * full.g1 + k.g2 * k.g5 - 3 * k.g3 * k.g4) + 1 =
          full.g0) ∧
      (k.g2 = 0 → k.g3 ≠ 0 →
        2 * k.g4 * k.g5 * k.g3⁻¹ = full.g1 ∧
        e.towerNonresidue * (2 * full.g1 * full.g1 + k.g2 * k.g5 - 3 * k.g3 * k.g4) + 1 =
          full.g0) ∧
      (k.g2 = 0 → k.g3 = 0 → k.g4 = 0 ∧ k.g5 = 0 ∧ x = 1) ∧
      k.decompress = if x ^ e.groupOrder = 1 then .ok x else .error .notInSubgroup) ∧
    (∀ x y : Fq12 e, x ^ (e.fieldOrder ^ 4 - e.fieldOrder ^ 2 + 1) = 1 →
      y ^ (e.fieldOrder ^ 4 - e.fieldOrder ^ 2 + 1) = 1 → x.compress = y.compress → x = y) ∧
    (∀ (k : KarabinaKept e) (x : Fq12 e), k.decompress = .ok x →
      x ^ e.groupOrder = 1 ∧ x.compress = k) := by
  refine ⟨?_, ?_, ?_, ?_⟩
  · intro x total
    exact (Fq12.inSubgroup_iff_pow.2 total).isCyclotomic
  · intro x cyclotomic
    have relations := Karabina.relations_ofFq12 cyclotomic
    refine ⟨?_, ?_, ?_, ?_⟩
    · intro third
      exact ⟨(relations.g1_of_third third).symm, relations.rebuild⟩
    · intro third fourth
      exact ⟨(relations.g1_of_fourth third fourth).symm, relations.rebuild⟩
    · intro third fourth
      obtain ⟨fifth, sixth⟩ := relations.g4_g5_zero third fourth
      exact ⟨fifth, sixth, relations.toFq12_eq_one third fourth⟩
    · rw [KarabinaKept.decompress_compress cyclotomic, Fq12.check_eq_ite]
  · intro x y left right same
    exact Fq12.compress_injective left right same
  · intro k x found
    obtain ⟨member, kept⟩ := KarabinaKept.decompress_eq_ok_iff.1 found
    exact ⟨Fq12.inSubgroup_iff_pow.1 member, kept⟩

theorem generator_compression_exact :
    targetGenerator .bn254 ^
        (Engine.bn254.fieldOrder ^ 4 - Engine.bn254.fieldOrder ^ 2 + 1) = 1 ∧
      (targetGenerator .bn254).compress.decompress = .ok (targetGenerator .bn254) := by
  obtain ⟨contained, rebuilt, _, _⟩ := cyclotomic_compression_exact .bn254
  have total := Fq12.inSubgroup_iff_pow.1 (targetGenerator_inSubgroup .bn254)
  have cyclotomic := contained _ total
  refine ⟨cyclotomic, ?_⟩
  rw [(rebuilt _ cyclotomic).2.2.2, if_pos total]

end PairingWire
