import PairingWire.Proofs.Layout.Coordinate

/-!
The numbers that the octets of a coordinate stand for. A coordinate is read exactly if all of them are
below the modulus, as the one element that has them as coefficients.
-/

namespace PairingWire.Layout

/-- The numbers in an encoded coordinate, that of the highest coefficient first. -/
def coefficientValues (F : Type) {p : Nat} [CoordinateField F p] (bs : Bytes) : List Nat :=
  (pieces (Residue.width p) (CoordinateField.degree F) bs).map Bytes.toNatBE

variable {F : Type} {p : Nat} [CoordinateField F p] {bs : Bytes} {x y : F}

def Holds (bs : Bytes) (x : F) : Prop :=
  coefficientValues F bs = (coefficients x).reverse.map Residue.val

instance (bs : Bytes) (x : F) : Decidable (Holds bs x) := inferInstanceAs (Decidable (_ = _))

theorem coefficientValues_putCoordinate (x : F) :
    coefficientValues F (putCoordinate x) = (coefficients x).reverse.map Residue.val := by
  have widths : ∀ piece ∈ (coefficients x).reverse.map Residue.toBytes,
      piece.length = Residue.width p := by
    intro piece member
    obtain ⟨c, _, rfl⟩ := List.mem_map.1 member
    exact c.length_toBytes
  have count : ((coefficients x).reverse.map Residue.toBytes).length = CoordinateField.degree F := by
    rw [List.length_map, List.length_reverse, CoordinateField.length_coefficients]
  have split := pieces_flatten widths
  rw [count, ← List.flatMap_def] at split
  rw [coefficientValues, putCoordinate, split, List.map_map]
  exact List.map_congr_left fun c _ => c.toNatBE_toBytes

/-- The numbers and the length determine the octets. -/
theorem flatMap_coefficientValues (total : bs.length = coordinateWidth F) :
    (coefficientValues F bs).flatMap (Bytes.ofNatBE (Residue.width p)) = bs := by
  have back : ∀ piece ∈ pieces (Residue.width p) (CoordinateField.degree F) bs,
      (Bytes.ofNatBE (Residue.width p) ∘ Bytes.toNatBE) piece = id piece := by
    intro piece member
    rw [← length_of_mem_pieces total piece member]
    exact Bytes.ofNatBE_toNatBE piece
  rw [coefficientValues, List.flatMap_def, List.map_map, List.map_congr_left back, List.map_id,
    flatten_pieces total]

theorem holds_iff (total : bs.length = coordinateWidth F) : Holds bs x ↔ putCoordinate x = bs := by
  constructor
  · intro holds
    rw [← flatMap_coefficientValues (F := F) total, holds, List.flatMap_map, putCoordinate]
    rfl
  · rintro rfl
    exact coefficientValues_putCoordinate x

theorem takeCoordinate_of_holds (total : bs.length = coordinateWidth F) (holds : Holds bs x) :
    takeCoordinate bs = .ok x :=
  takeCoordinate_eq_ok_iff.2 ((holds_iff total).1 holds)

theorem Holds.reduced (holds : Holds bs x) : ∀ v ∈ coefficientValues F bs, v < p := by
  intro v member
  rw [holds] at member
  obtain ⟨c, _, rfl⟩ := List.mem_map.1 member
  exact c.isLt

theorem Holds.not_unreduced (holds : Holds bs x) : ¬∃ v ∈ coefficientValues F bs, p ≤ v := by
  rintro ⟨v, member, large⟩
  exact absurd (holds.reduced v member) (not_lt.2 large)

theorem Holds.not_unreduced_append {bs' : Bytes} (holds : Holds bs x) (holds' : Holds bs' y) :
    ¬∃ v ∈ coefficientValues F bs ++ coefficientValues F bs', p ≤ v := by
  rintro ⟨v, member, large⟩
  rcases List.mem_append.1 member with first | second
  · exact holds.not_unreduced ⟨v, first, large⟩
  · exact holds'.not_unreduced ⟨v, second, large⟩

theorem Holds.unique (total : bs.length = coordinateWidth F) (holds : Holds bs x)
    (holds' : Holds bs y) : y = x :=
  putCoordinate_injective (((holds_iff total).1 holds').trans ((holds_iff total).1 holds).symm)

variable [Modulus p] [Field F] [LawfulCoordinates F]

theorem exists_holds (reduced : ∀ v ∈ coefficientValues F bs, v < p) : ∃ x : F, Holds bs x := by
  let cs : List (Residue p) := (coefficientValues F bs).pmap Residue.mk reduced
  have count : cs.reverse.length = CoordinateField.degree F := by
    rw [List.length_reverse, List.length_pmap, coefficientValues, List.length_map, length_pieces]
  obtain ⟨x, same⟩ := LawfulCoordinates.exists_coefficients (F := F) count
  refine ⟨x, ?_⟩
  rw [Holds, same, List.reverse_reverse, List.map_pmap]
  exact (List.pmap_eq_self.2 fun v _ => rfl).symm

theorem takeCoordinate_of_unreduced (total : bs.length = coordinateWidth F)
    (unreduced : ∃ v ∈ coefficientValues F bs, p ≤ v) :
    (takeCoordinate bs : Except CodecError F) = .error .notReduced := by
  cases outcome : (takeCoordinate bs : Except CodecError F) with
  | ok x =>
      have holds := (holds_iff total).2 (takeCoordinate_eq_ok_iff.1 outcome)
      exact absurd unreduced holds.not_unreduced
  | error err => rw [takeCoordinate_error total outcome]

theorem exists_unreduced_or_holds (F : Type) {p : Nat} [CoordinateField F p] [Modulus p] [Field F]
    [LawfulCoordinates F] (bs : Bytes) :
    (∃ v ∈ coefficientValues F bs, p ≤ v) ∨ ∃ x : F, Holds bs x := by
  by_cases unreduced : ∃ v ∈ coefficientValues F bs, p ≤ v
  · exact .inl unreduced
  · refine .inr (exists_holds fun v member => ?_)
    exact not_le.1 fun large => unreduced ⟨v, member, large⟩

end PairingWire.Layout
