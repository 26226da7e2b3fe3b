import PairingWire.Layout
import PairingWire.Proofs.Coordinate.Sign
import PairingWire.Proofs.Outcome
import PairingWire.Proofs.Residue

/-!
Coordinates on the wire: what is read is exactly what is written. A string of pieces of one width is
read piece by piece, and the first octet of a coordinate leaves the bits free that lie above the
modulus.
-/

namespace PairingWire

namespace Layout

theorem length_pieces (width count : Nat) (bs : Bytes) : (pieces width count bs).length = count := by
  induction count generalizing bs with
  | zero => rfl
  | succ count ih => rw [pieces, List.length_cons, ih]

theorem flatten_pieces {width count : Nat} {bs : Bytes} (total : bs.length = count * width) :
    (pieces width count bs).flatten = bs := by
  induction count generalizing bs with
  | zero =>
      rw [zero_mul, List.length_eq_zero_iff] at total
      rw [total]
      rfl
  | succ count ih =>
      have rest : (bs.drop width).length = count * width := by
        rw [List.length_drop, total, Nat.succ_mul, Nat.add_sub_cancel]
      rw [pieces, List.flatten_cons, ih rest, List.take_append_drop]

theorem length_of_mem_pieces {width count : Nat} {bs : Bytes} (total : bs.length = count * width) :
    ∀ piece ∈ pieces width count bs, piece.length = width := by
  induction count generalizing bs with
  | zero =>
      intro piece member
      cases member
  | succ count ih =>
      intro piece member
      rw [Nat.succ_mul] at total
      rcases List.mem_cons.1 member with rfl | member
      · rw [List.length_take]
        omega
      · refine ih ?_ piece member
        rw [List.length_drop]
        omega

theorem pieces_flatten {width : Nat} {ps : List Bytes} (widths : ∀ p ∈ ps, p.length = width) :
    pieces width ps.length ps.flatten = ps := by
  induction ps with
  | nil => rfl
  | cons p ps ih =>
      have first := widths p List.mem_cons_self
      have rest := ih fun q member => widths q (List.mem_cons_of_mem p member)
      rw [List.length_cons, List.flatten_cons, pieces, ← first, List.take_left, List.drop_left, first,
        rest]

theorem length_flatMap_eq_mul {V : Type} {width : Nat} {write : V → Bytes}
    (width_eq : ∀ x, (write x).length = width) (xs : List V) :
    (xs.flatMap write).length = xs.length * width := by
  induction xs with
  | nil => rw [List.flatMap_nil, List.length_nil, List.length_nil, zero_mul]
  | cons x xs ih =>
      rw [List.flatMap_cons, List.length_append, ih, width_eq, List.length_cons, Nat.succ_mul,
        Nat.add_comm]

/-- Reading the pieces of a string is the inverse of writing all values one after the other. -/
theorem mapM_pieces_eq_ok_iff {ε V : Type} {width count : Nat} {read : Bytes → Except ε V}
    {write : V → Bytes} (inverse : ∀ {bs x}, read bs = .ok x ↔ write x = bs)
    (width_eq : ∀ x, (write x).length = width) {bs : Bytes} (total : bs.length = count * width)
    {xs : List V} :
    (pieces width count bs).mapM read = .ok xs ↔ xs.length = count ∧ xs.flatMap write = bs := by
  rw [mapM_eq_ok_iff]
  constructor
  · intro each
    have written : xs.map write = pieces width count bs := by
      rw [← List.forall₂_eq_eq_eq, List.forall₂_map_left_iff, List.forall₂_iff_get]
      rw [List.forall₂_iff_get] at each
      exact ⟨each.1.symm, fun i h h' => inverse.1 (each.2 i h' h)⟩
    refine ⟨?_, ?_⟩
    · rw [← length_pieces width count bs, ← written, List.length_map]
    · rw [List.flatMap_def, written, flatten_pieces total]
  · rintro ⟨length_eq, written⟩
    have split : pieces width count bs = xs.map write := by
      have widths : ∀ p ∈ xs.map write, p.length = width := by
        intro p member
        obtain ⟨x, _, rfl⟩ := List.mem_map.1 member
        exact width_eq x
      rw [← written, ← length_eq, List.flatMap_def, ← List.length_map (f := write)]
      exact pieces_flatten widths
    rw [split, List.forall₂_map_left_iff, List.forall₂_same]
    exact fun x _ => inverse.2 rfl

theorem length_setTop (bits : UInt8) (bs : Bytes) : (setTop bits bs).length = bs.length := by
  cases bs <;> rfl

section

variable {F : Type} {p : Nat} [CoordinateField F p]

theorem length_putCoordinate (x : F) : (putCoordinate x).length = coordinateWidth F := by
  rw [putCoordinate, length_flatMap_eq_mul Residue.length_toBytes, List.length_reverse,
    CoordinateField.length_coefficients, coordinateWidth]

theorem length_putCoordinate_append (x y : F) :
    (putCoordinate x ++ putCoordinate y).length = 2 * coordinateWidth F := by
  rw [List.length_append, length_putCoordinate, length_putCoordinate, two_mul]

theorem take_reverse_putCoordinate {x : F} {c : Residue p} {cs : List (Residue p)}
    (split : coefficients x = c :: cs) {kept : Nat} (fits : kept ≤ Residue.width p) :
    (putCoordinate x).reverse.take kept = Bytes.ofNatLE kept c.val := by
  have front : (putCoordinate x).reverse =
      Bytes.ofNatLE (Residue.width p) c.val ++ (cs.reverse.flatMap Residue.toBytes).reverse := by
    rw [putCoordinate, split, List.reverse_cons, List.flatMap_append, List.reverse_append,
      List.flatMap_singleton, Residue.reverse_toBytes]
  rw [front, List.take_append_of_le_length (by rwa [Bytes.length_ofNatLE]), Bytes.take_ofNatLE fits]

theorem liftArithmetic_ofBytes_eq_ok_iff {bs : Bytes} {a : Residue p} :
    liftArithmetic (Residue.ofBytes p bs) = .ok a ↔ a.toBytes = bs :=
  liftArithmetic_eq_ok_iff.trans Residue.ofBytes_eq_ok_iff

theorem takeCoordinate_eq_ok_iff {bs : Bytes} {x : F} :
    takeCoordinate bs = .ok x ↔ putCoordinate x = bs := by
  by_cases width_eq : bs.length = coordinateWidth F
  · rw [takeCoordinate, if_neg (not_not.2 width_eq), bind_eq_ok_iff]
    simp only [mapM_pieces_eq_ok_iff liftArithmetic_ofBytes_eq_ok_iff Residue.length_toBytes width_eq,
      liftArithmetic_eq_ok_iff, CoordinateField.ofCoefficients_eq_ok_iff, putCoordinate]
    constructor
    · rintro ⟨cs, ⟨_, written⟩, same⟩
      rw [← same, List.reverse_reverse, written]
    · intro written
      refine ⟨(coefficients x).reverse, ⟨?_, written⟩, List.reverse_reverse _⟩
      rw [List.length_reverse, CoordinateField.length_coefficients]
  · constructor
    · intro found
      rw [takeCoordinate, if_pos width_eq] at found
      cases found
    · intro written
      exact absurd (written ▸ length_putCoordinate x) width_eq

theorem takeCoordinate_putCoordinate (x : F) : takeCoordinate (putCoordinate x) = .ok x :=
  takeCoordinate_eq_ok_iff.2 rfl

theorem putCoordinate_injective {x y : F} (same : putCoordinate x = putCoordinate y) : x = y := by
  have read := takeCoordinate_putCoordinate x
  rw [same, takeCoordinate_putCoordinate] at read
  exact (Except.ok.inj read).symm

variable [Modulus p] [Field F] [LawfulCoordinates F]

theorem takeCoordinate_error {bs : Bytes} (width_eq : bs.length = coordinateWidth F) :
    FailsWith (fun err => err = .notReduced) (takeCoordinate bs : Except CodecError F) := by
  rw [takeCoordinate, if_neg (not_not.2 width_eq)]
  refine .bind (.mapM fun piece member => .mapError fun cause unreduced => ?_) fun cs found => ?_
  · rw [Residue.ofBytes_error (length_of_mem_pieces width_eq piece member) unreduced]
    rfl
  · have count := ((mapM_pieces_eq_ok_iff liftArithmetic_ofBytes_eq_ok_iff
      Residue.length_toBytes width_eq).1 found).1
    rw [← List.length_reverse] at count
    obtain ⟨x, same⟩ := LawfulCoordinates.exists_coefficients (F := F) count
    rw [CoordinateField.ofCoefficients_eq_ok_iff.2 same.symm]
    exact .ok x

theorem putCoordinate_zero : putCoordinate (0 : F) = List.replicate (coordinateWidth F) 0 := by
  have zeros : ∀ octet ∈ putCoordinate (0 : F), octet = 0 := by
    intro octet member
    obtain ⟨c, c_member, octet_member⟩ := List.mem_flatMap.1 member
    rw [LawfulCoordinates.coefficients_zero c (List.mem_reverse.1 c_member), Residue.toBytes,
      Residue.val_zero, Bytes.ofNatBE_zero] at octet_member
    exact List.eq_of_mem_replicate octet_member
  exact List.eq_replicate_iff.2 ⟨length_putCoordinate 0, zeros⟩

theorem coordinateWidth_ne_zero : coordinateWidth F ≠ 0 :=
  mul_ne_zero (LawfulCoordinates.degree_pos (F := F)).ne' (Residue.width_ne_zero p)

theorem putCoordinate_ne_nil (x : F) : putCoordinate x ≠ [] := by
  rw [ne_eq, ← List.length_eq_zero_iff, length_putCoordinate]
  exact coordinateWidth_ne_zero

/-- The first octet of a coordinate leaves the bits free that no residue reaches. -/
theorem putCoordinate_eq_cons {k : Nat}
    (small : p ≤ k * 256 ^ (Residue.width p - 1)) (x : F) :
    ∃ first rest, putCoordinate x = first :: rest ∧ first.toNat < k := by
  have some_coefficient : (coefficients x).reverse ≠ [] := by
    rw [ne_eq, List.reverse_eq_nil_iff, ← List.length_eq_zero_iff,
      CoordinateField.length_coefficients]
    exact (LawfulCoordinates.degree_pos (F := F)).ne'
  obtain ⟨c, cs, split⟩ := List.exists_cons_of_ne_nil some_coefficient
  have some_octet : c.toBytes ≠ [] := by
    rw [ne_eq, ← List.length_eq_zero_iff, Residue.length_toBytes]
    exact Residue.width_ne_zero p
  obtain ⟨first, rest, written⟩ := List.exists_cons_of_ne_nil some_octet
  refine ⟨first, rest ++ cs.flatMap Residue.toBytes, ?_, Residue.toNat_head_lt small written⟩
  rw [putCoordinate, split, List.flatMap_cons, written, List.cons_append]

end

end Layout

end PairingWire
