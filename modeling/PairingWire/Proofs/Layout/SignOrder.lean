import PairingWire.Element
import PairingWire.Proofs.Layout.FlagBits
import PairingWire.Proofs.Primality

/-!
The sign bits as the octets show them. Of two opposite coordinates the larger one is written with the
greater string, and the lowest bit of a residue is that of its last octet. So the sign bit of a compressed
point follows from the full forms of the point and of its opposite.
-/

namespace PairingWire.Layout

section Order

variable {p : Nat} [Modulus p] [OddPrime p]

theorem compare_neg_ne_eq {c : Residue p} (nonzero : c ≠ 0) : c.compare (-c) ≠ .eq := by
  have odd := Residue.odd_modulus p
  have opposite := Residue.val_neg_of_ne_zero nonzero
  have bound := c.isLt
  rw [Residue.compare, ne_eq, Nat.compare_eq_eq]
  omega

/--
Coefficients against their negations, the highest first: those that are zero are written alike, and the
first other one decides.
-/
theorem compare_flatMap_neg (cs : List (Residue p)) :
    compare (cs.flatMap Residue.toBytes) ((cs.map Neg.neg).flatMap Residue.toBytes) =
      (cs.find? fun c => decide (c ≠ 0)).elim .eq fun c => c.compare (-c) := by
  induction cs with
  | nil => rfl
  | cons c cs ih =>
      have same : c.toBytes.length = (-c).toBytes.length := by
        rw [Residue.length_toBytes, Residue.length_toBytes]
      rw [List.map_cons, List.flatMap_cons, List.flatMap_cons, Bytes.compare_append same, ih,
        ← Residue.compare_eq_compare_toBytes]
      by_cases zero : c = 0
      · have alike : c.compare (-c) = .eq := by
          rw [zero, neg_zero]
          exact Nat.compare_eq_eq.2 rfl
        rw [alike, List.find?_cons_of_neg (by simpa using zero)]
        rfl
      · rw [List.find?_cons_of_pos (by simpa using zero)]
        cases order : c.compare (-c) with
        | lt => exact order.symm
        | gt => exact order.symm
        | eq => exact absurd order (compare_neg_ne_eq zero)

variable {F : Type} [Field F] [CoordinateField F p] [LawfulCoordinates F]

omit [OddPrime p] in
theorem putCoordinate_neg (y : F) :
    putCoordinate (-y) = ((coefficients y).reverse.map Neg.neg).flatMap Residue.toBytes := by
  rw [putCoordinate, LawfulCoordinates.coefficients_neg, List.map_reverse]

theorem signBit_lexicographic (y : F) :
    signBit .lexicographic y = decide (compare (putCoordinate y) (putCoordinate (-y)) = .gt) := by
  rw [putCoordinate_neg, putCoordinate, compare_flatMap_neg, signBit]
  cases (coefficients y).reverse.find? fun c => decide (c ≠ 0) with
  | none => rfl
  | some c => rfl

theorem signBit_lexicographic_iff (y : F) :
    signBit .lexicographic y = true ↔ compare (putCoordinate y) (putCoordinate (-y)) = .gt := by
  rw [signBit_lexicographic, decide_eq_true_iff]

/-- The sort bit of the short form, from the full forms of the point and of its opposite. -/
theorem FlagBits.sortBit_of_encode {format : Format} {P : Point F} {full : Encoded}
    (encoded : FlagBits.encodePoint format false P = .ok full) :
    ∃ opposite short first rest, FlagBits.encodePoint format false P.neg = .ok opposite ∧
      FlagBits.encodePoint format true P = .ok short ∧ short.payload = first :: rest ∧
      (first &&& 0x20 ≠ 0 ↔ compare full.payload opposite.payload = .gt) := by
  cases P with
  | infinity =>
      obtain ⟨n, width_eq⟩ := Nat.exists_eq_succ_of_ne_zero (FlagBits.bodyWidth_ne_zero (F := F) true)
      -- The point at infinity is its own opposite, and its short form has no sort bit.
      have same : compare full.payload full.payload = .eq := Std.ReflOrd.compare_self
      refine ⟨full, ⟨0xC0 :: List.replicate n 0, { compressed := true, infinity := true }⟩, 0xC0,
        List.replicate n 0, encoded, ?_, rfl, ?_⟩
      · rw [FlagBits.encodePoint, width_eq, List.replicate_succ]
        rfl
      · rw [same]
        decide
  | affine x y =>
      obtain ⟨b, rest, split⟩ := List.exists_cons_of_ne_nil (putCoordinate_ne_nil x)
      by_cases free : b &&& FlagBits.flagMask = 0
      · obtain ⟨_, _, _, marked⟩ := FlagBits.mark_bits b free true false (signBit .lexicographic y)
        have full_eq : full.payload = putCoordinate x ++ putCoordinate y := by
          simp only [FlagBits.encodePoint, split, FlagBits.flagsFree, free] at encoded
          cases encoded
          rw [split]
        refine ⟨⟨putCoordinate x ++ putCoordinate (-y), {}⟩,
          ⟨FlagBits.mark b true false (signBit .lexicographic y) :: rest,
            { compressed := true, ySign := signBit .lexicographic y }⟩, _, _, ?_, ?_, rfl, ?_⟩
        · simp [Point.neg, FlagBits.encodePoint, split, FlagBits.flagsFree, free]
        · simp [FlagBits.encodePoint, split, FlagBits.flagsFree, free, setTop, FlagBits.mark]
        -- The abscissas are alike, so that the ordinates decide.
        · rw [full_eq, Bytes.compare_append rfl, Std.ReflOrd.compare_self, Ordering.eq_then,
            ← signBit_lexicographic_iff]
          exact decide_eq_true_iff.symm.trans (Bool.eq_iff_iff.1 marked)
      · simp [FlagBits.encodePoint, split, FlagBits.flagsFree, free] at encoded

end Order

section Parity

variable {p : Nat} [Modulus p]

theorem getLast?_toBytes (a : Residue p) :
    ∃ last, a.toBytes.getLast? = some last ∧ last.toNat.testBit 0 = a.isOdd := by
  obtain ⟨n, width_eq⟩ := Nat.exists_eq_succ_of_ne_zero (Residue.width_ne_zero p)
  refine ⟨UInt8.ofNat a.val, ?_, ?_⟩
  · rw [List.getLast?_eq_head?_reverse, Residue.reverse_toBytes, width_eq, Bytes.ofNatLE,
      List.head?_cons]
  · rw [Nat.testBit_zero, UInt8.toNat_ofNat', Residue.isOdd, decide_eq_decide]
    omega

theorem putCoordinate_residue (y : Residue p) : putCoordinate y = y.toBytes :=
  List.append_nil y.toBytes

theorem signBit_parity_residue (y : Residue p) : signBit .parity y = y.isOdd := by
  change (([y] : List (Residue p)).find? fun c => decide (c ≠ 0)).any Residue.isOdd = y.isOdd
  by_cases zero : y = 0
  · rw [List.find?_cons_of_neg (by simpa using zero), zero, Residue.isOdd, Residue.val_zero]
    rfl
  · rw [List.find?_cons_of_pos (by simpa using zero)]
    rfl

theorem Sec1.tag_of_encode (x y : Residue p) :
    ∃ full last short, Sec1.encodePoint false (.affine x y) = .ok full ∧
      full.payload.getLast? = some last ∧ Sec1.encodePoint true (.affine x y) = .ok short ∧
      short.payload.head? = some (if last.toNat.testBit 0 then 0x03 else 0x02) := by
  obtain ⟨last, ends, bit⟩ := getLast?_toBytes y
  refine ⟨⟨0x04 :: (putCoordinate x ++ putCoordinate y), {}⟩, last,
    ⟨(if signBit .parity y then 0x03 else 0x02) :: putCoordinate x,
      { compressed := true, ySign := signBit .parity y }⟩, rfl, ?_, rfl, ?_⟩
  · rw [← List.cons_append, List.getLast?_append, putCoordinate_residue y, ends]
    rfl
  · rw [List.head?_cons, signBit_parity_residue, bit]

end Parity

structure OrderShowsSign (e : Engine) (F : Type) {p : Nat} [Modulus p] [CoordinateField F p] [Neg F] :
    Prop where
  larger (y : F) :
    signBit .lexicographic y = true ↔ compare (putCoordinate y) (putCoordinate (-y)) = .gt
  sortBit {f : Format} {P : Point F} {full : Encoded} : f = .zcash ∨ f = .ietf →
    encodePoint e f false P = .ok full →
    ∃ opposite short first rest, encodePoint e f false P.neg = .ok opposite ∧
      encodePoint e f true P = .ok short ∧ short.payload = first :: rest ∧
      (first &&& 0x20 ≠ 0 ↔ compare full.payload opposite.payload = .gt)

structure LastOctetShowsParity (e : Engine) : Prop where
  lowest (y : Fq e) :
    ∃ last, (putCoordinate y).getLast? = some last ∧ signBit .parity y = last.toNat.testBit 0
  tag (x y : Fq e) :
    ∃ full last short, encodePoint e .sec1 false (.affine x y) = .ok full ∧
      full.payload.getLast? = some last ∧ encodePoint e .sec1 true (.affine x y) = .ok short ∧
      short.payload.head? = some (if last.toNat.testBit 0 then 0x03 else 0x02)

theorem orderShowsSign (e : Engine) (F : Type) {p : Nat} [Modulus p] [OddPrime p] [Field F]
    [CoordinateField F p] [LawfulCoordinates F] : OrderShowsSign e F where
  larger := signBit_lexicographic_iff
  sortBit flagged encoded := by
    rcases flagged with rfl | rfl
    · exact FlagBits.sortBit_of_encode encoded
    · exact FlagBits.sortBit_of_encode encoded

theorem lastOctetShowsParity (e : Engine) : LastOctetShowsParity e where
  lowest y := by
    obtain ⟨last, ends, bit⟩ := getLast?_toBytes y
    refine ⟨last, ?_, ?_⟩
    · rw [putCoordinate_residue, ends]
    · rw [signBit_parity_residue, bit]
  tag := Sec1.tag_of_encode

/--
Coordinates are written with the highest coefficient first, and in both coordinate fields of either engine
the order of what is written for opposite ordinates shows their signs; in the base field the last octet
shows the parity.
-/
theorem signs_shown_by_octets (e : Engine) :
    (∀ y : Fq e, putCoordinate y = y.toBytes) ∧
    (∀ y : Fq2 e, putCoordinate y = y.c1.toBytes ++ y.c0.toBytes) ∧
    OrderShowsSign e (Fq e) ∧ OrderShowsSign e (Fq2 e) ∧ LastOctetShowsParity e := by
  refine ⟨putCoordinate_residue, fun y => ?_, orderShowsSign e _, orderShowsSign e _,
    lastOctetShowsParity e⟩
  change y.c1.toBytes ++ (y.c0.toBytes ++ []) = _
  rw [List.append_nil]

end PairingWire.Layout
