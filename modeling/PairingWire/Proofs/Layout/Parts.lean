import PairingWire.Proofs.Layout.Ethereum
import PairingWire.Proofs.Layout.FlagBits
import PairingWire.Proofs.Layout.PointOutcome
import PairingWire.Proofs.Layout.Sec1

/-!
The parts of the strings that a layout reads as finite points: with a legal tag or legal flags, and of
full length. The parts alone are then read. A string without parts is the point at infinity, or refused
before any coordinate is read.
-/

namespace PairingWire.Layout

/-- The octets of a point that is not at infinity: an abscissa with a sign, or both coordinates. -/
inductive Parts
  | signed (convention : SignConvention) (sign : Bool) (xs : Bytes)
  | full (xs ys : Bytes)

inductive Sec1.HasParts (F : Type) {p : Nat} [CoordinateField F p] : Bytes → Parts → Prop
  | signed (odd : Bool) {xs : Bytes} : CoordinateField.degree F = 1 →
      xs.length = coordinateWidth F →
      HasParts F ((if odd then 0x03 else 0x02) :: xs) (.signed .parity odd xs)
  | full {xs ys : Bytes} : xs.length = coordinateWidth F → ys.length = coordinateWidth F →
      HasParts F (0x04 :: (xs ++ ys)) (.full xs ys)

inductive FlagBits.HasParts (F : Type) {p : Nat} [CoordinateField F p] : Bytes → Parts → Prop
  | signed {first : UInt8} {rest : Bytes} : first &&& compressedBit ≠ 0 →
      first &&& infinityBit = 0 → (first :: rest).length = coordinateWidth F →
      HasParts F (first :: rest)
        (.signed .lexicographic (first &&& signBitMask ≠ 0) ((first &&& ~~~flagMask) :: rest))
  | full {first : UInt8} {rest ys : Bytes} : first &&& compressedBit = 0 →
      first &&& infinityBit = 0 → first &&& signBitMask = 0 →
      (first :: rest).length = coordinateWidth F → ys.length = coordinateWidth F →
      HasParts F (first :: (rest ++ ys)) (.full ((first &&& ~~~flagMask) :: rest) ys)

inductive Ethereum.HasParts (F : Type) {p : Nat} [CoordinateField F p] : Bytes → Parts → Prop
  | full {xs ys : Bytes} : (∃ octet ∈ xs ++ ys, octet ≠ 0) → xs.length = coordinateWidth F →
      ys.length = coordinateWidth F → HasParts F (xs ++ ys) (.full xs ys)

/-- The outcomes of strings that hold no finite point. -/
inductive NoPoint {F : Type} : Except CodecError (Point F × Flags) → Prop
  | infinity (flags : Flags) : NoPoint (.ok (.infinity, flags))
  | invalidEncoding (fault : EncodingFault) : NoPoint (.error (.invalidEncoding fault))
  | unsupported (format : Format) (t : ElementType) : NoPoint (.error (.unsupported format t))

theorem NoPoint.ite {F : Type} {c : Prop} [Decidable c]
    {result result' : Except CodecError (Point F × Flags)} (holds : c → NoPoint result)
    (fails : ¬c → NoPoint result') : NoPoint (if c then result else result') := by
  split
  · exact holds ‹_›
  · exact fails ‹_›

variable {F : Type} {p : Nat} [Modulus p] [CoordinateField F p] [Field F] [DecidableEq F]

def Parts.take (C : Curve F) : Parts → Except CodecError (Point F × Flags)
  | signed convention sign xs => takeSigned C convention sign xs >>= fun P =>
      .ok (P, { compressed := true, ySign := sign })
  | full xs ys => takeAffine C (xs ++ ys) >>= fun P => .ok (P, {})

structure TakesParts (C : Curve F) (HasParts : Bytes → Parts → Prop)
    (decode : Bytes → Except CodecError (Point F × Flags)) : Prop where
  decode_eq {bs : Bytes} {parts : Parts} : HasParts bs parts → decode bs = parts.take C
  noPoint {bs : Bytes} : (∀ parts, ¬HasParts bs parts) → NoPoint (decode bs)

theorem exists_append {bs : Bytes} {width : Nat} (total : bs.length = 2 * width) :
    ∃ xs ys, bs = xs ++ ys ∧ xs.length = width ∧ ys.length = width := by
  refine ⟨bs.take width, bs.drop width, (List.take_append_drop width bs).symm, ?_, ?_⟩
  · rw [List.length_take]
    omega
  · rw [List.length_drop]
    omega

theorem length_append_eq {xs ys : Bytes} {width : Nat} (x_total : xs.length = width)
    (y_total : ys.length = width) : (xs ++ ys).length = 2 * width := by
  rw [List.length_append, x_total, y_total, two_mul]

theorem Sec1.takesParts (C : Curve F) :
    TakesParts C (Sec1.HasParts F) (Sec1.decodePoint C) where
  decode_eq parts := by
    cases parts with
    | signed odd degree total =>
        have tags : ∀ xs, Sec1.decodePoint C ((if odd then 0x03 else 0x02) :: xs) =
            Sec1.decodeCompressed C odd xs := by
          cases odd <;> exact fun _ => rfl
        rw [tags, Sec1.decodeCompressed_eq, if_neg (not_not.2 degree), if_neg (not_not.2 total),
          Parts.take]
    | @full xs ys x_total y_total =>
        have tags : Sec1.decodePoint C (0x04 :: (xs ++ ys)) = Sec1.decodeUncompressed C (xs ++ ys) := rfl
        rw [tags, Sec1.decodeUncompressed_eq, if_neg (not_not.2 (length_append_eq x_total y_total)),
          Parts.take]
  noPoint {bs} none := by
    cases bs with
    | nil => exact .invalidEncoding _
    | cons tag body =>
        rw [Sec1.decodePoint, Sec1.decodeCompressed_eq, Sec1.decodeUncompressed_eq]
        -- After a tag with coordinates, a body of their length would have parts.
        refine .ite (fun _ => .infinity _) fun _ => .ite (fun sign_tag => ?_) fun _ =>
          .ite (fun full_tag => ?_) fun _ => .invalidEncoding _
        · refine .ite (fun _ => .unsupported _ _) fun degree => ?_
          refine .ite (fun _ => .invalidEncoding _) fun total => ?_
          have parts := Sec1.HasParts.signed (decide (tag = 0x03)) (not_not.1 degree) (not_not.1 total)
          rcases sign_tag with rfl | rfl <;> exact absurd parts (none _)
        · refine .ite (fun _ => .invalidEncoding _) fun total => ?_
          obtain ⟨xs, ys, rfl, x_total, y_total⟩ := exists_append (not_not.1 total)
          rw [full_tag] at none
          exact absurd (.full x_total y_total) (none _)

omit [DecidableEq F] in
theorem FlagBits.exists_cons_append [LawfulCoordinates F] {first b : UInt8} {rest : Bytes}
    (total : (b :: rest).length = bodyWidth F false) :
    ∃ xs ys, rest = xs ++ ys ∧ (first :: xs).length = coordinateWidth F ∧
      ys.length = coordinateWidth F := by
  have total : (b :: rest).length = 2 * coordinateWidth F := total
  obtain ⟨xs, ys, split, x_total, y_total⟩ := exists_append total
  cases xs with
  | nil => exact absurd x_total.symm coordinateWidth_ne_zero
  | cons x xs => exact ⟨xs, ys, (List.cons.inj split).2, x_total, y_total⟩

theorem FlagBits.takesParts [LawfulCoordinates F] (C : Curve F) :
    TakesParts C (FlagBits.HasParts F) (FlagBits.decodePoint C) where
  decode_eq parts := by
    cases parts with
    | @signed first rest compressed finite total =>
        have body_total : ((first &&& ~~~flagMask) :: rest).length = coordinateWidth F := total
        simp [FlagBits.decodePoint, compressed, finite, body_total, FlagBits.bodyWidth, Parts.take,
          FlagBits.decodeBody_compressed body_total]
    | @full first rest ys plain finite no_sign x_total y_total =>
        have body_total : ((first &&& ~~~flagMask) :: (rest ++ ys)).length = 2 * coordinateWidth F :=
          length_append_eq x_total y_total
        simp [FlagBits.decodePoint, plain, finite, no_sign, body_total, FlagBits.bodyWidth,
          Parts.take, FlagBits.decodeBody_uncompressed]
  noPoint {bs} none := by
    cases bs with
    | nil => exact .invalidEncoding _
    | cons first rest =>
        rw [FlagBits.decodePoint]
        refine .ite (fun _ => .invalidEncoding _) fun total => .ite (fun _ => ?_) fun finite =>
          .ite (fun _ => .invalidEncoding _) fun sign_allowed => ?_
        · exact .ite (fun _ => .invalidEncoding _) fun _ => .infinity _
        · have finite := not_not.1 (finite ∘ decide_eq_true)
          have total := not_not.1 total
          by_cases compressed : first &&& compressedBit ≠ 0
          · rw [decide_eq_true compressed] at total
            exact absurd (.signed compressed finite total) (none _)
          · rw [decide_eq_false compressed] at total sign_allowed
            obtain ⟨xs, ys, rfl, x_total, y_total⟩ := exists_cons_append total
            refine absurd (.full (not_not.1 compressed) finite ?_ x_total y_total) (none _)
            simpa using sign_allowed

theorem Ethereum.takesParts (C : Curve F) (wide : Residue.width p = Ethereum.word) :
    TakesParts C (Ethereum.HasParts F) (Ethereum.decodePoint C) where
  decode_eq parts := by
    cases parts with
    | @full xs ys nonzero x_total y_total =>
        have some_octet : ¬(xs ++ ys).all (· = 0) = true := by
          obtain ⟨octet, member, other⟩ := nonzero
          intro zeros
          exact other (of_decide_eq_true (List.all_eq_true.1 zeros octet member))
        rw [Ethereum.decodePoint_eq, if_neg (not_not.2 wide),
          if_neg (not_not.2 (length_append_eq x_total y_total)), if_neg some_octet, Parts.take]
  noPoint {bs} none := by
    rw [Ethereum.decodePoint_eq]
    refine .ite (fun _ => .unsupported _ _) fun _ => .ite (fun _ => .invalidEncoding _) fun total =>
      .ite (fun _ => .infinity _) fun some_octet => ?_
    obtain ⟨xs, ys, rfl, x_total, y_total⟩ := exists_append (not_not.1 total)
    refine absurd (.full ?_ x_total y_total) (none _)
    simp only [List.all_eq_true, decide_eq_true_eq, not_forall] at some_octet
    obtain ⟨octet, member, other⟩ := some_octet
    exact ⟨octet, member, other⟩

end PairingWire.Layout
