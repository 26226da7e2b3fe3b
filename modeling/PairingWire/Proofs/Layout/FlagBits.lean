import Mathlib.Data.FinEnum
import PairingWire.Layout
import PairingWire.Proofs.Layout.Laws

/-!
The layout with flags in the first octet is canonical. Each octet splits into its three flags and
the five bits below them; for each choice of the flags the rest of the string is forced.
-/

namespace PairingWire.Layout.FlagBits

/-- The octet with the given flags above the low bits of `b`. -/
def mark (b : UInt8) (compressed infinity larger : Bool) : UInt8 :=
  b ||| ((if compressed then compressedBit else 0) ||| (if infinity then infinityBit else 0) |||
    (if larger then signBitMask else 0))

theorem mark_split : ∀ b : UInt8,
    mark (b &&& ~~~flagMask) (b &&& compressedBit ≠ 0) (b &&& infinityBit ≠ 0)
      (b &&& signBitMask ≠ 0) = b := by
  decide +kernel

theorem low_bits_free : ∀ b : UInt8, (b &&& ~~~flagMask) &&& flagMask = 0 := by
  decide +kernel

theorem mark_bits : ∀ b : UInt8, b &&& flagMask = 0 → ∀ compressed infinity larger : Bool,
    mark b compressed infinity larger &&& ~~~flagMask = b ∧
      decide (mark b compressed infinity larger &&& compressedBit ≠ 0) = compressed ∧
      decide (mark b compressed infinity larger &&& infinityBit ≠ 0) = infinity ∧
      decide (mark b compressed infinity larger &&& signBitMask ≠ 0) = larger := by
  decide +kernel

theorem flags_free_of_lt : ∀ b : UInt8, b.toNat < 0x20 → b &&& flagMask = 0 := by
  decide +kernel

section Width

variable {F : Type} {p : Nat} [Modulus p] [CoordinateField F p] [Field F] [LawfulCoordinates F]

theorem bodyWidth_ne_zero (compressed : Bool) : bodyWidth F compressed ≠ 0 := by
  have nonzero := coordinateWidth_ne_zero (F := F)
  cases compressed with
  | true => exact nonzero
  | false => exact mul_ne_zero two_ne_zero nonzero

theorem setTop_zeros (compressed : Bool) :
    setTop ((if compressed then compressedBit else 0) ||| infinityBit)
        (List.replicate (bodyWidth F compressed) 0) =
      mark 0 compressed true false :: List.replicate (bodyWidth F compressed - 1) 0 := by
  obtain ⟨n, width_eq⟩ := Nat.exists_eq_succ_of_ne_zero (bodyWidth_ne_zero (F := F) compressed)
  rw [width_eq, List.replicate_succ, setTop, Nat.succ_sub_one]
  cases compressed <;> rfl

end Width

variable {F : Type} {p : Nat} [Modulus p] [CoordinateField F p] [Field F] [DecidableEq F] {C : Curve F}

theorem decodePoint_mark {b : UInt8} (free : b &&& flagMask = 0) (compressed infinity larger : Bool)
    (rest : Bytes) :
    decodePoint C (mark b compressed infinity larger :: rest) =
      if (b :: rest).length ≠ bodyWidth F compressed then .error (.invalidEncoding .wrongLength)
      else if infinity then
        if larger ∨ ¬(b :: rest).all (· = 0) then .error (.invalidEncoding .nonCanonicalInfinity)
        else .ok (.infinity, { compressed := compressed, infinity := true })
      else if !compressed ∧ larger then .error (.invalidEncoding .signOnUncompressed)
      else decodeBody C compressed larger (b :: rest) >>= fun P =>
        .ok (P, { compressed := compressed, ySign := larger }) := by
  obtain ⟨low, compressed_eq, infinity_eq, larger_eq⟩ := mark_bits b free compressed infinity larger
  simp only [decodePoint, low, compressed_eq, infinity_eq, larger_eq, pure_eq_ok]

theorem decodeBody_compressed {larger : Bool} {body : Bytes}
    (total : body.length = coordinateWidth F) :
    decodeBody C true larger body = takeSigned C .lexicographic larger body := by
  rw [decodeBody, takeSigned, List.take_of_length_le total.le]
  rfl

theorem decodeBody_uncompressed {larger : Bool} {body : Bytes} :
    decodeBody C false larger body = takeAffine C body := rfl

/-- The forms of a string, each with the point and the flags that it stands for. -/
inductive Form (C : Curve F) : Bytes → Point F → Flags → Prop
  | infinity (compressed : Bool) :
      Form C (mark 0 compressed true false :: List.replicate (bodyWidth F compressed - 1) 0) .infinity
        { compressed := compressed, infinity := true }
  | compressed {x y : F} {b : UInt8} {rest : Bytes} : putCoordinate x = b :: rest →
      b &&& flagMask = 0 → C.Valid (.affine x y) →
      Form C (mark b true false (signBit .lexicographic y) :: rest) (.affine x y)
        { compressed := true, ySign := signBit .lexicographic y }
  | uncompressed {x y : F} {b : UInt8} {rest : Bytes} : putCoordinate x = b :: rest →
      b &&& flagMask = 0 → C.Valid (.affine x y) →
      Form C (mark b false false false :: (rest ++ putCoordinate y)) (.affine x y) {}

theorem mark_none (b : UInt8) : mark b false false false = b := UInt8.or_zero

variable {bs : Bytes} {P : Point F} {flags : Flags}

theorem Form.valid (form : Form C bs P flags) : C.Valid P := by
  cases form with
  | infinity compressed => exact C.valid_infinity
  | compressed split free valid => exact valid
  | uncompressed split free valid => exact valid

theorem form_infinity {b : UInt8} {rest : Bytes} {compressed : Bool}
    (total : (b :: rest).length = bodyWidth F compressed) (zeros : (b :: rest).all (· = 0) = true) :
    Form C (mark b compressed true false :: rest) .infinity
      { compressed := compressed, infinity := true } := by
  obtain ⟨first_zero, rest_zeros⟩ := List.cons.inj (Bytes.all_zero_iff.1 zeros)
  have length_eq : rest.length = bodyWidth F compressed - 1 := by
    rw [← total, List.length_cons, Nat.add_sub_cancel]
  rw [first_zero, rest_zeros, length_eq]
  exact .infinity compressed

variable [LawfulCoordinates F]

theorem Form.encode (format : Format) (form : Form C bs P flags) :
    encodePoint format flags.compressed P = .ok ⟨bs, flags⟩ := by
  cases form with
  | infinity compressed => rw [encodePoint, setTop_zeros]
  | compressed split free valid =>
      simp [encodePoint, split, flagsFree, free, setTop, mark]
  | uncompressed split free valid =>
      simp [encodePoint, split, flagsFree, free, mark_none]

theorem Form.length_eq (form : Form C bs P flags) : bs.length = bodyWidth F flags.compressed := by
  cases form with
  | infinity compressed =>
      rw [List.length_cons, List.length_replicate]
      exact Nat.sub_add_cancel (Nat.pos_of_ne_zero (bodyWidth_ne_zero compressed))
  | @compressed x y b rest split free valid =>
      change (b :: rest).length = coordinateWidth F
      rw [← split, length_putCoordinate]
  | @uncompressed x y b rest split free valid =>
      change ((b :: rest) ++ putCoordinate y).length = 2 * coordinateWidth F
      rw [← split, length_putCoordinate_append]

omit [LawfulCoordinates F] in
theorem Form.compressed_eq {first : UInt8} {rest : Bytes}
    (form : Form C (first :: rest) P flags) :
    flags.compressed = decide (first &&& compressedBit ≠ 0) := by
  cases form with
  | infinity compressed => exact (mark_bits 0 rfl compressed true false).2.1.symm
  | compressed split free valid => exact (mark_bits _ free true false _).2.1.symm
  | uncompressed split free valid => exact (mark_bits _ free false false false).2.1.symm

omit [DecidableEq F] in
theorem flagsFree_putCoordinate (spare : p ≤ 0x20 * 256 ^ (Residue.width p - 1)) (x : F) :
    flagsFree (putCoordinate x) = true := by
  obtain ⟨b, rest, split, bound⟩ := putCoordinate_eq_cons spare x
  rw [split]
  exact decide_eq_true (flags_free_of_lt b bound)

omit [DecidableEq F] in
theorem exists_encodePoint (spare : p ≤ 0x20 * 256 ^ (Residue.width p - 1)) (format : Format)
    (compress : Bool) (P : Point F) : ∃ written, encodePoint format compress P = .ok written := by
  cases P with
  | infinity => exact ⟨_, rfl⟩
  | affine x y =>
      rw [encodePoint, flagsFree_putCoordinate spare]
      cases compress with
      | true => exact ⟨_, rfl⟩
      | false => exact ⟨_, rfl⟩

omit [Field F] [DecidableEq F] [LawfulCoordinates F] in
theorem length_of_encodePoint {format : Format} {compress : Bool} {written : Encoded}
    (encoded : encodePoint format compress P = .ok written) :
    written.payload.length = bodyWidth F compress := by
  cases P with
  | infinity =>
      cases encoded
      rw [length_setTop, List.length_replicate]
  | affine x y =>
      cases free : flagsFree (putCoordinate x) with
      | false =>
          rw [encodePoint, free] at encoded
          cases encoded
      | true =>
          rw [encodePoint, free] at encoded
          cases compress with
          | true =>
              cases encoded
              rw [length_setTop, length_putCoordinate]
              rfl
          | false =>
              cases encoded
              exact length_putCoordinate_append x y

theorem form_of_encode {format : Format} {compress : Bool} {written : Encoded} (valid : C.Valid P)
    (encoded : encodePoint format compress P = .ok written) :
    Form C written.payload P written.flags := by
  cases P with
  | infinity =>
      rw [encodePoint, setTop_zeros] at encoded
      cases encoded
      exact .infinity compress
  | affine x y =>
      obtain ⟨b, rest, split⟩ := List.exists_cons_of_ne_nil (putCoordinate_ne_nil x)
      by_cases free : b &&& flagMask = 0
      · cases compress with
        | true =>
            simp only [encodePoint, split, flagsFree, free, setTop] at encoded
            cases encoded
            exact .compressed split free valid
        | false =>
            simp only [encodePoint, split, flagsFree, free] at encoded
            cases encoded
            have form := Form.uncompressed (C := C) split free valid
            rwa [mark_none] at form
      · simp [encodePoint, split, flagsFree, free] at encoded

theorem form_of_decode (found : decodePoint C bs = .ok (P, flags)) : Form C bs P flags := by
  cases bs with
  | nil => cases found
  | cons first rest =>
      have free := low_bits_free first
      -- The first octet is written as a mark, so that each test of a flag is a case of a Boolean.
      rw [← mark_split first] at found ⊢
      generalize first &&& ~~~flagMask = b at found free ⊢
      generalize decide (first &&& compressedBit ≠ 0) = compressed at found ⊢
      generalize decide (first &&& infinityBit ≠ 0) = infinity at found ⊢
      generalize decide (first &&& signBitMask ≠ 0) = larger at found ⊢
      rw [decodePoint_mark free] at found
      split at found
      · cases found
      · rename_i width_eq
        have total := not_not.1 width_eq
        cases infinity with
        | true =>
            rw [if_pos rfl] at found
            split at found
            · cases found
            · rename_i canonical
              cases found
              obtain ⟨no_sign, zeros⟩ := not_or.1 canonical
              rw [Bool.eq_false_iff.2 no_sign]
              exact form_infinity total (not_not.1 zeros)
        | false =>
            rw [if_neg Bool.false_ne_true] at found
            split at found
            · cases found
            · rename_i sign_allowed
              obtain ⟨Q, read, same⟩ := bind_eq_ok_iff.1 found
              cases same
              cases compressed with
              | true =>
                  rw [decodeBody_compressed total] at read
                  obtain ⟨x, y, rfl, split, rfl, valid⟩ := takeSigned_sound read
                  exact .compressed split free valid
              | false =>
                  have no_sign : larger = false := by simpa using sign_allowed
                  rw [decodeBody_uncompressed] at read
                  obtain ⟨x, y, rfl, joined, valid⟩ := takeAffine_eq_ok_iff.1 read
                  obtain ⟨b', rest', split⟩ := List.exists_cons_of_ne_nil (putCoordinate_ne_nil x)
                  rw [split, List.cons_append] at joined
                  obtain ⟨rfl, rfl⟩ := List.cons.inj joined
                  rw [no_sign]
                  exact .uncompressed split free valid

theorem Form.decode [OddPrime p] (form : Form C bs P flags) : decodePoint C bs = .ok (P, flags) := by
  have form_length := form.length_eq
  cases form with
  | infinity compressed =>
      have total : (0 :: List.replicate (bodyWidth F compressed - 1) (0 : UInt8)).length =
          bodyWidth F compressed := form_length
      rw [decodePoint_mark rfl, if_neg (not_not.2 total), if_pos rfl, if_neg (by simp)]
  | @compressed x y b rest split free valid =>
      have total : (b :: rest).length = bodyWidth F true := form_length
      rw [decodePoint_mark free, if_neg (not_not.2 total), if_neg Bool.false_ne_true,
        if_neg (by simp), decodeBody_compressed total, ← split, takeSigned_complete valid, ok_bind]
  | @uncompressed x y b rest split free valid =>
      have joined : b :: (rest ++ putCoordinate y) = putCoordinate x ++ putCoordinate y := by
        rw [split, List.cons_append]
      have total : (b :: (rest ++ putCoordinate y)).length = bodyWidth F false := form_length
      rw [decodePoint_mark free, if_neg (not_not.2 total), if_neg Bool.false_ne_true,
        if_neg (by simp), decodeBody_uncompressed, joined,
        takeAffine_eq_ok_iff.2 ⟨x, y, rfl, rfl, valid⟩, ok_bind]

theorem decodeBody_error (C : Curve F) {compressed : Bool} (larger : Bool) {body : Bytes}
    (total : body.length = bodyWidth F compressed) :
    FailsWith CodecError.OfPayload (decodeBody C compressed larger body) := by
  cases compressed with
  | true =>
      rw [decodeBody_compressed total]
      exact takeSigned_error C _ _ total
  | false =>
      rw [decodeBody_uncompressed]
      exact takeAffine_error C total

theorem decodePoint_error (C : Curve F) (bs : Bytes) :
    FailsWith CodecError.OfPayload (decodePoint C bs) := by
  cases bs with
  | nil => exact .error (.invalidEncoding _)
  | cons first rest =>
      rw [← mark_split first, decodePoint_mark (low_bits_free first)]
      refine .ite (fun _ => .error (.invalidEncoding _)) fun width_eq => ?_
      refine .ite (fun _ => ?_) fun _ => ?_
      · exact .ite (fun _ => .error (.invalidEncoding _)) fun _ => .ok _
      · refine .ite (fun _ => .error (.invalidEncoding _)) fun _ => ?_
        exact (decodeBody_error C _ (not_not.1 width_eq)).bind_ok

theorem canonical [OddPrime p] (C : Curve F) (format : Format) :
    Canonical C.Valid (encodePoint format) (decodePoint C) where
  decode_encode valid encoded := (form_of_encode valid encoded).decode
  valid_of_decode found := (form_of_decode found).valid
  decode_error bs := decodePoint_error C bs
  encode_decode found := (form_of_decode found).encode format

end PairingWire.Layout.FlagBits
