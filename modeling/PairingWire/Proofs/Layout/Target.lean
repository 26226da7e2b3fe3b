import PairingWire.Element
import PairingWire.Proofs.Karabina
import PairingWire.Proofs.Layout.Laws

/-!
The two layouts of target elements are canonical: both read exactly what they write of the members of
the target group. The length of a string in Karabina coordinates tells its form.
-/

namespace PairingWire.Layout

variable {e : Engine} {bs : Bytes} {x : Fq12 e}

theorem mapM_takeCoordinate_eq_ok_iff {count : Nat} {cs : List (Fq2 e)}
    (total : bs.length = count * coordinateWidth (Fq2 e)) :
    (pieces (coordinateWidth (Fq2 e)) count bs).mapM (takeCoordinate (F := Fq2 e)) = .ok cs ↔
      cs.length = count ∧ cs.flatMap putCoordinate = bs :=
  mapM_pieces_eq_ok_iff takeCoordinate_eq_ok_iff length_putCoordinate total

namespace Cyclotomic

variable {flags : Flags}

def assemble : List (Fq2 e) → Except CodecError (Fq12 e × Flags)
  | [g0, g1, g2, g3, g4, g5] => do
    let x ← liftArithmetic (Fq12.check (Karabina.toFq12 ⟨g0, g1, g2, g3, g4, g5⟩))
    return (x, Cyclotomic.flags false x)
  | [g2, g3, g4, g5] => do
    let x ← KarabinaKept.decompress ⟨g2, g3, g4, g5⟩
    return (x, Cyclotomic.flags true x)
  | _ => .error (.invalidEncoding .wrongLength)

theorem decodeTarget_eq (e : Engine) (bs : Bytes) :
    decodeTarget e bs =
      if bs.length ≠ 6 * coordinateWidth (Fq2 e) ∧ bs.length ≠ 4 * coordinateWidth (Fq2 e) then
        .error (.invalidEncoding .wrongLength)
      else
        (pieces (coordinateWidth (Fq2 e)) (bs.length / coordinateWidth (Fq2 e)) bs).mapM
          (takeCoordinate (F := Fq2 e)) >>= assemble := rfl

def written (compress : Bool) (x : Fq12 e) : List (Fq2 e) :=
  if compress then x.compress.toList else (Karabina.ofFq12 x).toList

theorem assemble_eq_ok_iff {cs : List (Fq2 e)} :
    assemble cs = .ok (x, flags) ↔
      x.InSubgroup ∧ ∃ compress, cs = written compress x ∧ flags = Cyclotomic.flags compress x := by
  constructor
  · intro found
    unfold assemble at found
    split at found
    · obtain ⟨y, checked, same⟩ := bind_eq_ok_iff.1 found
      obtain ⟨rfl, member⟩ := Fq12.liftArithmetic_check_eq_ok_iff.1 checked
      cases same
      exact ⟨member, false, rfl, rfl⟩
    · obtain ⟨y, decompressed, same⟩ := bind_eq_ok_iff.1 found
      obtain ⟨member, kept⟩ := KarabinaKept.decompress_eq_ok_iff.1 decompressed
      cases same
      refine ⟨member, true, ?_, rfl⟩
      rw [written, if_pos rfl, kept]
      rfl
    · cases found
  · rintro ⟨member, compress, rfl, rfl⟩
    cases compress with
    | false =>
        have checked := Fq12.liftArithmetic_check_eq_ok_iff.2 ⟨rfl, member⟩
        change liftArithmetic x.check >>= _ = _
        rw [checked]
        rfl
    | true =>
        have decompressed := KarabinaKept.decompress_eq_ok_iff.2 ⟨member, rfl⟩
        change x.compress.decompress >>= _ = _
        rw [decompressed]
        rfl

theorem assemble_error (cs : List (Fq2 e)) : FailsWith CodecError.OfPayload (assemble cs) := by
  unfold assemble
  split
  · refine .bind_ok ((Fq12.liftArithmetic_check_error _).mono ?_)
    rintro _ rfl
    exact .notInSubgroup
  · refine .bind_ok ((KarabinaKept.decompress_error _).mono ?_)
    rintro _ (rfl | rfl)
    · exact .invalidEncoding _
    · exact .notInSubgroup
  · exact .error (.invalidEncoding _)

theorem length_written (compress : Bool) (x : Fq12 e) :
    (written compress x).length = if compress then 4 else 6 := by
  cases compress <;> rfl

theorem payload_encodeTarget (compress : Bool) (x : Fq12 e) :
    encodeTarget compress x =
      ⟨(written compress x).flatMap putCoordinate, Cyclotomic.flags compress x⟩ := rfl

theorem length_eq_mul_width (form : ¬(bs.length ≠ 6 * coordinateWidth (Fq2 e) ∧
    bs.length ≠ 4 * coordinateWidth (Fq2 e))) :
    bs.length = bs.length / coordinateWidth (Fq2 e) * coordinateWidth (Fq2 e) := by
  have divides : coordinateWidth (Fq2 e) ∣ bs.length := by
    rcases not_and_or.1 form with six | four
    · exact ⟨6, by rw [not_not.1 six, mul_comm]⟩
    · exact ⟨4, by rw [not_not.1 four, mul_comm]⟩
  exact (Nat.div_mul_cancel divides).symm

theorem decodeTarget_eq_ok_iff :
    decodeTarget e bs = .ok (x, flags) ↔
      x.InSubgroup ∧ ∃ compress, encodeTarget compress x = ⟨bs, flags⟩ := by
  rw [decodeTarget_eq]
  constructor
  · intro found
    split at found
    · cases found
    · rename_i form
      obtain ⟨cs, read, assembled⟩ := bind_eq_ok_iff.1 found
      obtain ⟨_, rfl⟩ := (mapM_takeCoordinate_eq_ok_iff (length_eq_mul_width form)).1 read
      obtain ⟨member, compress, rfl, rfl⟩ := assemble_eq_ok_iff.1 assembled
      exact ⟨member, compress, rfl⟩
  · rintro ⟨member, compress, encoded⟩
    rw [payload_encodeTarget] at encoded
    obtain ⟨rfl, rfl⟩ := Encoded.mk.inj encoded
    have total := length_flatMap_eq_mul length_putCoordinate (written compress x)
    have form : ¬(((written compress x).flatMap putCoordinate).length ≠ 6 * coordinateWidth (Fq2 e) ∧
        ((written compress x).flatMap putCoordinate).length ≠ 4 * coordinateWidth (Fq2 e)) := by
      rw [total, length_written]
      cases compress <;> simp
    have count : (written compress x).length =
        ((written compress x).flatMap putCoordinate).length / coordinateWidth (Fq2 e) := by
      rw [total, Nat.mul_div_cancel _ (Nat.pos_of_ne_zero coordinateWidth_ne_zero)]
    rw [if_neg form, (mapM_takeCoordinate_eq_ok_iff (length_eq_mul_width form)).2 ⟨count, rfl⟩,
      ok_bind]
    exact assemble_eq_ok_iff.2 ⟨member, compress, rfl, rfl⟩

theorem length_of_decodeTarget (found : decodeTarget e bs = .ok (x, flags)) :
    bs.length = (if flags.compressed then 4 else 6) * coordinateWidth (Fq2 e) := by
  obtain ⟨_, compress, encoded⟩ := decodeTarget_eq_ok_iff.1 found
  rw [payload_encodeTarget] at encoded
  obtain ⟨rfl, rfl⟩ := Encoded.mk.inj encoded
  rw [length_flatMap_eq_mul length_putCoordinate, length_written]
  rfl

theorem decodeTarget_error (e : Engine) (bs : Bytes) :
    FailsWith CodecError.OfPayload (decodeTarget e bs) := by
  rw [decodeTarget_eq]
  refine .ite (fun _ => .error (.invalidEncoding _)) fun form => ?_
  refine .bind (.mapM fun piece member => ?_) fun cs _ => assemble_error cs
  have width_eq := length_of_mem_pieces (length_eq_mul_width form) piece member
  refine (takeCoordinate_error width_eq).mono ?_
  rintro _ rfl
  exact .notReduced

theorem canonical (e : Engine) :
    Canonical (Fq12.InSubgroup (e := e)) (fun compress x => .ok (encodeTarget compress x))
      (decodeTarget e) where
  decode_encode member encoded := by
    cases encoded
    exact decodeTarget_eq_ok_iff.2 ⟨member, _, rfl⟩
  valid_of_decode found := (decodeTarget_eq_ok_iff.1 found).1
  decode_error bs := decodeTarget_error e bs
  encode_decode {_ _ flags} found := by
    obtain ⟨_, compress, encoded⟩ := decodeTarget_eq_ok_iff.1 found
    have same : flags.compressed = compress := by
      rw [← (Encoded.mk.inj encoded).2]
      rfl
    rw [same, encoded]

end Cyclotomic

namespace Native

def takeReversed (piece : Bytes) : Except CodecError (Fq2 e) := takeCoordinate piece.reverse

theorem takeReversed_eq_ok_iff {c : Fq2 e} :
    takeReversed bs = .ok c ↔ (putCoordinate c).reverse = bs := by
  rw [takeReversed, takeCoordinate_eq_ok_iff, List.reverse_eq_iff]

def assemble (surplus : Bool) : List (Fq2 e) → Except ArithmeticError (Fq12 e)
  | [t0, t1, t2, t3, t4, t5] =>
    if surplus then .error (.native .trailing) else Fq12.check ⟨⟨t0, t1, t2⟩, ⟨t3, t4, t5⟩⟩
  | _ => .error (.native .target)

theorem decodeTarget_eq (e : Engine) (bs : Bytes) :
    decodeTarget e bs =
      if bs.length < 6 * coordinateWidth (Fq2 e) then .error (.native .target)
      else
        ((pieces (coordinateWidth (Fq2 e)) 6 bs).mapM (takeReversed (e := e))).mapError
          (fun _ => .native .target) >>= assemble (bs.length ≠ 6 * coordinateWidth (Fq2 e)) := by
  unfold decodeTarget assemble
  simp only [decide_eq_true_eq]
  rfl

theorem assemble_eq_ok_iff {surplus : Bool} {cs : List (Fq2 e)} :
    assemble surplus cs = .ok x ↔ surplus = false ∧ x.InSubgroup ∧ x.coefficients = cs := by
  constructor
  · intro found
    unfold assemble at found
    split at found
    · split at found
      · cases found
      · rename_i exact_length
        obtain ⟨rfl, member⟩ := Fq12.check_eq_ok_iff.1 found
        exact ⟨Bool.eq_false_iff.2 exact_length, member, rfl⟩
    · cases found
  · rintro ⟨rfl, member, rfl⟩
    exact Fq12.check_eq_ok_iff.2 ⟨rfl, member⟩

theorem assemble_error (surplus : Bool) (cs : List (Fq2 e)) :
    FailsWith (fun cause => (∃ fault, cause = .native fault) ∨ cause = .notInSubgroup)
      (assemble surplus cs) := by
  unfold assemble
  split
  · refine .ite (fun _ => .error (.inl ⟨_, rfl⟩)) fun _ => ?_
    exact (Fq12.check_error _).mono fun _ => .inr
  · exact .error (.inl ⟨_, rfl⟩)

theorem mapM_takeReversed_eq_ok_iff {cs : List (Fq2 e)}
    (total : bs.length = 6 * coordinateWidth (Fq2 e)) :
    (pieces (coordinateWidth (Fq2 e)) 6 bs).mapM (takeReversed (e := e)) = .ok cs ↔
      cs.length = 6 ∧ (cs.flatMap fun c => (putCoordinate c).reverse) = bs :=
  mapM_pieces_eq_ok_iff takeReversed_eq_ok_iff
    (fun c => List.length_reverse.trans (length_putCoordinate c)) total

theorem length_encodeTarget (x : Fq12 e) :
    (encodeTarget x).length = 6 * coordinateWidth (Fq2 e) :=
  length_flatMap_eq_mul (fun c => List.length_reverse.trans (length_putCoordinate c)) x.coefficients

theorem take_encodeTarget (x : Fq12 e) {kept : Nat} (fits : kept ≤ Residue.width e.fieldOrder) :
    (encodeTarget x).take kept = Bytes.ofNatLE kept x.c0.b0.c0.val := by
  have inside : kept ≤ (putCoordinate x.c0.b0).reverse.length := by
    rw [List.length_reverse, length_putCoordinate]
    exact Nat.le_trans fits (Nat.le_mul_of_pos_left _ Nat.two_pos)
  have front : encodeTarget x = (putCoordinate x.c0.b0).reverse ++
      [x.c0.b1, x.c0.b2, x.c1.b0, x.c1.b1, x.c1.b2].flatMap fun c => (putCoordinate c).reverse := rfl
  rw [front, List.take_append_of_le_length inside, take_reverse_putCoordinate rfl fits]

theorem decodeTarget_eq_ok_iff :
    decodeTarget e bs = .ok x ↔ x.InSubgroup ∧ encodeTarget x = bs := by
  rw [decodeTarget_eq]
  constructor
  · intro found
    split at found
    · cases found
    · obtain ⟨cs, read, assembled⟩ := bind_eq_ok_iff.1 found
      obtain ⟨exact_length, member, rfl⟩ := assemble_eq_ok_iff.1 assembled
      have total := not_not.1 (decide_eq_false_iff_not.1 exact_length)
      exact ⟨member, ((mapM_takeReversed_eq_ok_iff total).1 (mapError_eq_ok_iff.1 read)).2⟩
  · rintro ⟨member, rfl⟩
    have total := length_encodeTarget x
    have read := mapError_eq_ok_iff (f := fun _ => ArithmeticError.native .target) |>.2
      ((mapM_takeReversed_eq_ok_iff total).2 ⟨rfl, rfl⟩ :
        _ = Except.ok (ε := CodecError) x.coefficients)
    rw [if_neg (not_lt.2 total.ge), read, ok_bind]
    exact assemble_eq_ok_iff.2 ⟨by simp [total], member, rfl⟩

theorem length_of_decodeTarget (found : decodeTarget e bs = .ok x) :
    bs.length = 6 * coordinateWidth (Fq2 e) := by
  obtain ⟨_, rfl⟩ := decodeTarget_eq_ok_iff.1 found
  exact length_encodeTarget x

/-- A string of another length is refused before the group is asked for. -/
theorem decodeTarget_of_length_ne (other : bs.length ≠ 6 * coordinateWidth (Fq2 e)) :
    ∃ fault, decodeTarget e bs = .error (.native fault) := by
  cases read : decodeTarget e bs with
  | ok x => exact absurd (length_of_decodeTarget read) other
  | error cause =>
      rw [decodeTarget_eq] at read
      split at read
      · cases read
        exact ⟨.target, rfl⟩
      · rcases bind_eq_error_iff.1 read with unread | ⟨cs, _, refused⟩
        · obtain ⟨_, _, rfl⟩ := mapError_eq_error_iff.1 unread
          exact ⟨.target, rfl⟩
        · unfold assemble at refused
          split at refused
          · rw [if_pos (decide_eq_true other)] at refused
            cases refused
            exact ⟨.trailing, rfl⟩
          · cases refused
            exact ⟨.target, rfl⟩

theorem decodeTarget_error (e : Engine) (bs : Bytes) :
    FailsWith (fun cause => (∃ fault, cause = .native fault) ∨ cause = .notInSubgroup)
      (decodeTarget e bs) := by
  rw [decodeTarget_eq]
  refine .ite (fun _ => .error (.inl ⟨_, rfl⟩)) fun _ => ?_
  exact .bind (.mapError fun _ _ => .inl ⟨_, rfl⟩) fun cs _ => assemble_error _ cs

end Native

end PairingWire.Layout
