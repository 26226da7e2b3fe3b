import PairingWire.Proofs.Extent
import PairingWire.Proofs.RoundTrip

/-!
Frames need no length in front of them. No accepted frame continues another one, so a stream of frames
splits in one way only, and no string is accepted both as a frame and without its header.
-/

namespace PairingWire.Element

variable {e : Engine} {f : Format} {t : ElementType} {x : Element e} {bs bs' : Bytes}

def IsFrame (e : Engine) (bs : Bytes) : Prop := ∃ t x, decode e true t bs = .ok x

theorem refused_of_not_isFrame (other : ¬IsFrame e bs) (t : ElementType) :
    ∃ err, decode e true t bs = .error err := by
  apply exists_error_of_ne_ok
  intro x found
  exact other ⟨t, x, found⟩

theorem IsFrame.eq_of_prefix (frame : IsFrame e bs) (frame' : IsFrame e bs') (start : bs <+: bs') :
    bs = bs' := by
  obtain ⟨t, x, found⟩ := frame
  obtain ⟨t', x', found'⟩ := frame'
  obtain ⟨more, rfl⟩ := start
  obtain ⟨header, payload, parsed, rfl, length_eq⟩ := length_of_decodeFramed found
  obtain ⟨header', payload', parsed', rfl, length_eq'⟩ := length_of_decodeFramed found'
  -- Both have the header of the shorter, and it fixes the length of either payload.
  rw [Header.parse_append parsed more] at parsed'
  cases parsed'
  rw [List.length_append, length_eq] at length_eq'
  have none_left : more = [] := by
    apply List.eq_nil_of_length_eq_zero
    omega
  rw [none_left, List.append_nil]

theorem IsFrame.ne_nil (frame : IsFrame e bs) : bs ≠ [] := by
  obtain ⟨t, x, found⟩ := frame
  rintro rfl
  cases found

/-- A stream of frames splits into them in one way. -/
theorem IsFrame.eq_of_flatten {frames frames' : List Bytes} (each : ∀ b ∈ frames, IsFrame e b)
    (each' : ∀ b ∈ frames', IsFrame e b) (same : frames.flatten = frames'.flatten) :
    frames = frames' := by
  induction frames generalizing frames' with
  | nil =>
      cases frames' with
      | nil => rfl
      | cons b' rest' =>
          have empty := (List.append_eq_nil_iff.1 same.symm).1
          exact absurd empty (each' b' List.mem_cons_self).ne_nil
  | cons b rest ih =>
      cases frames' with
      | nil =>
          have empty := (List.append_eq_nil_iff.1 same).1
          exact absurd empty (each b List.mem_cons_self).ne_nil
      | cons b' rest' =>
          have first : IsFrame e b := each b List.mem_cons_self
          have first' : IsFrame e b' := each' b' List.mem_cons_self
          have start : b <+: b' ++ rest'.flatten := ⟨rest.flatten, same⟩
          -- Both streams start with a frame, and one of the two frames is the start of the other.
          have same_first : b = b' := by
            rcases List.prefix_or_prefix_of_prefix start (List.prefix_append b' _) with short | long
            · exact first.eq_of_prefix first' short
            · exact (first'.eq_of_prefix first long).symm
          rw [same_first, List.flatten_cons, List.flatten_cons] at same
          have same_rest := ih (fun c member => each c (List.mem_cons_of_mem b member))
            (fun c member => each' c (List.mem_cons_of_mem b' member)) (List.append_cancel_left same)
          rw [same_first, same_rest]

/-- No frame is accepted with octets behind it or without its last ones, and streams split uniquely. -/
theorem frames_prefix_free (e : Engine) :
    (∀ (t t' : ElementType) (bs more : Bytes) (x : Element e), decode e true t bs = .ok x →
      more ≠ [] → ∃ err, decode e true t' (bs ++ more) = .error err) ∧
    (∀ (t t' : ElementType) (bs : Bytes) (kept : Nat) (x : Element e), decode e true t bs = .ok x →
      kept < bs.length → ∃ err, decode e true t' (bs.take kept) = .error err) ∧
    (∀ frames frames' : List Bytes, (∀ b ∈ frames, IsFrame e b) → (∀ b ∈ frames', IsFrame e b) →
      frames.flatten = frames'.flatten → frames = frames') := by
  refine ⟨?_, ?_, ?_⟩
  · intro t t' bs more x found some_more
    apply refused_of_not_isFrame
    intro longer
    have same := IsFrame.eq_of_prefix ⟨t, x, found⟩ longer (List.prefix_append bs more)
    exact some_more (List.self_eq_append_right.1 same)
  · intro t t' bs kept x found cut
    apply refused_of_not_isFrame
    intro shorter
    have same := shorter.eq_of_prefix ⟨t, x, found⟩ (List.take_prefix kept bs)
    have length_eq := congrArg List.length same
    rw [List.length_take] at length_eq
    omega
  · intro frames frames' each each' same
    exact IsFrame.eq_of_flatten each each' same

def unityFrame : Bytes := [0x4F, 0x41, 0x42, 0x45, 2, 0xB4, 0x6F, 4, 0xD0] ++ List.replicate 256 0

theorem unity_isMember : (gt 1 : Element .bn254).IsMember := isMember_iff.2 Fq12.one_inSubgroup

set_option maxRecDepth 2000 in
theorem encode_unity : (gt 1 : Element .bn254).encode {} = .ok unityFrame := rfl

theorem decode_unityFrame : decode .bn254 true .gt unityFrame = .ok (gt 1) := by
  have read := decodeFramed_of_encode unity_isMember rfl encode_unity
  exact read

theorem unityFrame_prefix_free :
    decode .bn254 true .gt unityFrame = .ok (gt 1) ∧
    (∃ err, decode .bn254 true .gt (unityFrame ++ List.replicate 128 0) = .error err) ∧
    ∃ err, decode .bn254 true .gt (unityFrame.take 264) = .error err := by
  have found := decode_unityFrame
  have cut : 264 < unityFrame.length := by
    rw [unityFrame, List.length_append, List.length_replicate]
    decide
  refine ⟨found, ?_, ?_⟩
  · exact (frames_prefix_free .bn254).1 .gt .gt unityFrame _ _ found (by decide)
  · exact (frames_prefix_free .bn254).2.1 .gt .gt unityFrame 264 _ found cut

theorem IsFrame.decodeBare_ne_ok (frame : IsFrame e bs) : decodeBare e f t bs ≠ .ok x := by
  intro bare
  obtain ⟨t', x', framed⟩ := frame
  have small := length_mod_of_decodeBare bare
  have large := length_mod_of_decodeFramed framed
  omega

/-- Whatever is accepted as a frame is refused as a bare payload, and the other way round. -/
theorem framed_bare_disjoint (e : Engine) (bs : Bytes) :
    (∀ (t : ElementType) (x : Element e), decode e true t bs = .ok x → ∀ t' : ElementType,
      (∀ f, ∃ err, decodeBare e f t' bs = .error err) ∧ ∃ err, decode e false t' bs = .error err) ∧
    (∀ (f : Format) (t : ElementType) (x : Element e), decodeBare e f t bs = .ok x →
      ∀ t' : ElementType, ∃ err, decode e true t' bs = .error err) ∧
    (∀ (t : ElementType) (x : Element e), decode e false t bs = .ok x →
      ∀ t' : ElementType, ∃ err, decode e true t' bs = .error err) := by
  refine ⟨?_, ?_, ?_⟩
  · intro t x found t'
    have frame : IsFrame e bs := ⟨t, x, found⟩
    constructor
    · intro f
      exact exists_error_of_ne_ok fun x' => frame.decodeBare_ne_ok
    · exact exists_error_of_ne_ok fun x' => frame.decodeBare_ne_ok (f := .auto)
  · intro f t x found t'
    apply refused_of_not_isFrame
    intro frame
    exact frame.decodeBare_ne_ok found
  · intro t x found t'
    apply refused_of_not_isFrame
    intro frame
    exact frame.decodeBare_ne_ok (f := .auto) found

theorem unityFrame_not_bare :
    (∃ err, decodeBare .bn254 .ietf .gt unityFrame = .error err) ∧
    decode .bn254 false .gt (List.replicate 256 0) = .ok (gt 1) ∧
    ∃ err, decode .bn254 true .gt (List.replicate 256 0) = .error err := by
  have written := encode_bare_of_encode rfl encode_unity
  have bare := decodeBare_of_encode unity_isMember rfl written
  refine ⟨?_, bare, ?_⟩
  · exact ((framed_bare_disjoint .bn254 unityFrame).1 .gt _ decode_unityFrame .gt).1 .ietf
  · exact (framed_bare_disjoint .bn254 _).2.2 .gt _ bare .gt

end PairingWire.Element
