import PairingWire.Proofs.Layout.Ethereum
import PairingWire.Proofs.Layout.FlagBits
import PairingWire.Proofs.Layout.Native
import PairingWire.Proofs.Layout.Sec1
import PairingWire.Proofs.Layout.Target
import PairingWire.Proofs.Member

/-!
Payloads of elements. In every named format a payload is read back as the element that was written,
and only members of the expected type are read; but for native points, a format reads only what it
writes.
-/

namespace PairingWire

variable {e : Engine} {f : Format}

namespace Layout

section Point

variable {F : Type} [CoordinateField F e.fieldOrder] [Field F] [DecidableEq F] [LawfulCoordinates F]
  {C : Curve F}

theorem canonical_point (nonzero : C.b ≠ 0) (named : f ≠ .auto) (shared : f ≠ .legacy) :
    Canonical C.Valid (Layout.encodePoint e f) (Layout.decodePoint e C f) := by
  cases f with
  | legacy => exact absurd rfl shared
  | sec1 => exact Sec1.canonical C
  | zcash => exact FlagBits.canonical C .zcash
  | ethereum => exact Ethereum.canonical nonzero
  | ietf => exact FlagBits.canonical C .ietf
  | auto => exact absurd rfl named

theorem faithful_point (nonzero : C.b ≠ 0) (named : f ≠ .auto) :
    Faithful C.Valid (Layout.encodePoint e f) (Layout.decodePoint e C f) := by
  by_cases native : f = .legacy
  · rw [native]
    exact Native.faithful e.fieldOrder_le C
  · exact (canonical_point nonzero named native).toFaithful

end Point

theorem decodeScalar_eq_ok_iff {bs : Bytes} {s : Fr e} :
    decodeScalar f bs = .ok s ↔ encodeScalar f s = bs := by
  rw [decodeScalar, liftArithmetic_ofBytes_eq_ok_iff, encodeScalar]
  split
  · exact ⟨fun read => by rw [read, List.reverse_reverse],
      fun read => by rw [← read, List.reverse_reverse]⟩
  · exact Iff.rfl

theorem length_ite_reverse (f : Format) (bs : Bytes) :
    (if f = .legacy then bs.reverse else bs).length = bs.length := by
  split
  · exact List.length_reverse
  · rfl

theorem decodeScalar_of_length_ne {bs : Bytes} (other : bs.length ≠ Residue.width e.groupOrder) :
    (decodeScalar f bs : Except CodecError (Fr e)) = .error (.invalidEncoding .wrongLength) := by
  rw [decodeScalar, Residue.ofBytes, if_neg (by rwa [length_ite_reverse])]
  rfl

theorem decodeScalar_error (f : Format) (bs : Bytes) :
    FailsWith CodecError.OfPayload (decodeScalar f bs : Except CodecError (Fr e)) := by
  by_cases width_eq : bs.length = Residue.width e.groupOrder
  · rw [← length_ite_reverse f] at width_eq
    refine .mapError ((Residue.ofBytes_error width_eq).mono ?_)
    rintro _ rfl
    exact .notReduced
  · rw [decodeScalar_of_length_ne width_eq]
    exact .error (.invalidEncoding _)

theorem canonical_scalar (e : Engine) (f : Format) :
    Canonical (fun _ : Fr e => True) (fun _ s => .ok ⟨encodeScalar f s, {}⟩)
      (fun bs => decodeScalar f bs >>= fun s => .ok (s, {})) where
  decode_encode _ encoded := by
    cases encoded
    rw [decodeScalar_eq_ok_iff.2 rfl, ok_bind]
  valid_of_decode _ := trivial
  decode_error bs := .bind_ok (decodeScalar_error f bs)
  encode_decode found := by
    obtain ⟨s, read, same⟩ := bind_eq_ok_iff.1 found
    cases same
    rw [decodeScalar_eq_ok_iff.1 read]

theorem canonical_native_target (e : Engine) :
    Canonical (Fq12.InSubgroup (e := e)) (Layout.encodeTarget .legacy)
      (Layout.decodeTarget e .legacy) where
  decode_encode member encoded := by
    cases encoded
    rw [Layout.decodeTarget, Native.decodeTarget_eq_ok_iff.2 ⟨member, rfl⟩]
    rfl
  valid_of_decode found := by
    obtain ⟨x, read, same⟩ := bind_eq_ok_iff.1 found
    cases same
    exact (Native.decodeTarget_eq_ok_iff.1 (liftArithmetic_eq_ok_iff.1 read)).1
  decode_error bs := by
    refine .bind_ok (.mapError ((Native.decodeTarget_error e bs).mono ?_))
    rintro _ (⟨fault, rfl⟩ | rfl)
    · exact .invalidEncoding _
    · exact .notInSubgroup
  encode_decode found := by
    obtain ⟨x, read, same⟩ := bind_eq_ok_iff.1 found
    cases same
    obtain ⟨_, rfl⟩ := Native.decodeTarget_eq_ok_iff.1 (liftArithmetic_eq_ok_iff.1 read)
    rfl

theorem canonical_unsupported {V : Type} {Valid : V → Prop} (f : Format) (t : ElementType) :
    Canonical Valid (fun _ _ => .error (.unsupported f t)) (fun _ => .error (.unsupported f t)) where
  decode_encode _ encoded := nomatch encoded
  valid_of_decode found := nomatch found
  decode_error _ := .error (.unsupported f t)
  encode_decode found := nomatch found

theorem canonical_target (named : f ≠ .auto) :
    Canonical (Fq12.InSubgroup (e := e)) (Layout.encodeTarget f) (Layout.decodeTarget e f) := by
  cases f with
  | legacy => exact canonical_native_target e
  | sec1 => exact canonical_unsupported .sec1 .gt
  | zcash => exact canonical_unsupported .zcash .gt
  | ethereum => exact canonical_unsupported .ethereum .gt
  | ietf => exact Cyclotomic.canonical e
  | auto => exact absurd rfl named

end Layout

namespace Element

open Layout

variable {t : ElementType}

def MemberOf (t : ElementType) (x : Element e) : Prop := x.type = t ∧ x.Valid

theorem memberOf_zp (x : Element e) : x.MemberOf .zp ↔ ∃ s, zp s = x ∧ True := by
  cases x <;> simp [MemberOf, type, Valid]

theorem memberOf_g1 (x : Element e) : x.MemberOf .g1 ↔ ∃ P, g1 P = x ∧ e.g1.Valid P := by
  cases x <;> simp [MemberOf, type, Valid]

theorem memberOf_g2 (x : Element e) : x.MemberOf .g2 ↔ ∃ Q, g2 Q = x ∧ e.g2.Valid Q := by
  cases x <;> simp [MemberOf, type, Valid]

theorem memberOf_gt (x : Element e) : x.MemberOf .gt ↔ ∃ y, gt y = x ∧ y.InSubgroup := by
  cases x <;> simp [MemberOf, type, Valid]

theorem decodePayload_of_supports (supported : f.supports e.curveId t = true) :
    decodePayload e f t =
      match t with
      | .zp => fun bs => decodeScalar f bs >>= fun s => .ok (zp s, {})
      | .g1 => fun bs => decodePoint e e.g1 f bs >>= fun r => .ok (g1 r.1, r.2)
      | .g2 => fun bs => decodePoint e e.g2 f bs >>= fun r => .ok (g2 r.1, r.2)
      | .gt => fun bs => decodeTarget e f bs >>= fun r => .ok (gt r.1, r.2) := by
  funext bs
  cases t <;> simp only [decodePayload, supported, Bool.not_true, Bool.false_eq_true, if_false] <;> rfl

theorem canonical_scalar_payload (f : Format) :
    Canonical (MemberOf (e := e) .zp) (fun compress x => x.encodePayload f compress)
      (fun bs => decodeScalar f bs >>= fun s => .ok (zp s, {})) := by
  have laws : Canonical (MemberOf (e := e) .zp) (fun compress x => x.encodePayload f compress)
      (fun bs => (decodeScalar f bs >>= fun s => .ok (s, {})) >>= fun r => .ok (zp r.1, r.2)) :=
    (canonical_scalar e f).map memberOf_zp fun _ _ => rfl
  simpa only [bind_assoc, ok_bind] using laws

/-- The laws of the payloads in a named format that the curve supports. -/
theorem faithful (named : f ≠ .auto) (supported : f.supports e.curveId t = true) :
    Faithful (MemberOf (e := e) t) (fun compress x => x.encodePayload f compress)
      (decodePayload e f t) := by
  rw [decodePayload_of_supports supported]
  cases t with
  | zp => exact (canonical_scalar_payload f).toFaithful
  | g1 => exact (faithful_point e.g1_b_ne_zero named).map memberOf_g1 fun _ _ => rfl
  | g2 => exact (faithful_point e.g2_b_ne_zero named).map memberOf_g2 fun _ _ => rfl
  | gt => exact (canonical_target named).toFaithful.map memberOf_gt fun _ _ => rfl

theorem canonical (named : f ≠ .auto) (shared : f ≠ .legacy)
    (supported : f.supports e.curveId t = true) :
    Canonical (MemberOf (e := e) t) (fun compress x => x.encodePayload f compress)
      (decodePayload e f t) := by
  rw [decodePayload_of_supports supported]
  cases t with
  | zp => exact canonical_scalar_payload f
  | g1 => exact (canonical_point e.g1_b_ne_zero named shared).map memberOf_g1 fun _ _ => rfl
  | g2 => exact (canonical_point e.g2_b_ne_zero named shared).map memberOf_g2 fun _ _ => rfl
  | gt => exact (canonical_target named).map memberOf_gt fun _ _ => rfl

end Element

end PairingWire
