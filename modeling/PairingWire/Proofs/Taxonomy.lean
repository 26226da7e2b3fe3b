import PairingWire.Proofs.Guarded.Codec
import PairingWire.Proofs.Refusal

/-!
What becomes of arbitrary strings: decoding and migration give a result or a failure of a few kinds,
none of which comes from arithmetic, settings or retired curves, and they use every operation inside
its domain.
-/

namespace PairingWire

variable {e : Engine} {f : Format} {err : CodecError}

namespace CodecError

inductive OfFrame : CodecError → Prop
  | malformedHeader (fault : HeaderFault) : OfFrame (malformedHeader fault)
  | unsupportedVersion (found supported : UInt8) : OfFrame (unsupportedVersion found supported)
  | unknownCurve (id : UInt8) : OfFrame (unknownCurve id)
  | curveMismatch (expected found : UInt8) : OfFrame (curveMismatch expected found)
  | payload {err : CodecError} : err.OfPayload → OfFrame err

def payloadKinds : List String :=
  ["invalid_encoding", "invalid_field_element", "not_a_square", "point_not_on_curve",
    "invalid_subgroup", "unsupported_combination"]

def frameKinds : List String :=
  ["malformed_header", "unsupported_version", "unknown_curve", "curve_mismatch"] ++ payloadKinds

theorem OfPayload.kind_mem (cause : err.OfPayload) : err.kind ∈ payloadKinds := by
  cases cause <;> simp [kind, payloadKinds]

theorem OfFrame.kind_mem (cause : err.OfFrame) : err.kind ∈ frameKinds := by
  cases cause with
  | payload cause => exact List.mem_append_right _ cause.kind_mem
  | malformedHeader | unsupportedVersion | unknownCurve | curveMismatch => simp [kind, frameKinds]

end CodecError

open CodecError

def Within {α : Type} (kinds : List String) (r : Except CodecError α) : Prop :=
  (∃ a, r = .ok a) ∨ ∃ err, r = .error err ∧ err.kind ∈ kinds

theorem FailsWith.within {α : Type} {kinds : List String} {r : Except CodecError α}
    (failures : FailsWith (fun err => err.kind ∈ kinds) r) : Within kinds r := by
  cases r with
  | ok a => exact .inl ⟨a, rfl⟩
  | error err => exact .inr ⟨err, rfl, failures rfl⟩

namespace Element

theorem decodePayload_error (named : f ≠ .auto) (t : ElementType) (bs : Bytes) :
    FailsWith OfPayload (decodePayload e f t bs) := by
  cases supported : f.supports e.curveId t with
  | true => exact (faithful (e := e) named supported).decode_error bs
  | false =>
      unfold decodePayload
      rw [supported]
      exact .error (.unsupported f t)

theorem decodeBare_error (e : Engine) (f : Format) (t : ElementType) (bs : Bytes) :
    FailsWith OfPayload (decodeBare e f t bs) :=
  .bind_ok (decodePayload_error (f.resolve_ne_auto e.curveId t) t bs)

theorem decodeFramed_error (e : Engine) (t : ElementType) (bs : Bytes) :
    FailsWith OfFrame (decodeFramed e t bs) := by
  refine .bind ((Header.parse_error bs).mono ?_) fun read parsed => ?_
  · rintro _ (⟨fault, rfl⟩ | ⟨version, rfl⟩ | ⟨id, rfl⟩)
    · exact .malformedHeader fault
    · exact .unsupportedVersion version 2
    · exact .unknownCurve id
  · obtain ⟨_, named, _⟩ := Header.parse_eq_ok_iff.1 parsed
    refine .ite (fun _ => .error (.curveMismatch _ _)) fun _ => ?_
    refine .ite (fun _ => .error (.payload (.invalidEncoding _))) fun _ => ?_
    refine .bind ((decodePayload_error named t _).mono fun _ => .payload) fun found _ => ?_
    exact .ite (fun _ => .error (.payload (.invalidEncoding _))) fun _ => .ok _

end Element

theorem migrate_error (e : Engine) (t : ElementType) (curve : CurveId) (bs : Bytes) :
    FailsWith (fun err => err = .curveMismatch e.curveId.toByte curve.toByte ∨ err.OfPayload)
      (migrate e t curve bs) := by
  refine .ite (fun _ => .error (.inl rfl)) fun _ => ?_
  refine .bind ((Element.decodeBare_error e .legacy t bs).mono fun _ => .inr) fun x _ => ?_
  refine (Element.encode_error {} x).mono ?_
  rintro _ rfl
  exact .inr (.unsupported _ _)

namespace Element

/--
Every string is decoded or refused for one of a few reasons, a bare string never for those of a header.
With guarded operations the outcome is the same: no string is cut past its end, zero is never inverted,
and no branch that is asserted away is reached.
-/
theorem hostile_bytes_taxonomy (e : Engine) :
    (∀ (t : ElementType) (bs : Bytes), Within frameKinds (decode e true t bs)) ∧
    (∀ (t : ElementType) (bs : Bytes), Within payloadKinds (decode e false t bs)) ∧
    (∀ (f : Format) (t : ElementType) (bs : Bytes), Within payloadKinds (decodeBare e f t bs)) ∧
    (∀ (t : ElementType) (curve : CurveId) (bs : Bytes),
      Within ("curve_mismatch" :: payloadKinds) (migrate e t curve bs)) ∧
    (∀ (framed : Bool) (t : ElementType) (bs : Bytes),
      Guarded.decode e framed t bs = .of (decode e framed t bs)) ∧
    (∀ (f : Format) (t : ElementType) (bs : Bytes),
      Guarded.decodeBare e f t bs = .of (decodeBare e f t bs)) ∧
    (∀ (t : ElementType) (curve : CurveId) (bs : Bytes),
      Guarded.migrate e t curve bs = .of (migrate e t curve bs)) := by
  refine ⟨?_, ?_, ?_, ?_, ?_, ?_, ?_⟩
  · intro t bs
    exact ((decodeFramed_error e t bs).mono fun _ => OfFrame.kind_mem).within
  · intro t bs
    exact ((decodeBare_error e .auto t bs).mono fun _ => OfPayload.kind_mem).within
  · intro f t bs
    exact ((decodeBare_error e f t bs).mono fun _ => OfPayload.kind_mem).within
  · intro t curve bs
    refine ((migrate_error e t curve bs).mono ?_).within
    rintro _ (rfl | cause)
    · exact List.mem_cons_self
    · exact List.mem_cons_of_mem _ cause.kind_mem
  · intro framed t bs
    exact Guarded.decode_eq framed t bs
  · intro f t bs
    exact Guarded.decodeBare_eq f t bs
  · intro t curve bs
    exact Guarded.migrate_eq t curve bs

end Element

end PairingWire
