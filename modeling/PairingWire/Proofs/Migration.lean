import PairingWire.Proofs.Detection
import PairingWire.Proofs.Expressible
import PairingWire.Proofs.Soundness

/-!
Migration of bare native data. It succeeds exactly on what native decoding accepts and keeps the
element, as every element has an encoding in the automatic format. What it gives is a frame, whose
length no native encoding has: it is never migrated again.
-/

namespace PairingWire

variable {e : Engine} {t : ElementType} {bs out : Bytes}

theorem Format.supports_automatic (e : Engine) (t : ElementType) :
    (Format.auto.resolve e.curveId t).supports e.curveId t = true := by
  cases e <;> cases t <;> rfl

namespace Layout

variable {F : Type} [CoordinateField F e.fieldOrder] [Field F]

theorem decodePoint_legacy_of_length_ne [DecidableEq F] {C : Curve F}
    (other : bs.length ≠ coordinateWidth F) :
    decodePoint e C .legacy bs = .error (.invalidEncoding .native) := by
  obtain ⟨fault, refused⟩ := Native.decodePoint_of_length_ne (e := e) (C := C) other
  rw [decodePoint, refused]
  rfl

theorem decodeTarget_legacy_of_length_ne (other : bs.length ≠ 6 * coordinateWidth (Fq2 e)) :
    decodeTarget e .legacy bs = .error (.invalidEncoding .native) := by
  obtain ⟨fault, refused⟩ := Native.decodeTarget_of_length_ne other
  rw [decodeTarget, refused]
  rfl

end Layout

namespace Element

theorem exists_encode_automatic (x : Element e) (withHeader : Bool) :
    ∃ out, x.encode ⟨.auto, none, withHeader⟩ = .ok out := by
  apply exists_encode_iff.2
  rintro (unsupported | ⟨_, asked, _⟩)
  · rw [Format.supports_automatic] at unsupported
    cases unsupported
  · cases asked

theorem format_octet_of_encode {x : Element e} {s : Settings} (framed : s.withHeader = true)
    (written : x.encode s = .ok out) :
    out[7]? = some (s.format.resolve e.curveId x.type).toByte := by
  obtain ⟨compress, encoded, _, _, _, rfl⟩ := encode_eq_ok_iff.1 written
  rw [if_pos framed]
  rfl

/-- Native encodings are whole blocks of sixteen octets. -/
theorem decodeBare_legacy_of_ragged (ragged : bs.length % 16 ≠ 0) (t : ElementType) :
    ∃ fault, decodeBare e .legacy t bs = .error (.invalidEncoding fault) := by
  have other {n : Nat} (whole : 16 ∣ n) : bs.length ≠ n := by
    rintro rfl
    exact ragged (Nat.mod_eq_zero_of_dvd whole)
  rw [decodeBare, Format.resolve_of_ne_auto (by decide), decodePayload_of_supports rfl]
  cases t with
  | zp =>
      refine ⟨.wrongLength, ?_⟩
      dsimp only
      rw [Layout.decodeScalar_of_length_ne (other e.sixteen_dvd_scalarWidth)]
      rfl
  | g1 | g2 =>
      refine ⟨.native, ?_⟩
      dsimp only
      rw [Layout.decodePoint_legacy_of_length_ne (other e.sixteen_dvd_coordinateWidth)]
      rfl
  | gt =>
      refine ⟨.native, ?_⟩
      dsimp only
      rw [Layout.decodeTarget_legacy_of_length_ne
        (other (Nat.dvd_trans e.sixteen_dvd_coordinateWidth (Nat.dvd_mul_left _ _)))]
      rfl

end Element

theorem migrate_own_curve (e : Engine) (t : ElementType) (bs : Bytes) :
    migrate e t e.curveId bs =
      Element.decodeBare e .legacy t bs >>= fun x => x.encode ⟨.auto, none, true⟩ :=
  if_neg (not_not.2 rfl)

theorem migrate_frame {x : Element e} (framed : Element.decodeFramed e t bs = .ok x)
    (t' : ElementType) : ∃ fault, migrate e t' e.curveId bs = .error (.invalidEncoding fault) := by
  -- A header is nine octets, a payload at most one more than whole blocks of sixteen.
  have ragged : bs.length % 16 ≠ 0 := by
    have large := Element.length_mod_of_decodeFramed framed
    omega
  obtain ⟨fault, refused⟩ := Element.decodeBare_legacy_of_ragged (e := e) ragged t'
  refine ⟨fault, ?_⟩
  rw [migrate_own_curve, refused]
  rfl

structure Migrated (x : Element e) (t : ElementType) (out : Bytes) : Prop where
  written : x.encode ⟨.auto, none, true⟩ = .ok out
  not_legacy : isLegacy out = false
  read : Element.decode e true t out = .ok x
  format : out[7]? = some (Format.auto.resolve e.curveId t).toByte
  once : ∀ t', ∃ fault, migrate e t' e.curveId out = .error (.invalidEncoding fault)

theorem Migrated.of_encode {x : Element e} (native : Element.decodeBare e .legacy t bs = .ok x)
    (written : x.encode ⟨.auto, none, true⟩ = .ok out) : Migrated x t out := by
  obtain ⟨rfl, member⟩ := Element.isMember_of_decodeBare native
  have read := Element.decodeFramed_of_encode member rfl written
  exact
    { written := written
      not_legacy := Element.isLegacy_of_encode_framed rfl written
      read := read
      format := Element.format_octet_of_encode rfl written
      once := migrate_frame read }

/--
Migration gives an encoding of the element that native decoding finds, or the failure that it reports.
What it gives is not legacy data, is read back, has the automatic format and is not migrated again.
-/
theorem migration_once (e : Engine) (t : ElementType) (bs : Bytes) :
    (∀ out, migrate e t e.curveId bs = .ok out ↔
      ∃ x : Element e, Element.decodeBare e .legacy t bs = .ok x ∧ Migrated x t out) ∧
    (∀ x : Element e, Element.decodeBare e .legacy t bs = .ok x →
      ∃ out, migrate e t e.curveId bs = .ok out ∧ Migrated x t out) ∧
    (∀ err, Element.decodeBare e .legacy t bs = .error err →
      migrate e t e.curveId bs = .error err) := by
  refine ⟨?_, ?_, ?_⟩
  · intro out
    rw [migrate_own_curve, bind_eq_ok_iff]
    constructor
    · intro ⟨x, native, written⟩
      exact ⟨x, native, .of_encode native written⟩
    · intro ⟨x, native, migrated⟩
      exact ⟨x, native, migrated.written⟩
  · intro x native
    obtain ⟨out, written⟩ := Element.exists_encode_automatic x true
    refine ⟨out, ?_, .of_encode native written⟩
    rw [migrate_own_curve, native]
    exact written
  · intro err refused
    rw [migrate_own_curve, refused]
    rfl

theorem migration_generator :
    (∃ out, migrate .bn254 .g1 .bnP254 (1 :: List.replicate 31 0) = .ok out ∧
      Migrated (.g1 Engine.bn254.g1.generator : Element .bn254) .g1 out) ∧
    Element.decodeBare .bn254 .legacy .g1 [] = .error (.invalidEncoding .native) ∧
    migrate .bn254 .g1 .bnP254 [] = .error (.invalidEncoding .native) := by
  have written : (.g1 Engine.bn254.g1.generator : Element .bn254).encode ⟨.legacy, none, false⟩ =
      .ok (1 :: List.replicate 31 0) := rfl
  have member : (.g1 Engine.bn254.g1.generator : Element .bn254).IsMember :=
    Element.isMember_iff.2 Engine.bn254.valid_g1_generator
  have native := Element.decodeBare_of_encode member rfl written
  have refused : Element.decodeBare .bn254 .legacy .g1 [] = .error (.invalidEncoding .native) := rfl
  refine ⟨?_, refused, ?_⟩
  · exact (migration_once .bn254 .g1 _).2.1 _ native
  · exact (migration_once .bn254 .g1 []).2.2 _ refused

end PairingWire
