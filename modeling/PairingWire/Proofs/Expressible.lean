import PairingWire.Proofs.Extent
import PairingWire.Proofs.Refusal

/-!
Which settings can be honoured for an element, and how long its encoding then is. The type of the
element decides it, and no element of the type is an exception: a curve that a format supports has room
for the flags of every point. Only the point at infinity is shorter than other points, in SEC 1 strings.
-/

namespace PairingWire

namespace Format

/-- The format has no compressed form of these elements, and one is asked for. -/
def LacksForm (f : Format) (t : ElementType) (requested : Option Bool) : Prop :=
  t ≠ .zp ∧ requested = some true ∧ (f = .ethereum ∨ f = .sec1 ∧ t = .g2)

instance (f : Format) (t : ElementType) (requested : Option Bool) :
    Decidable (f.LacksForm t requested) :=
  inferInstanceAs (Decidable (_ ∧ _ ∧ _))

/-- Whether elements are compressed: unless asked otherwise, where there is such a form. -/
def compresses (f : Format) (t : ElementType) (requested : Option Bool) : Bool :=
  t ≠ .zp ∧ f ≠ .ethereum ∧ ¬(f = .sec1 ∧ t = .g2) ∧ (f = .legacy ∨ requested ≠ some false)

def pointSize (f : Format) (n : Nat) (compressed infinity : Bool) : Nat :=
  match f with
  | sec1 => if infinity then 1 else if compressed then 1 + n else 1 + 2 * n
  | zcash | ietf => if compressed then n else 2 * n
  | ethereum => 2 * n
  | legacy | auto => n

variable {f : Format} {t : ElementType} {requested : Option Bool}

theorem supports_g2 {c : CurveId} : f.supports c .g2 = f.supports c .g1 := by cases f <;> rfl

theorem compression_of_lacksForm (lacking : f.LacksForm t requested) :
    f.compression t requested = .error (.unsupported f t) := by
  obtain ⟨group, rfl, rfl | ⟨rfl, rfl⟩⟩ := lacking
  · cases t with
    | zp => exact absurd rfl group
    | g1 | g2 | gt => rfl
  · rfl

theorem compression_of_not_lacksForm (named : f ≠ .auto) (expressible : ¬f.LacksForm t requested) :
    f.compression t requested = .ok (f.compresses t requested) := by
  cases f with
  | auto => exact absurd rfl named
  | legacy => cases t <;> rfl
  | zcash | ietf => rcases requested with _ | _ | _ <;> cases t <;> rfl
  | sec1 | ethereum =>
      rcases requested with _ | _ | _ <;> cases t <;>
        first | rfl | exact absurd (by decide) expressible

theorem not_lacksForm_compresses (f : Format) (t : ElementType) (requested : Option Bool) :
    ¬f.LacksForm t (some (f.compresses t requested)) := by
  intro lacking
  obtain ⟨_, chosen, missing⟩ := lacking
  have chosen := of_decide_eq_true (Option.some.inj chosen)
  rcases missing with contracts | extension
  · exact chosen.2.1 contracts
  · exact chosen.2.2.1 extension

theorem not_lacksForm_of_flagged (flagged : f = .zcash ∨ f = .ietf) : ¬f.LacksForm t requested := by
  rintro ⟨_, _, missing⟩
  rcases flagged with rfl | rfl <;> simp at missing

end Format

variable {e : Engine} {f : Format}

namespace Layout

section Point

variable {F : Type} [CoordinateField F e.fieldOrder] {compress : Bool}

omit [CoordinateField F e.fieldOrder] in
theorem supports_pointType {p : Nat} [CoordinateField F p] {c : CurveId} :
    f.supports c (pointType F) = f.supports c .g1 := by
  unfold pointType
  split
  · rfl
  · exact Format.supports_g2

theorem exists_encodePoint [Field F] [LawfulCoordinates F] (named : f ≠ .auto)
    (supported : f.supports e.curveId (pointType F) = true)
    (expressible : ¬f.LacksForm (pointType F) (some compress)) (P : Point F) :
    ∃ written, encodePoint e f compress P = .ok written := by
  have group : pointType F ≠ .zp := by
    unfold pointType
    split <;> decide
  rw [supports_pointType] at supported
  cases f with
  | legacy => exact ⟨_, rfl⟩
  | sec1 =>
      apply Sec1.exists_encodePoint
      rintro rfl
      by_contra extension
      exact expressible ⟨group, rfl, .inr ⟨rfl, if_neg extension⟩⟩
  -- Flag bits ask for three spare bits, which only the BLS engine has.
  | zcash | ietf =>
      cases e with
      | bn254 => cases supported
      | bls12P381 => exact FlagBits.exists_encodePoint Engine.bls12P381.fieldOrder_le _ compress P
  | ethereum =>
      cases compress with
      | true => exact absurd ⟨group, rfl, .inl rfl⟩ expressible
      | false =>
          cases e with
          | bn254 => exact Ethereum.exists_encodePoint (by decide) P
          | bls12P381 => cases supported
  | auto => exact absurd rfl named

theorem length_of_encodePoint {P : Point F} {written : Encoded}
    (encoded : encodePoint e f compress P = .ok written) :
    written.payload.length = f.pointSize (coordinateWidth F) compress P.isInfinity := by
  cases f with
  | legacy =>
      cases encoded
      exact Native.length_encodePoint e P
  | sec1 => exact Sec1.length_of_encodePoint encoded
  | zcash | ietf => exact FlagBits.length_of_encodePoint encoded
  | ethereum => exact Ethereum.length_of_encodePoint encoded
  | auto => cases encoded

end Point

theorem exists_encodeTarget (named : f ≠ .auto) (supported : f.supports e.curveId .gt = true)
    (compress : Bool) (x : Fq12 e) : ∃ written, encodeTarget f compress x = .ok written := by
  cases f with
  | legacy | ietf => exact ⟨_, rfl⟩
  | sec1 | zcash | ethereum => cases supported
  | auto => exact absurd rfl named

theorem length_of_encodeTarget {compress : Bool} {x : Fq12 e} {written : Encoded}
    (encoded : encodeTarget f compress x = .ok written) :
    written.payload.length =
      (if f = .ietf ∧ compress then 8 else 12) * Residue.width e.fieldOrder := by
  have width_eq : coordinateWidth (Fq2 e) = 2 * Residue.width e.fieldOrder := rfl
  cases f with
  | legacy =>
      cases encoded
      rw [Native.length_encodeTarget, width_eq, ← Nat.mul_assoc]
      rfl
  | ietf =>
      cases encoded
      rw [Cyclotomic.payload_encodeTarget, length_flatMap_eq_mul length_putCoordinate,
        Cyclotomic.length_written, width_eq, ← Nat.mul_assoc]
      cases compress <;> rfl
  | sec1 | zcash | ethereum | auto => cases encoded

end Layout

def payloadSize (e : Engine) (f : Format) (t : ElementType) (compressed infinity : Bool) : Nat :=
  match t with
  | .zp => 32
  | .g1 => f.pointSize (Residue.width e.fieldOrder) compressed infinity
  | .g2 => f.pointSize (2 * Residue.width e.fieldOrder) compressed infinity
  | .gt => (if f = .ietf ∧ compressed then 8 else 12) * Residue.width e.fieldOrder

/-- The settings cannot be honoured for elements of the type. -/
def Settings.Refused (s : Settings) (c : CurveId) (t : ElementType) : Prop :=
  (s.format.resolve c t).supports c t = false ∨ (s.format.resolve c t).LacksForm t s.compress

instance (s : Settings) (c : CurveId) (t : ElementType) : Decidable (s.Refused c t) :=
  inferInstanceAs (Decidable (_ ∨ _))

namespace Element

variable {s : Settings} {x : Element e} {bs : Bytes}

theorem exists_encodePayload {compress : Bool} (named : f ≠ .auto)
    (supported : f.supports e.curveId x.type = true)
    (expressible : ¬f.LacksForm x.type (some compress)) :
    ∃ written, x.encodePayload f compress = .ok written := by
  cases x with
  | zp a => exact ⟨_, rfl⟩
  | g1 P => exact Layout.exists_encodePoint (F := Fq e) named supported expressible P
  | g2 Q => exact Layout.exists_encodePoint (F := Fq2 e) named supported expressible Q
  | gt y => exact Layout.exists_encodeTarget named supported compress y

theorem length_of_encodePayload {compress : Bool} {written : Encoded}
    (encoded : x.encodePayload f compress = .ok written) :
    written.payload.length = payloadSize e f x.type compress x.isInfinity := by
  cases x with
  | zp a =>
      cases encoded
      rw [Layout.length_encodeScalar]
      cases e <;> rfl
  | g1 P =>
      rw [Layout.length_of_encodePoint encoded, Layout.coordinateWidth]
      exact congrArg (f.pointSize · compress P.isInfinity) (Nat.one_mul _)
  | g2 Q => exact Layout.length_of_encodePoint encoded
  | gt y => exact Layout.length_of_encodeTarget encoded

theorem exists_encode_iff : (∃ bs, x.encode s = .ok bs) ↔ ¬s.Refused e.curveId x.type := by
  constructor
  · rintro ⟨bs, written⟩ refused
    obtain ⟨compress, encoded, supported, chosen, _⟩ := encode_eq_ok_iff.1 written
    rcases refused with unsupported | lacking
    · rw [supported] at unsupported
      cases unsupported
    · rw [Format.compression_of_lacksForm lacking] at chosen
      cases chosen
  · intro granted
    obtain ⟨supported, expressible⟩ := not_or.1 granted
    have supported := Bool.eq_true_of_not_eq_false supported
    have named := s.format.resolve_ne_auto e.curveId x.type
    obtain ⟨written, encoded⟩ := exists_encodePayload named supported
      (Format.not_lacksForm_compresses _ _ s.compress)
    exact ⟨_, encode_eq_ok_iff.2 ⟨_, written, supported,
      Format.compression_of_not_lacksForm named expressible, encoded, rfl⟩⟩

theorem exists_error_encode_iff :
    (∃ err, x.encode s = .error err) ↔ s.Refused e.curveId x.type := by
  constructor
  · rintro ⟨err, failed⟩
    by_contra granted
    obtain ⟨bs, written⟩ := exists_encode_iff.2 granted
    rw [failed] at written
    cases written
  · intro refused
    apply exists_error_of_ne_ok
    intro bs written
    exact exists_encode_iff.1 ⟨bs, written⟩ refused

theorem length_of_encode (written : x.encode s = .ok bs) :
    bs.length = (if s.withHeader then Header.size else 0) +
      payloadSize e (s.format.resolve e.curveId x.type) x.type
        ((s.format.resolve e.curveId x.type).compresses x.type s.compress) x.isInfinity := by
  have granted := exists_encode_iff.1 ⟨bs, written⟩
  obtain ⟨compress, encoded, _, chosen, payload, rfl⟩ := encode_eq_ok_iff.1 written
  rw [Format.compression_of_not_lacksForm (s.format.resolve_ne_auto e.curveId x.type)
    (not_or.1 granted).2] at chosen
  cases chosen
  rw [← length_of_encodePayload payload]
  split
  · rw [List.length_append, Header.length_toBytes]
  · rw [Nat.zero_add]

theorem decodeBare_of_not_supports {t : ElementType} (named : f ≠ .auto)
    (unsupported : f.supports e.curveId t = false) (bs : Bytes) :
    decodeBare e f t bs = .error (.unsupported f t) := by
  have refused : decodePayload e f t bs = .error (.unsupported f t) :=
    if_pos (by rw [unsupported, Bool.not_false])
  rw [decodeBare, Format.resolve_of_ne_auto named, refused, error_bind]

/--
Settings are refused for all elements of a type or for none, with one error, and reading a format that
is not supported fails with the same error. What is granted is written, in as many octets as the type
and the form have. Where a format with flag bits is supported, no point reaches into them.
-/
theorem encoded_by_type_alone (e : Engine) (s : Settings) (t : ElementType) :
    (∀ x : Element e, x.type = t →
      ((∃ err, x.encode s = .error err) ↔ s.Refused e.curveId t) ∧
      (∀ err, x.encode s = .error err → err = .unsupported (s.format.resolve e.curveId t) t) ∧
      (¬s.Refused e.curveId t → ∃ compressed bs,
        (s.format.resolve e.curveId t).compression t s.compress = .ok compressed ∧
        compressed = (s.format.resolve e.curveId t).compresses t s.compress ∧
        x.encode s = .ok bs ∧
        bs.length = (if s.withHeader then 9 else 0) +
          payloadSize e (s.format.resolve e.curveId t) t compressed x.isInfinity)) ∧
    ((s.format.resolve e.curveId t).supports e.curveId t = false → ∀ bs,
      decodeBare e (s.format.resolve e.curveId t) t bs =
        .error (.unsupported (s.format.resolve e.curveId t) t)) ∧
    (∀ f : Format, f = .zcash ∨ f = .ietf → f.supports e.curveId t = true →
      ∀ (compress : Bool) (x : Element e), x.type = t →
        ∃ written, x.encodePayload f compress = .ok written) := by
  refine ⟨?_, ?_, ?_⟩
  · rintro x rfl
    refine ⟨exists_error_encode_iff, encode_error s x, ?_⟩
    intro granted
    obtain ⟨bs, written⟩ := exists_encode_iff.2 granted
    have chosen := Format.compression_of_not_lacksForm (s.format.resolve_ne_auto e.curveId x.type)
      (not_or.1 granted).2
    exact ⟨_, bs, chosen, rfl, written, length_of_encode written⟩
  · intro unsupported bs
    exact decodeBare_of_not_supports (s.format.resolve_ne_auto e.curveId t) unsupported bs
  · rintro f flagged supported compress x rfl
    apply exists_encodePayload _ supported (Format.not_lacksForm_of_flagged flagged)
    rcases flagged with rfl | rfl <;> decide

theorem encoded_by_type_generator :
    (∃ err, (g2 Engine.bn254.g2.generator : Element .bn254).encode ⟨.sec1, some true, true⟩ =
      .error err) ∧
    (∃ bs, (g2 .infinity : Element .bls12P381).encode {} = .ok bs ∧ bs.length = 105) ∧
    (∀ bs, decodeBare .bn254 .zcash .g2 bs = .error (.unsupported .zcash .g2)) ∧
    (∃ written, (g2 .infinity : Element .bls12P381).encodePayload .ietf false = .ok written) := by
  have refused := (encoded_by_type_alone .bn254 ⟨.sec1, some true, true⟩ .g2).1
  have granted := (encoded_by_type_alone .bls12P381 {} .g2).1
  obtain ⟨compressed, bs, chosen, _, written, length_eq⟩ := (granted (g2 .infinity) rfl).2.2 (by decide)
  cases chosen
  refine ⟨(refused _ rfl).1.2 (by decide), ⟨bs, written, length_eq⟩, ?_, ?_⟩
  · exact (encoded_by_type_alone .bn254 ⟨.zcash, none, true⟩ .g2).2.1 rfl
  · exact (encoded_by_type_alone .bls12P381 {} .g2).2.2 .ietf (.inr rfl) rfl false _ rfl

end Element

end PairingWire
