import PairingWire.Document
import PairingWire.Proofs.RoundTrip

/-!
Whatever is decoded is a member of its group and has the expected type: framed or bare, in any format,
in a batch, from a stored document and on the way of migrated data.
-/

namespace PairingWire

variable {e : Engine} {f : Format} {t : ElementType} {x : Element e} {bs : Bytes}

namespace Element

theorem isMember_of_decodePayload {flags : Flags} (named : f ≠ .auto)
    (found : decodePayload e f t bs = .ok (x, flags)) : x.type = t ∧ x.IsMember := by
  have laws := faithful (e := e) named (supports_of_decodePayload found)
  obtain ⟨type_eq, valid⟩ := laws.valid_of_decode found
  exact ⟨type_eq, isMember_iff.2 valid⟩

theorem isMember_of_decodeBare (found : decodeBare e f t bs = .ok x) : x.type = t ∧ x.IsMember := by
  obtain ⟨flags, read⟩ := decodeBare_eq_ok_iff.1 found
  exact isMember_of_decodePayload (f.resolve_ne_auto e.curveId t) read

theorem isMember_of_decodeFramed (found : decodeFramed e t bs = .ok x) :
    x.type = t ∧ x.IsMember := by
  obtain ⟨header, payload, parsed, _, _, read⟩ := decodeFramed_eq_ok_iff.1 found
  exact isMember_of_decodePayload (Header.parse_eq_ok_iff.1 parsed).2.1 read

theorem isMember_of_decode {framed : Bool} (found : decode e framed t bs = .ok x) :
    x.type = t ∧ x.IsMember := by
  cases framed with
  | true => exact isMember_of_decodeFramed found
  | false => exact isMember_of_decodeBare found

theorem isMember_of_decodeBatch {framed : Bool} {items : List Bytes} {xs : List (Element e)}
    (found : decodeBatch e framed t items = .ok xs) : ∀ x ∈ xs, x.type = t ∧ x.IsMember := by
  intro x member
  obtain ⟨_, _, decoded⟩ := exists_left_of_forall₂ (mapM_eq_ok_iff.1 found) x member
  exact isMember_of_decode decoded

theorem load_eq_ok_iff {text : String} :
    load e text = .ok x ↔ ∃ document rest type frame, Json.read text = some (document, rest) ∧
      Document.storedElement? document = some (type, frame) ∧ decode e true type frame = .ok x ∧
      Json.skipBlanks rest = [] := by
  unfold load
  constructor
  · intro found
    split at found
    · cases found
    · rename_i document rest document_read
      split at found
      · cases found
      · rename_i type frame stored
        obtain ⟨y, decoded, ended⟩ := bind_eq_ok_iff.1 found
        split at ended
        · rename_i blank
          cases ended
          exact ⟨document, rest, type, frame, document_read, stored, mapError_eq_ok_iff.1 decoded,
            blank⟩
        · cases ended
  · rintro ⟨document, rest, type, frame, document_read, stored, decoded, blank⟩
    simp only [document_read, stored, decoded, Except.mapError, ok_bind, if_pos blank, pure_eq_ok]

theorem isMember_of_load {text : String} (found : load e text = .ok x) :
    x.IsMember ∧ ∃ document rest frame, Json.read text = some (document, rest) ∧
      Document.storedElement? document = some (x.type, frame) := by
  obtain ⟨document, rest, type, frame, document_read, stored, decoded, _⟩ := load_eq_ok_iff.1 found
  obtain ⟨rfl, member⟩ := isMember_of_decode decoded
  exact ⟨member, document, rest, frame, document_read, stored⟩

end Element

theorem migrate_eq_ok_iff {curve : CurveId} {out : Bytes} :
    migrate e t curve bs = .ok out ↔
      curve = e.curveId ∧ ∃ x, Element.decodeBare e .legacy t bs = .ok x ∧ x.encode {} = .ok out := by
  unfold migrate
  constructor
  · intro migrated
    split at migrated
    · cases migrated
    · rename_i same
      exact ⟨not_not.1 same, bind_eq_ok_iff.1 migrated⟩
  · rintro ⟨same, decoded⟩
    rw [if_neg (not_not.2 same)]
    exact bind_eq_ok_iff.2 decoded

namespace Element

/-- Every way of decoding yields members of the expected type only. -/
theorem decoded_isMember :
    (∀ (framed : Bool) (t : ElementType) (bs : Bytes) (x : Element e),
      decode e framed t bs = .ok x → x.type = t ∧ x.IsMember) ∧
    (∀ (f : Format) (t : ElementType) (bs : Bytes) (x : Element e),
      decodeBare e f t bs = .ok x → x.type = t ∧ x.IsMember) ∧
    (∀ (framed : Bool) (t : ElementType) (items : List Bytes) (xs : List (Element e)),
      decodeBatch e framed t items = .ok xs → ∀ x ∈ xs, x.type = t ∧ x.IsMember) ∧
    (∀ (text : String) (x : Element e), load e text = .ok x →
      x.IsMember ∧ ∃ document rest frame, Json.read text = some (document, rest) ∧
        Document.storedElement? document = some (x.type, frame)) ∧
    (∀ (t : ElementType) (curve : CurveId) (bs out : Bytes), migrate e t curve bs = .ok out →
      ∃ x : Element e, decodeBare e .legacy t bs = .ok x ∧ x.encode {} = .ok out ∧
        x.type = t ∧ x.IsMember) := by
  refine ⟨?_, ?_, ?_, ?_, ?_⟩
  · intro framed t bs x found
    exact isMember_of_decode found
  · intro f t bs x found
    exact isMember_of_decodeBare found
  · intro framed t items xs found
    exact isMember_of_decodeBatch found
  · intro text x found
    exact isMember_of_load found
  · intro t curve bs out migrated
    obtain ⟨_, x, found, written⟩ := migrate_eq_ok_iff.1 migrated
    exact ⟨x, found, written, isMember_of_decodeBare found⟩

theorem compressed_generator_isMember :
    decodeBare .bn254 .sec1 .g1 (0x02 :: (List.replicate 31 0 ++ [1])) =
        .ok (g1 Engine.bn254.g1.generator) ∧
      (g1 Engine.bn254.g1.generator : Element .bn254).IsMember := by
  have written : (g1 Engine.bn254.g1.generator : Element .bn254).encode ⟨.sec1, some true, false⟩ =
      .ok (0x02 :: (List.replicate 31 0 ++ [1])) := by
    decide +kernel
  have member : (g1 Engine.bn254.g1.generator : Element .bn254).IsMember :=
    isMember_iff.2 Engine.bn254.valid_g1_generator
  have found := decodeBare_of_encode member rfl written
  exact ⟨found, (decoded_isMember.2.1 .sec1 .g1 _ _ found).2⟩

end Element

end PairingWire
