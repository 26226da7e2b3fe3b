import PairingWire.Proofs.Document
import PairingWire.Proofs.Json.Reader
import PairingWire.Proofs.Json.Render
import PairingWire.Proofs.Migration

/-!
Stored elements. A member is loaded from the text it is stored as; whatever text is loaded is decoded
from the frame it gives, under the type it gives, and no frame is loaded under another type.
-/

namespace PairingWire

namespace Document

theorem stores_ofElement (t : ElementType) (frame : Bytes) : Stores (ofElement t frame) t frame := by
  refine ⟨.ofString t.name, .byName (.refl _) ?_ ?_ (fun _ absent => nomatch absent), ?_⟩
  · exact Json.name?_unitsOf "element_type"
  · exact Json.name?_unitsOf "bytes"
  · exact Json.name?_unitsOf t.name

theorem written_ofElement (t : ElementType) (frame : Bytes) : (ofElement t frame).Written := by
  apply Json.Written.object
  intro f member
  have octets : (Json.array (frame.map fun b => .natural b.toNat)).Written := by
    apply Json.Written.array
    intro v place
    obtain ⟨b, -, rfl⟩ := List.mem_map.1 place
    exact .natural b.toNat
  simp only [List.mem_cons, List.not_mem_nil, or_false] at member
  obtain rfl | rfl := member
  · exact ⟨Json.keyText_render "element_type", .ofString t.name⟩
  · exact ⟨Json.keyText_render "bytes", octets⟩

end Document

namespace Json

variable {v : Json}

theorem Written.documentText (written : Written v) :
    DocumentText v (String.ofList v.render).toList := by
  simpa using DocumentText.mk areBlank_nil written areBlank_nil

end Json

namespace Element

open Document Json

variable {e : Engine} {x : Element e} {t : ElementType} {frame : Bytes} {text : String}
  {document : Json}

theorem load_of_stores (form : DocumentText document text.toList)
    (stored : Stores document t frame) :
    load e text = (decode e true t frame).mapError .codec := by
  obtain ⟨rest, read, blank⟩ := read_eq_some_iff.2 form
  simp only [load, read, storedElement?_eq_some_iff.2 stored, if_pos blank, pure_eq_ok]
  cases decode e true t frame <;> rfl

theorem exists_stores_of_load (loaded : load e text = .ok x) :
    ∃ document frame, DocumentText document text.toList ∧ Stores document x.type frame ∧
      decode e true x.type frame = .ok x := by
  obtain ⟨document, rest, type, frame, read, stored, decoded, blank⟩ := load_eq_ok_iff.1 loaded
  obtain ⟨rfl, -⟩ := isMember_of_decode decoded
  exact ⟨document, frame, read_eq_some_iff.1 ⟨rest, read, blank⟩,
    storedElement?_eq_some_iff.1 stored, decoded⟩

theorem load_of_not_stores (form : DocumentText document text.toList)
    (never : ∀ t frame, ¬Stores document t frame) : load e text = .error .shape := by
  obtain ⟨rest, read, blank⟩ := read_eq_some_iff.2 form
  have nothing : storedElement? document = none := by
    rw [Option.eq_none_iff_forall_ne_some]
    intro ⟨t, frame⟩ stored
    exact never t frame (storedElement?_eq_some_iff.1 stored)
  simp [load, read, nothing]

theorem load_store (member : x.IsMember) :
    ∃ text, x.store = .ok text ∧ load e text = .ok x := by
  obtain ⟨frame, written⟩ := exists_encode_automatic x true
  have decoded : decode e true x.type frame = .ok x := decodeFramed_of_encode member rfl written
  refine ⟨_, bind_eq_ok_iff.2 ⟨frame, written, rfl⟩, ?_⟩
  rw [load_of_stores (written_ofElement x.type frame).documentText (stores_ofElement x.type frame),
    decoded]
  rfl

theorem load_of_retype {value : Json} {text' : String} (loaded : load e text = .ok x)
    (form : DocumentText document text.toList) (other : tag? value ≠ some x.type.name)
    (form' : DocumentText (retype value document) text'.toList) :
    (∃ err, load e text' = .error err) ∧
      ∀ t : ElementType, tag? value = some t.name →
        load e text' = .error (.codec (.invalidEncoding .unexpectedType)) := by
  obtain ⟨same, frame, same_form, ⟨type, gives, -⟩, decoded⟩ := exists_stores_of_load loaded
  obtain rfl := same_form.unique form
  have gives' := gives.retype value
  have mistyped (t : ElementType) (tagged : tag? value = some t.name) :
      load e text' = .error (.codec (.invalidEncoding .unexpectedType)) := by
    have different : t ≠ x.type := by
      rintro rfl
      exact other tagged
    have refused : decode e true t frame = .error (.invalidEncoding .unexpectedType) :=
      decodeFramed_of_other_type decoded different
    rw [load_of_stores form' ⟨value, gives', tagged⟩, refused]
    rfl
  refine ⟨?_, mistyped⟩
  -- A document whose value for the type names none stores nothing.
  by_cases known : ∃ t : ElementType, tag? value = some t.name
  · obtain ⟨t, tagged⟩ := known
    exact ⟨_, mistyped t tagged⟩
  · refine ⟨_, load_of_not_stores form' fun t frame' stored => known ⟨t, ?_⟩⟩
    exact (stored_parts gives' (storedElement?_eq_some_iff.2 stored)).1

/--
Every member is loaded from what it is stored as. A text that stores a frame is loaded as the framed
decoder has it; a loaded text stores a frame, under the type of the member that the frame decodes to.
A loaded text whose type is replaced is refused, and as of another type if the new value names one.
-/
theorem storage_faithful (e : Engine) :
    (∀ x : Element e, x.IsMember → ∃ text, x.store = .ok text ∧ load e text = .ok x) ∧
    (∀ document t frame (text : String), DocumentText document text.toList →
      Stores document t frame → load e text = (decode e true t frame).mapError .codec) ∧
    (∀ text (x : Element e), load e text = .ok x → x.IsMember ∧
      ∃ document frame, DocumentText document text.toList ∧ Stores document x.type frame ∧
        decode e true x.type frame = .ok x) ∧
    (∀ text (x : Element e) document value (text' : String), load e text = .ok x →
      DocumentText document text.toList → tag? value ≠ some x.type.name →
      DocumentText (retype value document) text'.toList →
      (∃ err, load e text' = .error err) ∧
        ∀ t : ElementType, tag? value = some t.name →
          load e text' = .error (.codec (.invalidEncoding .unexpectedType))) := by
  refine ⟨?_, ?_, ?_, ?_⟩
  · intro x member
    exact load_store member
  · intro document t frame text form stored
    exact load_of_stores form stored
  · intro text x loaded
    exact ⟨(isMember_of_load loaded).1, exists_stores_of_load loaded⟩
  · intro text x document value text' loaded form other form'
    exact load_of_retype loaded form other form'

theorem storage_of_generator :
    ∃ frame text, (g1 Engine.bn254.g1.generator : Element .bn254).store = .ok text ∧
      text = String.ofList (ofElement .g1 frame).render ∧
      load .bn254 text = .ok (g1 Engine.bn254.g1.generator) ∧
      (g1 Engine.bn254.g1.generator : Element .bn254).IsMember ∧
      decode .bn254 true .g1 frame = .ok (g1 Engine.bn254.g1.generator) ∧
      load .bn254 (String.ofList (ofElement .g2 frame).render) =
        .error (.codec (.invalidEncoding .unexpectedType)) := by
  obtain ⟨loads, decodes, members, refuses⟩ := storage_faithful .bn254
  have member : (g1 Engine.bn254.g1.generator : Element .bn254).IsMember :=
    isMember_iff.2 Engine.bn254.valid_g1_generator
  obtain ⟨text, stored, loaded⟩ := loads _ member
  obtain ⟨frame, written, rendered⟩ := bind_eq_ok_iff.1 stored
  cases rendered
  have form := (written_ofElement .g1 frame).documentText
  have decoded := decodes _ _ _ _ form (stores_ofElement .g1 frame)
  have refused := refuses _ _ _ (.ofString "G2") _ loaded form (by decide)
    (written_ofElement .g2 frame).documentText
  refine ⟨frame, _, stored, rfl, loaded, (members _ _ loaded).1, ?_, refused.2 .g2 rfl⟩
  exact mapError_eq_ok_iff.1 (decoded.symm.trans loaded)

end Element

end PairingWire
