import Mathlib.Data.List.Perm.Basic
import PairingWire.Document
import PairingWire.Proofs.Outcome

/-!
Documents that store an element. Such a document gives the type and the frame as an array, or by name:
in any order, once each, and among fields of other names.
-/

namespace PairingWire.Document

variable {document type bytes value : Json} {t : ElementType} {frame : Bytes}

inductive Gives : Json → Json → Json → Prop
  | inOrder {type bytes : Json} : Gives (.array [type, bytes]) type bytes
  | byName {fields others : List (List Nat × Json)} {k l : List Nat} {type bytes : Json}
      (order : fields.Perm ((k, type) :: (l, bytes) :: others))
      (type_key : Json.name? k = some "element_type") (bytes_key : Json.name? l = some "bytes")
      (extra : ∀ f ∈ others,
        ∃ name, Json.name? f.1 = some name ∧ name ≠ "element_type" ∧ name ≠ "bytes") :
      Gives (.object fields) type bytes

/-- A document that names the type and lists the octets of the frame. -/
def Stores (document : Json) (t : ElementType) (frame : Bytes) : Prop :=
  ∃ type, Gives document type (.array (frame.map fun b => .natural b.toNat)) ∧
    tag? type = some t.name

def retypeField (value : Json) (f : List Nat × Json) : List Nat × Json :=
  if Json.name? f.1 = some "element_type" then (f.1, value) else f

/-- The document with another value for its type. -/
def retype (value : Json) : Json → Json
  | .array [_, bytes] => .array [value, bytes]
  | .object fields => .object (fields.map (retypeField value))
  | document => document

theorem Gives.retype (gives : Gives document type bytes) (value : Json) :
    Gives (retype value document) value bytes := by
  cases gives with
  | inOrder => exact .inOrder
  | @byName fields others k l _ _ order type_key bytes_key extra =>
      have kept : others.map (retypeField value) = others := by
        rw [List.map_congr_left (g := id), List.map_id]
        intro f member
        obtain ⟨name, named, other, -⟩ := extra f member
        simp [retypeField, named, other]
      have replaced := order.map (retypeField value)
      simp only [List.map_cons, retypeField, type_key, bytes_key] at replaced
      exact .byName (by simpa [kept] using replaced) type_key bytes_key extra

/-! ### Named fields -/

def label (f : List Nat × Json) : String × Json := ((Json.name? f.1).getD "", f.2)

theorem label_of_name? {f : List Nat × Json} {name : String} (named : Json.name? f.1 = some name) :
    label f = (name, f.2) := by
  simp [label, named]

theorem named?_cons (f : List Nat × Json) (fs : List (List Nat × Json)) :
    named? (f :: fs) =
      (Json.name? f.1).bind fun name => (named? fs).map ((name, f.2) :: ·) := by
  cases first : Json.name? f.1 with
  | none => simp [named?, first]
  | some name =>
      simp only [named?, List.mapM_cons, first, Option.bind_some, Option.map_eq_bind]
      rfl

theorem named?_eq_some_iff {fields : List (List Nat × Json)} {named : List (String × Json)} :
    named? fields = some named ↔
      (∀ f ∈ fields, ∃ name, Json.name? f.1 = some name) ∧ named = fields.map label := by
  induction fields generalizing named with
  | nil => simp [named?, eq_comm]
  | cons f fs ih =>
      rw [named?_cons]
      cases first : Json.name? f.1 with
      | none => simp [first]
      | some name =>
          simp [first, label_of_name? first, ih]
          exact fun _ => eq_comm

theorem required?_eq_some_iff {name : String} {named : List (String × Json)} :
    required? name named = some value ↔ named.filter (·.1 = name) = [(name, value)] := by
  unfold required? field?
  constructor
  · intro found
    split at found
    · rename_i v single
      cases found
      split at single
      · cases single
      · rename_i key v only
        cases single
        have member : (key, value) ∈ named.filter (·.1 = name) := by simp [only]
        obtain rfl : key = name := by simpa using (List.mem_filter.1 member).2
        exact only
      · cases single
    · cases found
  · intro only
    rw [only]

theorem required?_of_perm {name : String} {named rest : List (String × Json)}
    (order : named.Perm ((name, value) :: rest)) (once : ∀ f ∈ rest, f.1 ≠ name) :
    required? name named = some value := by
  have none : rest.filter (·.1 = name) = [] := by simpa using once
  rw [required?_eq_some_iff, ← List.perm_singleton]
  simpa [none] using order.filter (·.1 = name)

theorem exists_field {name : String} {fields : List (List Nat × Json)}
    (each : ∀ f ∈ fields, ∃ name, Json.name? f.1 = some name)
    (given : required? name (fields.map label) = some value) :
    ∃ k, Json.name? k = some name ∧
      fields.filter (fun f => Json.name? f.1 = some name) = [(k, value)] := by
  rw [required?_eq_some_iff, List.filter_map, List.map_eq_singleton_iff] at given
  obtain ⟨⟨k, v⟩, only, labelled⟩ := given
  have same_kind : fields.filter (fun f => Json.name? f.1 = some name) = [(k, v)] := by
    rw [← only]
    apply List.filter_congr
    intro f member
    obtain ⟨other, named⟩ := each f member
    simp [label_of_name? named, named]
  have member : (k, v) ∈ fields.filter (fun f => Json.name? f.1 = some name) := by
    simp [same_kind]
  have named : Json.name? k = some name := by simpa using (List.mem_filter.1 member).2
  rw [label_of_name? named] at labelled
  cases labelled
  exact ⟨k, named, same_kind⟩

theorem perm_of_filter {α : Type} {xs : List α} {p q : α → Bool} {a b : α}
    (disjoint : ∀ x, q x = true → p x = false) (first : xs.filter p = [a])
    (second : xs.filter q = [b]) :
    xs.Perm (a :: b :: (xs.filter (!p ·)).filter (!q ·)) := by
  have later : (xs.filter (!p ·)).filter q = [b] := by
    rw [List.filter_filter, ← second]
    apply List.filter_congr
    intro x _
    cases other : q x <;> simp [disjoint, other]
  calc
    xs.Perm (xs.filter p ++ xs.filter (!p ·)) := (List.filter_append_perm p xs).symm
    _ = a :: xs.filter (!p ·) := by rw [first]; rfl
    List.Perm _ (a :: ((xs.filter (!p ·)).filter q ++ (xs.filter (!p ·)).filter (!q ·))) :=
      .cons a (List.filter_append_perm q _).symm
    _ = a :: b :: (xs.filter (!p ·)).filter (!q ·) := by rw [later]; rfl

/-! ### Octets and types -/

theorem byte?_eq_some_iff {b : UInt8} : byte? value = some b ↔ value = .natural b.toNat := by
  cases value with
  | natural n =>
      simp only [byte?, Option.ite_none_right_eq_some, Option.some.injEq, Json.natural.injEq]
      constructor
      · rintro ⟨small, rfl⟩
        simp [UInt8.toNat_ofNat', Nat.mod_eq_of_lt small]
      · rintro rfl
        exact ⟨b.toNat_lt, by simp⟩
  | _ => simp [byte?]

theorem bytes?_eq_some_iff :
    bytes? value = some frame ↔ value = .array (frame.map fun b => .natural b.toNat) := by
  cases value with
  | array items =>
      simp only [bytes?, Json.array.injEq, mapM_eq_some_iff, byte?_eq_some_iff]
      rw [← List.forall₂_eq_eq_eq, List.forall₂_map_right_iff]
  | _ => simp [bytes?]

theorem ofName?_eq_some_iff {name : String} :
    ElementType.ofName? name = some t ↔ name = t.name := by
  constructor
  · intro found
    simpa [eq_comm] using List.find?_some found
  · rintro rfl
    exact t.ofName?_name

/-! ### Stored elements -/

theorem storedElement?_of_gives (gives : Gives document type bytes) :
    storedElement? document =
      (do return (← ElementType.ofName? (← tag? type), ← bytes? bytes)) := by
  cases gives with
  | inOrder => rfl
  | @byName fields others k l _ _ order type_key bytes_key extra =>
      have other_names : ∀ f ∈ others.map label, f.1 ≠ "element_type" ∧ f.1 ≠ "bytes" := by
        intro f member
        obtain ⟨g, place, rfl⟩ := List.mem_map.1 member
        obtain ⟨name, named, others⟩ := extra g place
        rwa [label_of_name? named]
      have all_named : named? fields = some (fields.map label) := by
        refine named?_eq_some_iff.2 ⟨fun f member => ?_, rfl⟩
        simp only [order.mem_iff, List.mem_cons] at member
        obtain rfl | rfl | member := member
        · exact ⟨_, type_key⟩
        · exact ⟨_, bytes_key⟩
        · exact (extra f member).imp fun name named => named.1
      have labelled := order.map label
      rw [List.map_cons, List.map_cons, label_of_name? type_key, label_of_name? bytes_key] at labelled
      have type_given : required? "element_type" (fields.map label) = some type :=
        required?_of_perm labelled (by simpa using fun _ _ member => (other_names _ member).1)
      have bytes_given : required? "bytes" (fields.map label) = some bytes :=
        required?_of_perm (labelled.trans (.swap _ _ _))
          (by simpa using fun _ _ member => (other_names _ member).2)
      simp [storedElement?, all_named, type_given, bytes_given]

theorem exists_gives (stored : storedElement? document = some (t, frame)) :
    ∃ type bytes, Gives document type bytes := by
  unfold storedElement? at stored
  split at stored
  · exact ⟨_, _, .inOrder⟩
  · rename_i fields
    simp only [Option.bind_eq_bind, Option.bind_eq_some_iff] at stored
    obtain ⟨named, all_named, type, type_given, _, _, _, _, bytes, bytes_given, _⟩ := stored
    obtain ⟨each, rfl⟩ := named?_eq_some_iff.1 all_named
    obtain ⟨k, type_key, type_field⟩ := exists_field each type_given
    obtain ⟨l, bytes_key, bytes_field⟩ := exists_field each bytes_given
    have order := perm_of_filter (by simp +contextual) type_field bytes_field
    refine ⟨type, bytes, .byName order type_key bytes_key fun f member => ?_⟩
    simp only [List.mem_filter, Bool.not_eq_true', decide_eq_false_iff_not] at member
    obtain ⟨⟨place, not_type⟩, not_bytes⟩ := member
    obtain ⟨name, named⟩ := each f place
    rw [named, Option.some.injEq] at not_type not_bytes
    exact ⟨name, named, not_type, not_bytes⟩
  · cases stored

theorem stored_parts (gives : Gives document type bytes)
    (stored : storedElement? document = some (t, frame)) :
    tag? type = some t.name ∧ bytes = .array (frame.map fun b => .natural b.toNat) := by
  rw [storedElement?_of_gives gives] at stored
  simp only [Option.bind_eq_bind, Option.bind_eq_some_iff] at stored
  obtain ⟨name, tagged, t', known, frame', listed, same⟩ := stored
  cases same
  rw [ofName?_eq_some_iff] at known
  exact ⟨known ▸ tagged, bytes?_eq_some_iff.1 listed⟩

theorem storedElement?_eq_some_iff :
    storedElement? document = some (t, frame) ↔ Stores document t frame := by
  constructor
  · intro stored
    obtain ⟨type, bytes, gives⟩ := exists_gives stored
    obtain ⟨tagged, rfl⟩ := stored_parts gives stored
    exact ⟨type, gives, tagged⟩
  · intro ⟨type, gives, tagged⟩
    rw [storedElement?_of_gives gives, tagged, bytes?_eq_some_iff.2 rfl]
    simp [ElementType.ofName?_name]

end PairingWire.Document
