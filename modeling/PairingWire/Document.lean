import PairingWire.Element
import PairingWire.Json

/-!
Elements and settings as JSON documents. An element is stored as its type and its frame, and loading
it runs the full decoder. A record may also be given as the array of its fields in order; unknown
fields are passed over, and a field may not be given twice.
-/

namespace PairingWire

inductive LoadError
  | shape
  | codec (cause : CodecError)
  deriving DecidableEq, Repr

namespace Document

inductive FieldValue
  | absent
  | given (value : Json)

/-- A named field of a record; none if it is given twice. -/
def field? (name : String) (fields : List (String × Json)) : Option FieldValue :=
  match fields.filter (·.1 = name) with
  | [] => some .absent
  | [(_, v)] => some (.given v)
  | _ => none

def named? (fields : List (List Nat × Json)) : Option (List (String × Json)) :=
  fields.mapM fun (k, v) => (Json.name? k).map (·, v)

def required? (name : String) (fields : List (String × Json)) : Option Json :=
  match field? name fields with
  | some (.given v) => some v
  | _ => none

/-- The tag of a value without contents: a string, or an object that gives it `null`. -/
def tag? : Json → Option String
  | .string units => Json.name? units
  | .object [(units, .null)] => Json.name? units
  | _ => none

def bool? : Json → Option Bool
  | .bool b => some b
  | _ => none

def byte? : Json → Option UInt8
  | .natural n => if n < 256 then some (UInt8.ofNat n) else none
  | _ => none

def bytes? : Json → Option Bytes
  | .array items => items.mapM byte?
  | _ => none

def optional? : Json → Option (Option Bool)
  | .null => some none
  | v => (bool? v).map some

def storedElement? : Json → Option (ElementType × Bytes)
  | .array [type, bytes] => do
    return (← ElementType.ofName? (← tag? type), ← bytes? bytes)
  | .object fields => do
    let fields ← named? fields
    let type ← ElementType.ofName? (← tag? (← required? "element_type" fields))
    return (type, ← bytes? (← required? "bytes" fields))
  | _ => none

def storedSettings? : Json → Option Settings
  | .array [format, compress, withHeader] => do
    return ⟨← Format.ofName? (← tag? format), ← optional? compress, ← bool? withHeader⟩
  | .object fields => do
    let fields ← named? fields
    let format ← Format.ofName? (← tag? (← required? "format" fields))
    -- The one field that need not be given.
    let compress ← match ← field? "compress" fields with
      | .absent => some none
      | .given v => optional? v
    return ⟨format, compress, ← bool? (← required? "with_header" fields)⟩
  | _ => none

def ofElement (type : ElementType) (frame : Bytes) : Json :=
  .object [(Json.unitsOf "element_type", .ofString type.name),
    (Json.unitsOf "bytes", .array (frame.map fun b => .natural b.toNat))]

def ofSettings (s : Settings) : Json :=
  .object [(Json.unitsOf "format", .ofString s.format.name),
    (Json.unitsOf "compress", s.compress.elim .null .bool),
    (Json.unitsOf "with_header", .bool s.withHeader)]

end Document

open Document

def Element.store {e : Engine} (x : Element e) : Except CodecError String := do
  let frame ← x.encode {}
  return String.ofList (ofElement x.type frame).render

/-- Loads an element. Its contents are decoded before text after the document is refused. -/
def Element.load (e : Engine) (text : String) : Except LoadError (Element e) :=
  match Json.read text with
  | none => .error .shape
  | some (document, rest) =>
    match storedElement? document with
    | none => .error .shape
    | some (type, frame) => do
      let x ← (Element.decode e true type frame).mapError .codec
      if Json.skipBlanks rest = [] then return x else .error .shape

def Settings.store (s : Settings) : String := String.ofList (ofSettings s).render

def Settings.load (text : String) : Option Settings := do
  let (document, rest) ← Json.read text
  let s ← storedSettings? document
  if Json.skipBlanks rest = [] then return s else none

end PairingWire
