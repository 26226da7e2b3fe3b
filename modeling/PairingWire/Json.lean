import PairingWire.Bytes

/-!
JSON values, their compact text, and reading them. Strings are lists of code units or code points, so
that text with an unpaired surrogate can be passed over; only paired ones make a name.
-/

namespace PairingWire

inductive Json
  | null
  | bool (b : Bool)
  -- Without sign, fraction and exponent.
  | natural (n : Nat)
  -- The text of any other number.
  | decimal (text : List Char)
  | string (units : List Nat)
  | array (items : List Json)
  | object (fields : List (List Nat × Json))

namespace Json

def unitsOf (s : String) : List Nat := s.toList.map Char.toNat

def ofString (s : String) : Json := string (unitsOf s)

def isLeading (u : Nat) : Bool := 0xD800 ≤ u ∧ u < 0xDC00

def isTrailing (u : Nat) : Bool := 0xDC00 ≤ u ∧ u < 0xE000

/-- The characters of a string, with pairs of surrogates joined; none if a surrogate is unpaired. -/
def chars? : List Nat → Option (List Char)
  | [] => some []
  | [u] => if isLeading u ∨ isTrailing u then none else some [Char.ofNat u]
  | u :: v :: rest =>
    if isLeading u then
      if isTrailing v then
        (chars? rest).map (Char.ofNat (0x10000 + (u - 0xD800) * 0x400 + (v - 0xDC00)) :: ·)
      else none
    else if isTrailing u then none
    else (chars? (v :: rest)).map (Char.ofNat u :: ·)

def name? (units : List Nat) : Option String := (chars? units).map String.ofList

def escapeUnit (u : Nat) : List Char :=
  '\\' :: 'u' :: [u / 4096 % 16, u / 256 % 16, u / 16 % 16, u % 16].map Hex.digit

def renderUnit (u : Nat) : List Char :=
  if u = 0x22 then ['\\', '"']
  else if u = 0x5C then ['\\', '\\']
  else if u < 0x20 ∨ isLeading u ∨ isTrailing u then escapeUnit u
  else [Char.ofNat u]

def renderString (units : List Nat) : List Char := '"' :: (units.flatMap renderUnit ++ ['"'])

def separate : List (List Char) → List Char
  | [] => []
  | [t] => t
  | t :: ts => t ++ ',' :: separate ts

mutual

def render : Json → List Char
  | null => ['n', 'u', 'l', 'l']
  | bool true => ['t', 'r', 'u', 'e']
  | bool false => ['f', 'a', 'l', 's', 'e']
  | natural n => Nat.toDigits 10 n
  | decimal text => text
  | string units => renderString units
  | array items => '[' :: (separate (renderItems items) ++ [']'])
  | object fields => '\x7b' :: (separate (renderFields fields) ++ ['\x7d'])

def renderItems : List Json → List (List Char)
  | [] => []
  | v :: vs => render v :: renderItems vs

def renderFields : List (List Nat × Json) → List (List Char)
  | [] => []
  | (k, v) :: fs => (renderString k ++ ':' :: render v) :: renderFields fs

end

/-!
Reading a JSON value off the front of a text. Every reader returns what is left of the text; each
character opens or ends at most two steps.
-/

def isBlank (c : Char) : Bool := c = ' ' ∨ c = '\n' ∨ c = '\t' ∨ c = '\r'

def skipBlanks (cs : List Char) : List Char := cs.dropWhile isBlank

def digits? (cs : List Char) : Option (List Char × List Char) :=
  match cs.takeWhile Char.isDigit with
  | [] => none
  | ds => some (ds, cs.dropWhile Char.isDigit)

def skipFraction (cs : List Char) : Option (List Char) :=
  match cs with
  | '.' :: rest => (digits? rest).map (·.2)
  | _ => some cs

def skipSign : List Char → List Char
  | '+' :: rest | '-' :: rest => rest
  | rest => rest

def skipExponent (cs : List Char) : Option (List Char) :=
  match cs with
  | 'e' :: rest | 'E' :: rest => (digits? (skipSign rest)).map (·.2)
  | _ => some cs

def naturalOf (digits : List Char) : Nat :=
  digits.foldl (fun n c => 10 * n + (c.toNat - '0'.toNat)) 0

/-- An unsigned integer without superfluous zeros, and what follows it. -/
def integer? (cs : List Char) : Option (List Char × List Char) :=
  match digits? cs with
  | some ('0' :: _ :: _, _) => none
  | r => r

def readNumber (cs : List Char) : Option (Json × List Char) := do
  let unsigned := match cs with
    | '-' :: rest => rest
    | _ => cs
  let (whole, afterWhole) ← integer? unsigned
  let rest ← skipExponent (← skipFraction afterWhole)
  -- Nothing but the digits was read.
  if whole.length + rest.length = cs.length then return (natural (naturalOf whole), rest)
  else return (decimal (cs.take (cs.length - rest.length)), rest)

def unit? (a b c d : Char) : Option Nat := (Hex.digits? [a, b, c, d]).map Hex.value

def escaped? : Char → Option Nat
  | '"' => some 0x22
  | '\\' => some 0x5C
  | '/' => some 0x2F
  | 'b' => some 0x08
  | 'f' => some 0x0C
  | 'n' => some 0x0A
  | 'r' => some 0x0D
  | 't' => some 0x09
  | _ => none

/-- The rest of a string after its opening quote. Control characters have to be escaped. -/
def readString : List Char → Option (List Nat × List Char)
  | [] => none
  | '"' :: rest => some ([], rest)
  | '\\' :: 'u' :: a :: b :: c :: d :: rest => do
    let u ← unit? a b c d
    let (us, rest) ← readString rest
    return (u :: us, rest)
  | '\\' :: c :: rest => do
    let u ← escaped? c
    let (us, rest) ← readString rest
    return (u :: us, rest)
  | c :: rest =>
    if c.toNat < 0x20 then none
    else do
      let (us, rest) ← readString rest
      return (c.toNat :: us, rest)

def readKey (cs : List Char) : Option (List Nat × List Char) :=
  match skipBlanks cs with
  | '"' :: rest => do
    let (key, rest) ← readString rest
    match skipBlanks rest with
    | ':' :: rest => return (key, rest)
    | _ => none
  | _ => none

mutual

/-- A value that is read in at most `steps` steps. -/
def readValue : Nat → List Char → Option (Json × List Char)
  | 0, _ => none
  | steps + 1, cs =>
    match skipBlanks cs with
    | 'n' :: 'u' :: 'l' :: 'l' :: rest => some (null, rest)
    | 't' :: 'r' :: 'u' :: 'e' :: rest => some (bool true, rest)
    | 'f' :: 'a' :: 'l' :: 's' :: 'e' :: rest => some (bool false, rest)
    | '"' :: rest => (readString rest).map fun (us, rest) => (string us, rest)
    | '[' :: rest =>
      match skipBlanks rest with
      | ']' :: rest => some (array [], rest)
      | _ => (readItems steps rest).map fun (vs, rest) => (array vs, rest)
    | '\x7b' :: rest =>
      match skipBlanks rest with
      | '\x7d' :: rest => some (object [], rest)
      | _ => (readFields steps rest).map fun (fs, rest) => (object fs, rest)
    | rest => readNumber rest

def readItems : Nat → List Char → Option (List Json × List Char)
  | 0, _ => none
  | steps + 1, cs => do
    let (v, rest) ← readValue steps cs
    match skipBlanks rest with
    | ']' :: rest => return ([v], rest)
    | ',' :: rest =>
      let (vs, rest) ← readItems steps rest
      return (v :: vs, rest)
    | _ => none

def readFields : Nat → List Char → Option (List (List Nat × Json) × List Char)
  | 0, _ => none
  | steps + 1, cs => do
    let (k, rest) ← readKey cs
    let (v, rest) ← readValue steps rest
    match skipBlanks rest with
    | '\x7d' :: rest => return ([(k, v)], rest)
    | ',' :: rest =>
      let (fs, rest) ← readFields steps rest
      return ((k, v) :: fs, rest)
    | _ => none

end

def read (text : String) : Option (Json × List Char) :=
  -- Each character opens or ends at most two steps.
  readValue (2 * text.length + 2) text.toList

end Json

end PairingWire
