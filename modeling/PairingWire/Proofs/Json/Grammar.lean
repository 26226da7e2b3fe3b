import PairingWire.Json

/-!
The grammar of JSON text: which texts denote a value. Blanks may stand around every token, a character
of a string may be written as itself or in either escape, and the fields of an object keep their order.
-/

namespace PairingWire.Json

def AreBlank (cs : List Char) : Prop := ∀ c ∈ cs, isBlank c = true

inductive UnitText : Nat → List Char → Prop
  | plain {c : Char} (visible : 0x20 ≤ c.toNat) (not_quote : c ≠ '"') (not_backslash : c ≠ '\\') :
      UnitText c.toNat [c]
  | short {u : Nat} {c : Char} (stands : escaped? c = some u) : UnitText u ['\\', c]
  | digits {u : Nat} {a b c d : Char} (value : unit? a b c d = some u) :
      UnitText u ['\\', 'u', a, b, c, d]

inductive StringText : List Nat → List Char → Prop
  | close : StringText [] ['"']
  | unit {u : Nat} {us : List Nat} {s t : List Char} (first : UnitText u s)
      (others : StringText us t) : StringText (u :: us) (s ++ t)

def IsDigits (cs : List Char) : Prop := cs ≠ [] ∧ ∀ c ∈ cs, c.isDigit = true

/-- Digits without a superfluous zero. -/
def IsWhole (cs : List Char) : Prop := IsDigits cs ∧ ∀ c cs', cs ≠ '0' :: c :: cs'

inductive FractionText : List Char → Prop
  | absent : FractionText []
  | present {ds : List Char} (digits : IsDigits ds) : FractionText ('.' :: ds)

inductive ExponentText : List Char → Prop
  | absent : ExponentText []
  | present {mark : Char} {sign ds : List Char} (is_mark : mark = 'e' ∨ mark = 'E')
      (is_sign : sign = [] ∨ sign = ['+'] ∨ sign = ['-']) (digits : IsDigits ds) :
      ExponentText (mark :: (sign ++ ds))

inductive NumberText : Json → List Char → Prop
  | natural {ds : List Char} (whole : IsWhole ds) : NumberText (natural (naturalOf ds)) ds
  | decimal {sign ds fraction exponent : List Char} (is_sign : sign = [] ∨ sign = ['-'])
      (whole : IsWhole ds) (is_fraction : FractionText fraction)
      (is_exponent : ExponentText exponent) (more : sign ++ fraction ++ exponent ≠ []) :
      NumberText (decimal (sign ++ (ds ++ (fraction ++ exponent))))
        (sign ++ (ds ++ (fraction ++ exponent)))

inductive KeyText : List Nat → List Char → Prop
  | mk {k : List Nat} {b t b' : List Char} (before : AreBlank b) (key : StringText k t)
      (after : AreBlank b') : KeyText k (b ++ '"' :: (t ++ (b' ++ [':'])))

mutual

/-- A value and its text, without blanks around it. -/
inductive ValueText : Json → List Char → Prop
  | null : ValueText null ['n', 'u', 'l', 'l']
  | yes : ValueText (bool true) ['t', 'r', 'u', 'e']
  | no : ValueText (bool false) ['f', 'a', 'l', 's', 'e']
  | number {v : Json} {t : List Char} (number : NumberText v t) : ValueText v t
  | string {us : List Nat} {t : List Char} (units : StringText us t) :
      ValueText (string us) ('"' :: t)
  | emptyArray {b : List Char} (blank : AreBlank b) : ValueText (array []) ('[' :: (b ++ [']']))
  | array {vs : List Json} {t : List Char} (items : ItemsText vs t) :
      ValueText (array vs) ('[' :: t)
  | emptyObject {b : List Char} (blank : AreBlank b) :
      ValueText (object []) ('\x7b' :: (b ++ ['\x7d']))
  | object {fs : List (List Nat × Json)} {t : List Char} (fields : FieldsText fs t) :
      ValueText (object fs) ('\x7b' :: t)

inductive ItemsText : List Json → List Char → Prop
  | last {v : Json} {b t b' : List Char} (before : AreBlank b) (value : ValueText v t)
      (after : AreBlank b') : ItemsText [v] (b ++ (t ++ (b' ++ [']'])))
  | more {v : Json} {vs : List Json} {b t b' ts : List Char} (before : AreBlank b)
      (value : ValueText v t) (after : AreBlank b') (others : ItemsText vs ts) :
      ItemsText (v :: vs) (b ++ (t ++ (b' ++ ',' :: ts)))

inductive FieldsText : List (List Nat × Json) → List Char → Prop
  | last {k : List Nat} {v : Json} {s b t b' : List Char} (key : KeyText k s) (before : AreBlank b)
      (value : ValueText v t) (after : AreBlank b') :
      FieldsText [(k, v)] (s ++ (b ++ (t ++ (b' ++ ['\x7d']))))
  | more {k : List Nat} {v : Json} {fs : List (List Nat × Json)} {s b t b' ts : List Char}
      (key : KeyText k s) (before : AreBlank b) (value : ValueText v t) (after : AreBlank b')
      (others : FieldsText fs ts) :
      FieldsText ((k, v) :: fs) (s ++ (b ++ (t ++ (b' ++ ',' :: ts))))

end

inductive DocumentText : Json → List Char → Prop
  | mk {v : Json} {b t b' : List Char} (before : AreBlank b) (value : ValueText v t)
      (after : AreBlank b') : DocumentText v (b ++ (t ++ b'))

end PairingWire.Json
