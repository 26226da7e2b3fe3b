import PairingWire.Proofs.Hex
import PairingWire.Proofs.Json.Grammar

/-!
What is rendered is in the grammar: numbers, strings of characters, and arrays and objects of such
values. The name that a string of characters makes is itself.
-/

namespace PairingWire.Json

variable {v : Json}

/-! ### Numbers -/

theorem head_toDigits {n : Nat} (positive : 0 < n) : (Nat.toDigits 10 n).head? ≠ some '0' := by
  induction n using Nat.strongRecOn with
  | ind n ih =>
      rw [Nat.toDigits_eq_if (by decide)]
      split
      · interval_cases n <;> decide
      · rw [List.head?_append, Option.or_of_isSome (by simp [Nat.toDigits_ne_nil])]
        exact ih (n / 10) (by omega) (by omega)

theorem isWhole_toDigits (n : Nat) : IsWhole (Nat.toDigits 10 n) := by
  refine ⟨⟨Nat.toDigits_ne_nil, fun c => Nat.isDigit_of_mem_toDigits (by decide) (by decide)⟩, ?_⟩
  intro c cs padded
  rcases Nat.eq_zero_or_pos n with rfl | positive
  · cases padded
  · exact head_toDigits positive (by rw [padded]; rfl)

theorem naturalOf_toDigits (n : Nat) : naturalOf (Nat.toDigits 10 n) = n :=
  Nat.ofDigitChars_ten_toDigits

/-! ### Strings -/

theorem unit?_escape {u : Nat} (small : u < 0x10000) :
    unit? (Hex.digit (u / 4096 % 16)) (Hex.digit (u / 256 % 16)) (Hex.digit (u / 16 % 16))
      (Hex.digit (u % 16)) = some u := by
  have digit (n : Nat) := Hex.digit?_digit (Nat.mod_lt n (by decide : 0 < 16))
  simp only [unit?, Hex.digits?, List.mapM_cons, List.mapM_nil, digit, Option.bind_eq_bind,
    Option.bind_some, Option.pure_def, Option.map_some, Hex.value, List.foldl_cons, List.foldl_nil,
    Option.some.injEq]
  omega

theorem not_surrogate (c : Char) : isLeading c.toNat = false ∧ isTrailing c.toNat = false := by
  have valid : c.toNat.isValidChar := c.valid
  simp only [Nat.isValidChar] at valid
  simp only [isLeading, isTrailing, decide_eq_false_iff_not]
  omega

theorem unitText_renderUnit (c : Char) : UnitText c.toNat (renderUnit c.toNat) := by
  unfold renderUnit
  split
  · rename_i quote
    rw [quote]
    exact .short rfl
  split
  · rename_i backslash
    rw [backslash]
    exact .short rfl
  split
  · rename_i hidden
    simp only [not_surrogate c, Bool.false_eq_true, or_false] at hidden
    exact .digits (unit?_escape (by omega))
  · rename_i not_quote not_backslash visible
    rw [Char.ofNat_toNat]
    apply UnitText.plain
    · omega
    · rintro rfl
      exact not_quote rfl
    · rintro rfl
      exact not_backslash rfl

theorem stringText_render (s : String) :
    StringText (unitsOf s) ((unitsOf s).flatMap renderUnit ++ ['"']) := by
  unfold unitsOf
  induction s.toList with
  | nil => exact .close
  | cons c cs ih =>
      rw [List.map_cons, List.flatMap_cons, List.append_assoc]
      exact .unit (unitText_renderUnit c) ih

theorem chars?_toNat (cs : List Char) : chars? (cs.map Char.toNat) = some cs := by
  induction cs with
  | nil => rfl
  | cons c cs ih =>
      cases cs with
      | nil => simp [chars?, not_surrogate c]
      | cons d cs => simpa [chars?, not_surrogate c] using ih

@[simp] theorem name?_unitsOf (s : String) : name? (unitsOf s) = some s := by
  simp [name?, unitsOf, chars?_toNat]

/-! ### Values -/

theorem areBlank_nil : AreBlank [] := by simp [AreBlank]

theorem keyText_render (name : String) :
    KeyText (unitsOf name) (renderString (unitsOf name) ++ [':']) := by
  simpa [renderString] using KeyText.mk areBlank_nil (stringText_render name) areBlank_nil

/-- A value that is rendered in the grammar's form. -/
def Written (v : Json) : Prop := ValueText v v.render

structure WrittenField (f : List Nat × Json) : Prop where
  key : KeyText f.1 (renderString f.1 ++ [':'])
  value : Written f.2

theorem itemsText_render {v : Json} {vs : List Json} (first : Written v)
    (others : ∀ w ∈ vs, Written w) :
    ItemsText (v :: vs) (separate (renderItems (v :: vs)) ++ [']']) := by
  induction vs generalizing v with
  | nil => exact .last areBlank_nil first areBlank_nil
  | cons w vs ih =>
      have later := ih (others w List.mem_cons_self) fun u member =>
        others u (List.mem_cons_of_mem w member)
      simpa [renderItems, separate] using ItemsText.more areBlank_nil first areBlank_nil later

theorem fieldsText_render {f : List Nat × Json} {fs : List (List Nat × Json)} (first : WrittenField f)
    (others : ∀ g ∈ fs, WrittenField g) :
    FieldsText (f :: fs) (separate (renderFields (f :: fs)) ++ ['\x7d']) := by
  induction fs generalizing f with
  | nil =>
      simpa [renderFields, separate] using
        FieldsText.last first.key areBlank_nil first.value areBlank_nil
  | cons g fs ih =>
      have later := ih (others g List.mem_cons_self) fun h member =>
        others h (List.mem_cons_of_mem g member)
      simpa [renderFields, separate] using
        FieldsText.more first.key areBlank_nil first.value areBlank_nil later

namespace Written

theorem natural (n : Nat) : Written (.natural n) := by
  have number := ValueText.number (.natural (isWhole_toDigits n))
  rwa [naturalOf_toDigits] at number

theorem ofString (s : String) : Written (.ofString s) := .string (stringText_render s)

theorem array {vs : List Json} (each : ∀ v ∈ vs, Written v) : Written (.array vs) := by
  cases vs with
  | nil => exact ValueText.emptyArray areBlank_nil
  | cons v vs =>
      exact ValueText.array (itemsText_render (each v List.mem_cons_self) fun w member =>
        each w (List.mem_cons_of_mem v member))

theorem object {fs : List (List Nat × Json)} (each : ∀ f ∈ fs, WrittenField f) :
    Written (.object fs) := by
  cases fs with
  | nil => exact ValueText.emptyObject areBlank_nil
  | cons f fs =>
      exact ValueText.object (fieldsText_render (each f List.mem_cons_self) fun g member =>
        each g (List.mem_cons_of_mem f member))

end Written

end PairingWire.Json
