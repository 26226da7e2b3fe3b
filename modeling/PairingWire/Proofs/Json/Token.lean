import Mathlib.Data.List.TakeWhile
import PairingWire.Proofs.Json.Grammar

/-!
The tokens of a text. Every reader takes exactly what the grammar allows off the front of a text, and
takes it whenever what follows cannot belong to the same token.
-/

namespace PairingWire.Json

variable {cs rest t ds : List Char}

def Ends (kind : Char → Bool) (cs : List Char) : Prop := ∀ c ∈ cs.head?, kind c = false

section Run

variable {kind : Char → Bool} {c : Char} {cs rest : List Char}

theorem ends_cons (other : kind c = false) (cs : List Char) : Ends kind (c :: cs) := by
  simpa [Ends] using other

theorem takeWhile_append_of_ends (inside : ∀ c ∈ cs, kind c = true) (ends : Ends kind rest) :
    (cs ++ rest).takeWhile kind = cs := by
  rw [List.takeWhile_append_of_pos inside]
  cases rest with
  | nil => simp
  | cons c rest => simp [ends c rfl]

theorem dropWhile_append_of_ends (inside : ∀ c ∈ cs, kind c = true) (ends : Ends kind rest) :
    (cs ++ rest).dropWhile kind = rest := by
  rw [List.dropWhile_append_of_pos inside]
  cases rest with
  | nil => rfl
  | cons c rest => simp [ends c rfl]

end Run

/-! ### Blanks -/

theorem skipBlanks_append {b : List Char} (blank : AreBlank b) (fresh : Ends isBlank cs) :
    skipBlanks (b ++ cs) = cs :=
  dropWhile_append_of_ends blank fresh

theorem skipBlanks_of_ends (fresh : Ends isBlank cs) : skipBlanks cs = cs :=
  skipBlanks_append (b := []) (fun _ absent => nomatch absent) fresh

theorem skipBlanks_eq_nil_iff : skipBlanks cs = [] ↔ AreBlank cs := List.dropWhile_eq_nil_iff

theorem exists_blank_append_skipBlanks (cs : List Char) :
    ∃ b, AreBlank b ∧ cs = b ++ skipBlanks cs :=
  ⟨cs.takeWhile isBlank, fun _ => List.mem_takeWhile_imp, List.takeWhile_append_dropWhile.symm⟩

/-! ### Numbers -/

def NoFraction (cs : List Char) : Prop := ∀ c ∈ cs.head?, c.isDigit = false ∧ c ≠ '.'

/-- Nothing comes next that could prolong a number. -/
def Delimited (cs : List Char) : Prop :=
  ∀ c ∈ cs.head?, c.isDigit = false ∧ c ≠ '.' ∧ c ≠ 'e' ∧ c ≠ 'E'

theorem NoFraction.noDigit (ends : NoFraction cs) : Ends Char.isDigit cs :=
  fun c next => (ends c next).1

theorem Delimited.noFraction (ends : Delimited cs) : NoFraction cs :=
  fun c next => ⟨(ends c next).1, (ends c next).2.1⟩

theorem IsDigits.cons (digits : IsDigits ds) : ∃ d ds', ds = d :: ds' ∧ d.isDigit = true := by
  obtain ⟨some_digit, each⟩ := digits
  cases ds with
  | nil => exact absurd rfl some_digit
  | cons d ds' => exact ⟨d, ds', rfl, each d List.mem_cons_self⟩

theorem digits?_append (digits : IsDigits ds) (ends : Ends Char.isDigit rest) :
    digits? (ds ++ rest) = some (ds, rest) := by
  have taken := takeWhile_append_of_ends digits.2 ends
  have left := dropWhile_append_of_ends digits.2 ends
  obtain ⟨d, ds', rfl, -⟩ := digits.cons
  simp only [digits?, taken, left]

theorem isDigits_of_digits? (found : digits? cs = some (ds, rest)) :
    IsDigits ds ∧ cs = ds ++ rest := by
  unfold digits? at found
  split at found
  · cases found
  · rename_i taken some_digit
    cases found
    exact ⟨⟨some_digit, fun c => List.mem_takeWhile_imp⟩, List.takeWhile_append_dropWhile.symm⟩

theorem integer?_append (whole : IsWhole ds) (ends : Ends Char.isDigit rest) :
    integer? (ds ++ rest) = some (ds, rest) := by
  rw [integer?, digits?_append whole.1 ends]
  split
  · rename_i c cs left same
    cases same
    exact absurd rfl (whole.2 c cs)
  · rfl

theorem isWhole_of_integer? (found : integer? cs = some (ds, rest)) :
    IsWhole ds ∧ cs = ds ++ rest := by
  unfold integer? at found
  split at found
  · cases found
  · rename_i unpadded
    obtain ⟨digits, same⟩ := isDigits_of_digits? found
    refine ⟨⟨digits, ?_⟩, same⟩
    rintro c ds' rfl
    exact unpadded c ds' rest found

theorem skipFraction_append (fraction : FractionText t) (ends : NoFraction rest) :
    skipFraction (t ++ rest) = some rest := by
  cases fraction with
  | absent =>
      rw [List.nil_append]
      unfold skipFraction
      split
      · exact absurd rfl (ends '.' rfl).2
      · rfl
  | present digits => simp [skipFraction, digits?_append digits ends.noDigit]

theorem exists_fraction (found : skipFraction cs = some rest) :
    ∃ t, FractionText t ∧ cs = t ++ rest := by
  unfold skipFraction at found
  split at found
  · obtain ⟨⟨ds, left⟩, read, rfl⟩ := Option.map_eq_some_iff.1 found
    obtain ⟨digits, rfl⟩ := isDigits_of_digits? read
    exact ⟨_, .present digits, rfl⟩
  · cases found
    exact ⟨[], .absent, rfl⟩

theorem skipSign_append {sign : List Char} (is_sign : sign = [] ∨ sign = ['+'] ∨ sign = ['-'])
    (digits : IsDigits ds) (rest : List Char) :
    skipSign (sign ++ (ds ++ rest)) = ds ++ rest := by
  obtain ⟨d, ds, rfl, digit⟩ := digits.cons
  obtain rfl | rfl | rfl := is_sign
  · unfold skipSign
    split
    · rename_i same
      cases same
      cases digit
    · rename_i same
      cases same
      cases digit
    · rfl
  · rfl
  · rfl

theorem exists_sign (cs : List Char) :
    ∃ sign, (sign = [] ∨ sign = ['+'] ∨ sign = ['-']) ∧ cs = sign ++ skipSign cs := by
  unfold skipSign
  split
  · exact ⟨['+'], by simp, rfl⟩
  · exact ⟨['-'], by simp, rfl⟩
  · exact ⟨[], by simp, rfl⟩

theorem skipExponent_append (is_exponent : ExponentText t) (ends : Delimited rest) :
    skipExponent (t ++ rest) = some rest := by
  cases is_exponent with
  | absent =>
      rw [List.nil_append]
      unfold skipExponent
      split
      · exact absurd rfl (ends 'e' rfl).2.2.1
      · exact absurd rfl (ends 'E' rfl).2.2.2
      · rfl
  | present is_mark is_sign digits =>
      have read := digits?_append digits ends.noFraction.noDigit
      obtain rfl | rfl := is_mark <;>
        simp [skipExponent, skipSign_append is_sign digits, read]

theorem exists_exponent (found : skipExponent cs = some rest) :
    ∃ t, ExponentText t ∧ cs = t ++ rest := by
  have after_mark {mark : Char} {cs : List Char} (is_mark : mark = 'e' ∨ mark = 'E')
      (found : (digits? (skipSign cs)).map (·.2) = some rest) :
      ∃ t, ExponentText t ∧ mark :: cs = t ++ rest := by
    obtain ⟨⟨ds, left⟩, read, rfl⟩ := Option.map_eq_some_iff.1 found
    obtain ⟨digits, unsigned⟩ := isDigits_of_digits? read
    obtain ⟨sign, is_sign, signed⟩ := exists_sign cs
    refine ⟨mark :: (sign ++ ds), .present is_mark is_sign digits, ?_⟩
    rw [signed, unsigned]
    simp
  unfold skipExponent at found
  split at found
  · exact after_mark (.inl rfl) found
  · exact after_mark (.inr rfl) found
  · cases found
    exact ⟨[], .absent, rfl⟩

theorem ExponentText.noFraction_append (is_exponent : ExponentText t) (ends : Delimited rest) :
    NoFraction (t ++ rest) := by
  cases is_exponent with
  | absent => exact ends.noFraction
  | present is_mark => obtain rfl | rfl := is_mark <;> simp [NoFraction]

theorem FractionText.noDigit_append (fraction : FractionText t) (ends : NoFraction rest) :
    Ends Char.isDigit (t ++ rest) := by
  cases fraction with
  | absent => exact ends.noDigit
  | present => simp [Ends]

theorem readNumber_signed {sign : List Char} (is_sign : sign = [] ∨ sign = ['-'])
    (digits : IsDigits ds) (rest : List Char) :
    readNumber (sign ++ (ds ++ rest)) = do
      let (whole, after) ← integer? (ds ++ rest)
      let left ← skipExponent (← skipFraction after)
      if whole.length + left.length = (sign ++ (ds ++ rest)).length then
        return (natural (naturalOf whole), left)
      else
        return (decimal ((sign ++ (ds ++ rest)).take ((sign ++ (ds ++ rest)).length - left.length)),
          left) := by
  obtain rfl | rfl := is_sign
  · obtain ⟨d, ds, rfl, digit⟩ := digits.cons
    simp only [readNumber, List.nil_append, List.cons_append]
    split
    · rename_i same
      cases same
      cases digit
    · rfl
  · rfl

theorem readNumber_append {v : Json} (number : NumberText v t) (ends : Delimited rest) :
    readNumber (t ++ rest) = some (v, rest) := by
  cases number with
  | natural whole =>
      have whole_read := integer?_append whole ends.noFraction.noDigit
      have fraction_read := skipFraction_append .absent ends.noFraction
      have exponent_read := skipExponent_append .absent ends
      rw [List.nil_append] at fraction_read exponent_read
      rw [← List.nil_append (t ++ rest), readNumber_signed (.inl rfl) whole.1]
      simp [whole_read, fraction_read, exponent_read]
  | @decimal sign ds fraction exponent is_sign whole is_fraction is_exponent more =>
      have after_fraction := is_exponent.noFraction_append ends
      have whole_read := integer?_append whole (is_fraction.noDigit_append after_fraction)
      have fraction_read := skipFraction_append is_fraction after_fraction
      have exponent_read := skipExponent_append is_exponent ends
      have longer : 0 < sign.length + fraction.length + exponent.length := by
        simpa only [List.length_append] using List.length_pos_iff.2 more
      have text : sign ++ (ds ++ (fraction ++ exponent)) ++ rest =
          sign ++ (ds ++ (fraction ++ (exponent ++ rest))) := by
        simp
      rw [text, readNumber_signed is_sign whole.1]
      simp only [whole_read, fraction_read, exponent_read, Option.bind_eq_bind, Option.bind_some]
      rw [if_neg (by simp only [List.length_append]; omega), ← text, List.length_append,
        Nat.add_sub_cancel, List.take_left]
      rfl

theorem exists_number_of_parts {sign unsigned after exponent : List Char} {v : Json}
    (is_sign : sign = [] ∨ sign = ['-']) (whole_read : integer? unsigned = some (ds, after))
    (fraction_read : skipFraction after = some exponent)
    (exponent_read : skipExponent exponent = some rest)
    (value : (if ds.length + rest.length = (sign ++ unsigned).length then natural (naturalOf ds)
      else decimal ((sign ++ unsigned).take ((sign ++ unsigned).length - rest.length))) = v) :
    ∃ t, NumberText v t ∧ sign ++ unsigned = t ++ rest := by
  obtain ⟨whole, rfl⟩ := isWhole_of_integer? whole_read
  obtain ⟨fraction, is_fraction, rfl⟩ := exists_fraction fraction_read
  obtain ⟨exponent, is_exponent, rfl⟩ := exists_exponent exponent_read
  have text : sign ++ (ds ++ (fraction ++ (exponent ++ rest))) =
      sign ++ (ds ++ (fraction ++ exponent)) ++ rest := by
    simp
  rw [text] at value ⊢
  split at value
  · rename_i bare
    have parts : sign = [] ∧ fraction = [] ∧ exponent = [] := by
      simp only [List.length_append] at bare
      simp only [← List.length_eq_zero_iff]
      omega
    obtain ⟨rfl, rfl, rfl⟩ := parts
    exact ⟨ds, value ▸ .natural whole, by simp⟩
  · rename_i more
    refine ⟨_, ?_, rfl⟩
    rw [← value, List.length_append, Nat.add_sub_cancel, List.take_left]
    refine .decimal is_sign whole is_fraction is_exponent ?_
    intro none
    apply more
    simp only [List.append_eq_nil_iff] at none
    simp [none]

theorem exists_number {v : Json} (found : readNumber cs = some (v, rest)) :
    ∃ t, NumberText v t ∧ cs = t ++ rest := by
  simp only [readNumber, Option.bind_eq_bind, Option.bind_eq_some_iff] at found
  obtain ⟨⟨ds, after⟩, whole_read, exponent, fraction_read, left, exponent_read, value⟩ := found
  have ended : left = rest ∧ (if ds.length + left.length = cs.length then natural (naturalOf ds)
      else decimal (cs.take (cs.length - left.length))) = v := by
    split at value <;> cases value <;> simp [*]
  obtain ⟨rfl, ended⟩ := ended
  split at whole_read
  · exact exists_number_of_parts (.inr rfl) whole_read fraction_read exponent_read ended
  · exact exists_number_of_parts (.inl rfl) whole_read fraction_read exponent_read ended

/-! ### Strings -/

theorem readString_unit {u : Nat} (first : UnitText u t) (cs : List Char) :
    readString (t ++ cs) = (readString cs).map fun (us, rest) => (u :: us, rest) := by
  cases first with
  | @plain c visible not_quote not_backslash =>
      rw [List.singleton_append, readString.eq_5 c cs not_quote, if_neg (by omega)]
      · cases readString cs <;> rfl
      · intros; contradiction
      · intros; contradiction
  | @short u c stands =>
      change readString ('\\' :: c :: cs) = _
      rw [readString.eq_4, stands]
      · cases readString cs <;> rfl
      · rintro a b c' d rest rfl
        cases stands
  | @digits u a b c d value =>
      change readString ('\\' :: 'u' :: a :: b :: c :: d :: cs) = _
      rw [readString.eq_3, value]
      cases readString cs <;> rfl

theorem readString_append {us : List Nat} (units : StringText us t) (rest : List Char) :
    readString (t ++ rest) = some (us, rest) := by
  induction units with
  | close => rfl
  | unit first others ih => rw [List.append_assoc, readString_unit first, ih]; rfl

theorem exists_string_cons {u : Nat} {us : List Nat} (first : UnitText u t)
    (others : ∀ {us}, readString cs = some (us, rest) → ∃ t, StringText us t ∧ cs = t ++ rest)
    (found : (do
      let (us, rest) ← readString cs
      return (u :: us, rest)) = some (us, rest)) :
    ∃ s, StringText us s ∧ t ++ cs = s ++ rest := by
  simp only [Option.bind_eq_bind, Option.bind_eq_some_iff] at found
  obtain ⟨⟨us', left⟩, read, same⟩ := found
  cases same
  obtain ⟨s, units, rfl⟩ := others read
  exact ⟨t ++ s, .unit first units, (List.append_assoc t s _).symm⟩

theorem exists_string {us : List Nat} (found : readString cs = some (us, rest)) :
    ∃ t, StringText us t ∧ cs = t ++ rest := by
  fun_induction readString cs generalizing us with
  | case1 => cases found
  | case2 =>
      cases found
      exact ⟨_, .close, rfl⟩
  | case3 a b c d cs ih =>
      obtain ⟨u, value, found⟩ := Option.bind_eq_some_iff.1 found
      exact exists_string_cons (.digits value) ih found
  | case4 c cs not_digits ih =>
      obtain ⟨u, stands, found⟩ := Option.bind_eq_some_iff.1 found
      exact exists_string_cons (.short stands) ih found
  | case5 => cases found
  | case6 c cs not_quote not_digits not_escape visible ih =>
      -- A backslash comes to this case only at the end of the text, where no string can end.
      have not_backslash : c ≠ '\\' := by
        rintro rfl
        cases cs with
        | nil => cases found
        | cons c cs => exact not_escape c cs rfl rfl
      exact exists_string_cons (.plain (by omega) not_quote not_backslash) ih found

/-! ### Keys -/

theorem readKey_append {k : List Nat} (key : KeyText k t) (rest : List Char) :
    readKey (t ++ rest) = some (k, rest) := by
  cases key with
  | @mk b t b' before units after =>
      have opened := skipBlanks_append before
        (ends_cons (c := '"') (by decide) (t ++ (b' ++ ':' :: rest)))
      have closed := skipBlanks_append after (ends_cons (c := ':') (by decide) rest)
      have read := readString_append units (b' ++ ':' :: rest)
      simp [readKey, opened, closed, read]

theorem exists_key {k : List Nat} (found : readKey cs = some (k, rest)) :
    ∃ t, KeyText k t ∧ cs = t ++ rest := by
  unfold readKey at found
  split at found
  · rename_i after opened
    simp only [Option.bind_eq_bind, Option.bind_eq_some_iff] at found
    obtain ⟨⟨key, afterKey⟩, read, colon⟩ := found
    split at colon
    · rename_i left closed
      cases colon
      obtain ⟨b, before, skipped⟩ := exists_blank_append_skipBlanks cs
      obtain ⟨text, units, rfl⟩ := exists_string read
      obtain ⟨b', after, ended⟩ := exists_blank_append_skipBlanks afterKey
      refine ⟨_, .mk before units after, ?_⟩
      rw [skipped, opened, ended, closed]
      simp
    · cases colon
  · cases found

end PairingWire.Json
