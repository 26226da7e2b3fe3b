import PairingWire.Proofs.Json.Token

/-!
The reader and the grammar agree: a text is read as a value, with nothing but blanks left, exactly if
the grammar gives it that value.
-/

namespace PairingWire.Json

variable {steps : Nat} {v : Json} {cs rest t : List Char}

/-! ### What comes next -/

theorem Delimited.blank_append {b : List Char} (blank : AreBlank b) (ends : Delimited rest) :
    Delimited (b ++ rest) := by
  cases b with
  | nil => exact ends
  | cons c b =>
      have is_blank := blank c List.mem_cons_self
      simp only [isBlank, decide_eq_true_eq] at is_blank
      obtain rfl | rfl | rfl | rfl := is_blank <;> simp [Delimited]

theorem delimited_nil : Delimited [] := by simp [Delimited]

theorem delimited_cons {c : Char} (other : c.isDigit = false ∧ c ≠ '.' ∧ c ≠ 'e' ∧ c ≠ 'E')
    (cs : List Char) : Delimited (c :: cs) := by
  simpa [Delimited] using other

theorem NumberText.cons (number : NumberText v t) :
    ∃ c t', t = c :: t' ∧ (c = '-' ∨ c.isDigit = true) := by
  cases number with
  | natural whole =>
      obtain ⟨d, ds, rfl, digit⟩ := whole.1.cons
      exact ⟨d, ds, rfl, .inr digit⟩
  | decimal is_sign whole =>
      obtain ⟨d, ds, rfl, digit⟩ := whole.1.cons
      obtain rfl | rfl := is_sign
      · exact ⟨d, _, rfl, .inr digit⟩
      · exact ⟨'-', _, rfl, .inl rfl⟩

theorem ValueText.cons (value : ValueText v t) :
    ∃ c t', t = c :: t' ∧ isBlank c = false ∧ c ≠ ']' := by
  cases value with
  | number number =>
      obtain ⟨c, t', rfl, start⟩ := number.cons
      refine ⟨c, t', rfl, ?_, ?_⟩
      · by_contra blank
        simp only [isBlank, decide_eq_false_iff_not, not_not] at blank
        obtain rfl | rfl | rfl | rfl := blank <;> revert start <;> decide
      · rintro rfl
        revert start
        decide
  | _ => exact ⟨_, _, rfl, by decide, by decide⟩

theorem ValueText.ends_blank (value : ValueText v t) (rest : List Char) :
    Ends isBlank (t ++ rest) := by
  obtain ⟨c, t', rfl, fresh, -⟩ := value.cons
  simpa [Ends] using fresh

theorem ItemsText.skipBlanks {vs : List Json} (items : ItemsText vs t) (rest : List Char) :
    ∃ c cs, skipBlanks (t ++ rest) = c :: cs ∧ c ≠ ']' := by
  cases items with
  | @last v b t b' before value after =>
      obtain ⟨c, t', rfl, -, not_bracket⟩ := value.cons
      have opened := skipBlanks_append before (value.ends_blank (b' ++ ']' :: rest))
      exact ⟨c, _, by simpa using opened, not_bracket⟩
  | @more v vs b t b' ts before value after others =>
      obtain ⟨c, t', rfl, -, not_bracket⟩ := value.cons
      have opened := skipBlanks_append before (value.ends_blank (b' ++ ',' :: (ts ++ rest)))
      exact ⟨c, _, by simpa using opened, not_bracket⟩

theorem KeyText.skipBlanks {k : List Nat} (key : KeyText k t) (rest : List Char) :
    ∃ cs, skipBlanks (t ++ rest) = '"' :: cs := by
  cases key with
  | @mk b t b' before units after =>
      have opened := skipBlanks_append before
        (ends_cons (c := '"') (by decide) (t ++ (b' ++ ':' :: rest)))
      exact ⟨_, by simpa using opened⟩

theorem FieldsText.skipBlanks {fs : List (List Nat × Json)} (fields : FieldsText fs t)
    (rest : List Char) : ∃ cs, skipBlanks (t ++ rest) = '"' :: cs := by
  cases fields with
  | last key => simpa using key.skipBlanks _
  | more key => simpa using key.skipBlanks _

/-! ### What is read -/

theorem readValue_blank_append {b : List Char} (blank : AreBlank b) (fresh : Ends isBlank cs)
    (steps : Nat) : readValue steps (b ++ cs) = readValue steps cs := by
  cases steps with
  | zero => simp [readValue]
  | succ steps =>
      rw [readValue, readValue, skipBlanks_append blank fresh, skipBlanks_of_ends fresh]

theorem readValue_of_number {c : Char} (start : c = '-' ∨ c.isDigit = true)
    (opened : Json.skipBlanks cs = c :: rest) :
    readValue (steps + 1) cs = readNumber (c :: rest) := by
  rw [readValue, opened]
  split
  case h_7 => rfl
  all_goals
    rename_i same
    cases same
    exact absurd start (by decide)

/--
Whatever has the grammar's form is read within as many steps as it has characters. The text of items and
fields includes the character that closes them, so that every part of it is shorter.
-/
structure Complete (steps : Nat) : Prop where
  value : ∀ {v t}, ValueText v t → t.length ≤ steps → ∀ {rest}, Delimited rest →
    readValue steps (t ++ rest) = some (v, rest)
  items : ∀ {vs t}, ItemsText vs t → t.length ≤ steps → ∀ rest,
    readItems steps (t ++ rest) = some (vs, rest)
  fields : ∀ {fs t}, FieldsText fs t → t.length ≤ steps → ∀ rest,
    readFields steps (t ++ rest) = some (fs, rest)

namespace Complete

theorem zero : Complete 0 where
  value value bound := by
    obtain ⟨c, t', rfl, -⟩ := value.cons
    simp at bound
  items items bound := by
    cases items <;> simp at bound
  fields fields bound := by
    cases fields <;> simp at bound

variable (complete : Complete steps)

include complete

theorem value_succ (value : ValueText v t) (bound : t.length ≤ steps + 1) (ends : Delimited rest) :
    readValue (steps + 1) (t ++ rest) = some (v, rest) := by
  have opened := skipBlanks_of_ends (value.ends_blank rest)
  -- The text of a value starts with no blank, so the reader looks at its first character.
  cases value with
  | null => rfl
  | yes => rfl
  | no => rfl
  | number number =>
      obtain ⟨c, t', rfl, start⟩ := number.cons
      exact (readValue_of_number start opened).trans (readNumber_append number ends)
  | string units =>
      rw [readValue, opened]
      simp [readString_append units]
  | emptyArray inside =>
      have closed := skipBlanks_append inside (ends_cons (c := ']') (by decide) rest)
      rw [readValue, opened]
      simp [closed]
  | array items =>
      have read := complete.items items (by simpa using bound) rest
      obtain ⟨c, cs, next, not_bracket⟩ := items.skipBlanks rest
      rw [readValue, opened]
      simp [next, not_bracket, read]
  | emptyObject inside =>
      have closed := skipBlanks_append inside (ends_cons (c := '}') (by decide) rest)
      rw [readValue, opened]
      simp [closed]
  | object fields =>
      have read := complete.fields fields (by simpa using bound) rest
      obtain ⟨cs, next⟩ := fields.skipBlanks rest
      rw [readValue, opened]
      simp [next, read]

theorem padded {b b' : List Char} (before : AreBlank b) (value : ValueText v t)
    (after : AreBlank b') (short : t.length ≤ steps) (ends : Delimited rest) :
    readValue steps (b ++ (t ++ (b' ++ rest))) = some (v, b' ++ rest) := by
  rw [readValue_blank_append before (value.ends_blank _)]
  exact complete.value value short (ends.blank_append after)

theorem items_succ {vs : List Json} (items : ItemsText vs t) (bound : t.length ≤ steps + 1)
    (rest : List Char) : readItems (steps + 1) (t ++ rest) = some (vs, rest) := by
  cases items with
  | last before value after =>
      simp only [List.length_append, List.length_singleton] at bound
      have read := complete.padded before value after (by omega)
        (delimited_cons (c := ']') (by decide) rest)
      have closed := skipBlanks_append after (ends_cons (c := ']') (by decide) rest)
      simp [readItems, read, closed]
  | @more v vs b t b' ts before value after others =>
      simp only [List.length_append, List.length_cons] at bound
      have read := complete.padded before value after (by omega)
        (delimited_cons (c := ',') (by decide) (ts ++ rest))
      have parted := skipBlanks_append after (ends_cons (c := ',') (by decide) (ts ++ rest))
      have later := complete.items others (by omega) rest
      simp [readItems, read, parted, later]

theorem fields_succ {fs : List (List Nat × Json)} (fields : FieldsText fs t)
    (bound : t.length ≤ steps + 1) (rest : List Char) :
    readFields (steps + 1) (t ++ rest) = some (fs, rest) := by
  cases fields with
  | last key before value after =>
      simp only [List.length_append, List.length_singleton] at bound
      have read := complete.padded before value after (by omega)
        (delimited_cons (c := '\x7d') (by decide) rest)
      have closed := skipBlanks_append after (ends_cons (c := '\x7d') (by decide) rest)
      simp [readFields, readKey_append key, read, closed]
  | @more k v fs s b t b' ts key before value after others =>
      simp only [List.length_append, List.length_cons] at bound
      have read := complete.padded before value after (by omega)
        (delimited_cons (c := ',') (by decide) (ts ++ rest))
      have parted := skipBlanks_append after (ends_cons (c := ',') (by decide) (ts ++ rest))
      have later := complete.fields others (by omega) rest
      simp [readFields, readKey_append key, read, parted, later]

end Complete

theorem complete (steps : Nat) : Complete steps := by
  induction steps with
  | zero => exact .zero
  | succ steps ih =>
      exact
        { value := fun value bound _ ends => ih.value_succ value bound ends
          items := fun items bound rest => ih.items_succ items bound rest
          fields := fun fields bound rest => ih.fields_succ fields bound rest }

/-- Whatever is read within a number of steps has the grammar's form. -/
structure Sound (steps : Nat) : Prop where
  value : ∀ {cs v rest}, readValue steps cs = some (v, rest) →
    ∃ b t, AreBlank b ∧ ValueText v t ∧ cs = b ++ (t ++ rest)
  items : ∀ {cs vs rest}, readItems steps cs = some (vs, rest) →
    ∃ t, ItemsText vs t ∧ cs = t ++ rest
  fields : ∀ {cs fs rest}, readFields steps cs = some (fs, rest) →
    ∃ t, FieldsText fs t ∧ cs = t ++ rest

namespace Sound

theorem zero : Sound 0 where
  value found := by cases found
  items found := by cases found
  fields found := by cases found

variable (sound : Sound steps)

include sound

theorem value_succ (found : readValue (steps + 1) cs = some (v, rest)) :
    ∃ b t, AreBlank b ∧ ValueText v t ∧ cs = b ++ (t ++ rest) := by
  obtain ⟨b, blank, skipped⟩ := exists_blank_append_skipBlanks cs
  -- Blanks are skipped once for all cases; what follows them has to be the text of a value.
  suffices ∃ t, ValueText v t ∧ Json.skipBlanks cs = t ++ rest by
    obtain ⟨t, value, opened⟩ := this
    exact ⟨b, t, blank, value, opened ▸ skipped⟩
  rw [readValue] at found
  split at found
  · rename_i opened
    cases found
    exact ⟨_, .null, opened⟩
  · rename_i opened
    cases found
    exact ⟨_, .yes, opened⟩
  · rename_i opened
    cases found
    exact ⟨_, .no, opened⟩
  · rename_i opened
    obtain ⟨⟨us, left⟩, read, same⟩ := Option.map_eq_some_iff.1 found
    cases same
    obtain ⟨t, units, rfl⟩ := exists_string read
    exact ⟨_, .string units, opened⟩
  · rename_i after opened
    split at found
    · rename_i closed
      cases found
      obtain ⟨b', inside, spaced⟩ := exists_blank_append_skipBlanks after
      refine ⟨_, .emptyArray inside, ?_⟩
      rw [opened, spaced, closed]
      simp
    · obtain ⟨⟨vs, left⟩, read, same⟩ := Option.map_eq_some_iff.1 found
      cases same
      obtain ⟨t, items, rfl⟩ := sound.items read
      exact ⟨_, .array items, opened⟩
  · rename_i after opened
    split at found
    · rename_i closed
      cases found
      obtain ⟨b', inside, spaced⟩ := exists_blank_append_skipBlanks after
      refine ⟨_, .emptyObject inside, ?_⟩
      rw [opened, spaced, closed]
      simp
    · obtain ⟨⟨fs, left⟩, read, same⟩ := Option.map_eq_some_iff.1 found
      cases same
      obtain ⟨t, fields, rfl⟩ := sound.fields read
      exact ⟨_, .object fields, opened⟩
  · obtain ⟨t, number, opened⟩ := exists_number found
    exact ⟨t, .number number, opened⟩

theorem items_succ {vs : List Json} (found : readItems (steps + 1) cs = some (vs, rest)) :
    ∃ t, ItemsText vs t ∧ cs = t ++ rest := by
  simp only [readItems, Option.bind_eq_bind, Option.bind_eq_some_iff] at found
  obtain ⟨⟨v, afterValue⟩, read, next⟩ := found
  obtain ⟨b, t, before, value, rfl⟩ := sound.value read
  obtain ⟨b', after, skipped⟩ := exists_blank_append_skipBlanks afterValue
  split at next
  · rename_i closed
    cases next
    refine ⟨_, .last before value after, ?_⟩
    rw [skipped, closed]
    simp
  · rename_i afterComma parted
    simp only [Option.bind_eq_some_iff] at next
    obtain ⟨⟨vs', left⟩, later, same⟩ := next
    cases same
    obtain ⟨ts, others, rfl⟩ := sound.items later
    refine ⟨_, .more before value after others, ?_⟩
    rw [skipped, parted]
    simp
  · cases next

theorem fields_succ {fs : List (List Nat × Json)}
    (found : readFields (steps + 1) cs = some (fs, rest)) :
    ∃ t, FieldsText fs t ∧ cs = t ++ rest := by
  simp only [readFields, Option.bind_eq_bind, Option.bind_eq_some_iff] at found
  obtain ⟨⟨k, afterKey⟩, key_read, ⟨v, afterValue⟩, read, next⟩ := found
  obtain ⟨s, key, rfl⟩ := exists_key key_read
  obtain ⟨b, t, before, value, rfl⟩ := sound.value read
  obtain ⟨b', after, skipped⟩ := exists_blank_append_skipBlanks afterValue
  split at next
  · rename_i closed
    cases next
    refine ⟨_, .last key before value after, ?_⟩
    rw [skipped, closed]
    simp
  · rename_i afterComma parted
    simp only [Option.bind_eq_some_iff] at next
    obtain ⟨⟨fs', left⟩, later, same⟩ := next
    cases same
    obtain ⟨ts, others, rfl⟩ := sound.fields later
    refine ⟨_, .more key before value after others, ?_⟩
    rw [skipped, parted]
    simp
  · cases next

end Sound

theorem sound (steps : Nat) : Sound steps := by
  induction steps with
  | zero => exact .zero
  | succ steps ih =>
      exact
        { value := fun found => ih.value_succ found
          items := fun found => ih.items_succ found
          fields := fun found => ih.fields_succ found }

/-- A text is one value and blanks if and only if the grammar says so. -/
theorem read_eq_some_iff {text : String} :
    (∃ rest, read text = some (v, rest) ∧ Json.skipBlanks rest = []) ↔
      DocumentText v text.toList := by
  constructor
  · intro ⟨rest, found, ended⟩
    obtain ⟨b, t, before, value, same⟩ := (sound _).value found
    rw [same]
    exact .mk before value (skipBlanks_eq_nil_iff.1 ended)
  · intro document
    generalize form : text.toList = cs at document
    obtain ⟨before, value, after⟩ := document
    rename_i b t b'
    have size : text.length = (b ++ (t ++ b')).length := by rw [← form, String.length_toList]
    have ends : Delimited b' := by simpa using delimited_nil.blank_append after
    refine ⟨b', ?_, skipBlanks_eq_nil_iff.2 after⟩
    rw [read, form, readValue_blank_append before (value.ends_blank b')]
    apply (complete _).value value _ ends
    simp only [size, List.length_append]
    omega

theorem DocumentText.unique {w : Json} {text : String} (form : DocumentText v text.toList)
    (form' : DocumentText w text.toList) : v = w := by
  obtain ⟨rest, found, -⟩ := read_eq_some_iff.2 form
  obtain ⟨rest', found', -⟩ := read_eq_some_iff.2 form'
  rw [found] at found'
  cases found'
  rfl

end PairingWire.Json
