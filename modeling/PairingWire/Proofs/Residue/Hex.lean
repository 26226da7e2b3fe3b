import PairingWire.Engine
import PairingWire.Proofs.Hex
import PairingWire.Proofs.Residue

/-!
Residues as hexadecimal text. The digits behind one optional `0x` decide alone what is read: none or an
illegal one is reported first, then more octets than the width, then a number that is not reduced.
-/

namespace PairingWire.Residue

open Hex (IsDigit)

variable {m : Nat} {s s' : String}

def unprefixed (s : String) : List Char :=
  if "0x".toList <+: s.toList then s.toList.drop 2 else s.toList

def octetCount (digits : List Char) : Nat := (digits.length + 1) / 2

theorem hexDigits_eq_unprefixed (s : String) : hexDigits s.toList = unprefixed s := by
  unfold hexDigits unprefixed
  split
  · rename_i digits text
    rw [text, if_pos ⟨digits, rfl⟩]
    rfl
  · rename_i other
    rw [if_neg]
    rintro ⟨digits, text⟩
    exact other digits text.symm

def IsNumeral (digits : List Char) : Prop := digits ≠ [] ∧ ∀ c ∈ digits, IsDigit c

theorem not_isNumeral_iff {digits : List Char} :
    ¬IsNumeral digits ↔ digits = [] ∨ ∃ c ∈ digits, ¬IsDigit c := by
  rw [IsNumeral, not_and_or, not_not]
  simp only [not_forall, exists_prop]

theorem unprefixed_of_not_prefix (plain : ¬"0x".toList <+: s.toList) : unprefixed s = s.toList :=
  if_neg plain

theorem unprefixed_append (s : String) : unprefixed ("0x" ++ s) = s.toList := by
  rw [unprefixed, String.toList_append, if_pos (List.prefix_append _ _)]
  rfl

theorem ofHex_of_not_isNumeral (malformed : ¬IsNumeral (unprefixed s)) :
    ofHex m s = .error .invalidHex := by
  rw [ofHex, hexDigits_eq_unprefixed]
  by_cases empty : Hex.octets (unprefixed s) = []
  · rw [if_pos empty]
  · have illegal : ¬∀ c ∈ Hex.padEven (Hex.octets (unprefixed s)), IsDigit c := by
      rw [Hex.forall_padEven_iff, Hex.forall_octets_iff]
      exact fun legal => malformed ⟨fun none => empty (Hex.octets_eq_nil_iff.2 none), legal⟩
    rw [if_neg empty, Hex.toBytes?_of_not_forall illegal]

theorem ofHex_of_isNumeral (numeral : IsNumeral (unprefixed s)) :
    ofHex m s =
      if width m < octetCount (unprefixed s) then
        .error (.wrongLength (width m) (octetCount (unprefixed s)))
      else ofNat? m (Hex.number (unprefixed s)) := by
  obtain ⟨some, legal⟩ := numeral
  have length_padded := Hex.length_padEven (unprefixed s)
  obtain ⟨raw, found, length_eq, number_eq⟩ :=
    Hex.exists_toBytes? (Hex.forall_padEven_iff.2 legal) (by omega)
  have count : raw.length = octetCount (unprefixed s) := by
    unfold octetCount
    omega
  rw [ofHex, hexDigits_eq_unprefixed, Hex.octets_of_forall legal]
  simp only [if_neg some, found, count]
  split
  · rfl
  · rename_i fits
    have total : (List.replicate (width m - octetCount (unprefixed s)) 0 ++ raw).length = width m := by
      rw [List.length_append, List.length_replicate, count]
      omega
    rw [ofBytes, if_pos total, Bytes.toNatBE_zeros, number_eq, Hex.number_padEven]

theorem ofHex_of_fits (numeral : IsNumeral (unprefixed s))
    (fits : octetCount (unprefixed s) ≤ width m) :
    ofHex m s = ofNat? m (Hex.number (unprefixed s)) := by
  rw [ofHex_of_isNumeral numeral, if_neg (not_lt.2 fits)]

theorem ofHex_eq_invalidHex_iff :
    ofHex m s = .error .invalidHex ↔ ¬IsNumeral (unprefixed s) := by
  constructor
  · intro refused numeral
    rw [ofHex_of_isNumeral numeral, ofNat?] at refused
    split at refused
    · cases refused
    · split at refused <;> cases refused
  · exact ofHex_of_not_isNumeral

theorem ofHex_eq_wrongLength_iff (numeral : IsNumeral (unprefixed s)) :
    ofHex m s = .error (.wrongLength (width m) (octetCount (unprefixed s))) ↔
      width m < octetCount (unprefixed s) := by
  constructor
  · intro refused
    by_contra fits
    rw [ofHex_of_fits numeral (not_lt.1 fits), ofNat?] at refused
    split at refused <;> cases refused
  · intro long
    rw [ofHex_of_isNumeral numeral, if_pos long]

theorem ofHex_eq_notReduced_iff (numeral : IsNumeral (unprefixed s))
    (fits : octetCount (unprefixed s) ≤ width m) :
    ofHex m s = .error .notReduced ↔ m ≤ Hex.number (unprefixed s) := by
  rw [ofHex_of_fits numeral fits, ofNat?]
  constructor
  · intro refused
    split at refused
    · cases refused
    · exact not_lt.1 ‹_›
  · intro large
    rw [dif_neg (not_lt.2 large)]

/-- Texts whose digits write one number, in the same or in fitting numbers of octets, read alike. -/
theorem ofHex_congr (numerals : IsNumeral (unprefixed s) ↔ IsNumeral (unprefixed s'))
    (sizes : octetCount (unprefixed s) = octetCount (unprefixed s') ∨
      octetCount (unprefixed s) ≤ width m ∧ octetCount (unprefixed s') ≤ width m)
    (same : Hex.number (unprefixed s) = Hex.number (unprefixed s')) : ofHex m s = ofHex m s' := by
  by_cases numeral : IsNumeral (unprefixed s)
  · rcases sizes with size | ⟨fits, fits'⟩
    · rw [ofHex_of_isNumeral numeral, ofHex_of_isNumeral (numerals.1 numeral), size, same]
    · rw [ofHex_of_fits numeral fits, ofHex_of_fits (numerals.1 numeral) fits', same]
  · rw [ofHex_of_not_isNumeral numeral, ofHex_of_not_isNumeral (mt numerals.2 numeral)]

theorem ofHex_prefix (plain : ¬"0x".toList <+: s.toList) : ofHex m ("0x" ++ s) = ofHex m s := by
  have same : unprefixed ("0x" ++ s) = unprefixed s := by
    rw [unprefixed_append, unprefixed_of_not_prefix plain]
  exact ofHex_congr (by rw [same]) (.inl (by rw [same])) (by rw [same])

theorem ofHex_of_lower
    (same : (unprefixed s).map Char.toLower = (unprefixed s').map Char.toLower) :
    ofHex m s = ofHex m s' := by
  have length_eq : (unprefixed s).length = (unprefixed s').length := by
    simpa using congrArg List.length same
  refine ofHex_congr ?_ (.inl ?_) (Hex.number_of_lower same)
  · rw [IsNumeral, IsNumeral, Hex.forall_isDigit_of_lower same, ← List.length_pos_iff, length_eq,
      List.length_pos_iff]
  · rw [octetCount, octetCount, length_eq]

theorem ofHex_of_zeros {k : Nat} (some : unprefixed s ≠ [])
    (padded : unprefixed s' = List.replicate k '0' ++ unprefixed s)
    (fits : octetCount (unprefixed s') ≤ width m) : ofHex m s' = ofHex m s := by
  have shorter : octetCount (unprefixed s) ≤ octetCount (unprefixed s') := by
    rw [octetCount, octetCount, padded, List.length_append]
    omega
  refine ofHex_congr ?_ (.inr ⟨fits, shorter.trans fits⟩) ?_
  · rw [IsNumeral, IsNumeral, padded, Hex.forall_isDigit_zeros]
    simp [some]
  · rw [padded, Hex.number_zeros]

theorem ofHex_toHex (a : Residue m) : ofHex m a.toHex = .ok a := by
  have digits : ∀ c ∈ a.toHex.toList, IsDigit c := Hex.forall_ofBytes a.toBytes
  have length_eq : a.toHex.toList.length = 2 * width m := by
    rw [toHex, Hex.length_ofBytes, length_toBytes]
  have plain : ¬"0x".toList <+: a.toHex.toList := by
    intro marked
    have letter : 'x' ∈ a.toHex.toList := marked.subset (by decide)
    exact absurd (digits 'x' letter) (by decide)
  have text := unprefixed_of_not_prefix plain
  have : Modulus m := ⟨a.modulus_pos.ne'⟩
  have numeral : IsNumeral (unprefixed a.toHex) := by
    rw [text]
    refine ⟨?_, digits⟩
    rw [← List.length_pos_iff, length_eq]
    have positive := width_ne_zero m
    omega
  have fits : octetCount (unprefixed a.toHex) ≤ width m := by
    rw [octetCount, text, length_eq]
    omega
  rw [ofHex_of_fits numeral fits, text, toHex, Hex.number_ofBytes, toNatBE_toBytes, ofNat?_val]

/-- What is read from each text as a residue modulo `m`. -/
structure ReadsHex (m : Nat) : Prop where
  invalidHex (s : String) :
    ofHex m s = .error .invalidHex ↔ unprefixed s = [] ∨ ∃ c ∈ unprefixed s, ¬IsDigit c
  wrongLength {s : String} : IsNumeral (unprefixed s) →
    (ofHex m s = .error (.wrongLength (width m) (octetCount (unprefixed s))) ↔
      width m < octetCount (unprefixed s))
  notReduced {s : String} : IsNumeral (unprefixed s) → octetCount (unprefixed s) ≤ width m →
    (ofHex m s = .error .notReduced ↔ m ≤ Hex.number (unprefixed s))
  read {s : String} : IsNumeral (unprefixed s) → octetCount (unprefixed s) ≤ width m →
    Hex.number (unprefixed s) < m → ∃ a, ofHex m s = .ok a ∧ a.val = Hex.number (unprefixed s)
  written (a : Residue m) : ofHex m a.toHex = .ok a
  marked {s : String} : ¬"0x".toList <+: s.toList → ofHex m ("0x" ++ s) = ofHex m s
  letterCase {s s' : String} :
    (unprefixed s).map Char.toLower = (unprefixed s').map Char.toLower → ofHex m s = ofHex m s'
  leadingZeros {s s' : String} {k : Nat} : unprefixed s ≠ [] →
    unprefixed s' = List.replicate k '0' ++ unprefixed s →
    octetCount (unprefixed s') ≤ width m → ofHex m s' = ofHex m s

theorem readsHex (m : Nat) : ReadsHex m where
  invalidHex _ := ofHex_eq_invalidHex_iff.trans not_isNumeral_iff
  wrongLength := ofHex_eq_wrongLength_iff
  notReduced := ofHex_eq_notReduced_iff
  read {s} numeral fits reduced :=
    ⟨⟨Hex.number (unprefixed s), reduced⟩, by rw [ofHex_of_fits numeral fits, ofNat?, dif_pos reduced],
      rfl⟩
  written := ofHex_toHex
  marked := ofHex_prefix
  letterCase := ofHex_of_lower
  leadingZeros := ofHex_of_zeros

example : ofHex 251 "0xfA" = .ok ⟨250, by decide⟩ ∧ ofHex 251 "0x0xfA" = .error .invalidHex ∧
    ofHex 251 "0fa" = .error (.wrongLength 1 2) ∧ ofHex 251 "ff" = .error .notReduced :=
  ⟨rfl, rfl, rfl, rfl⟩

/-- In both fields of either engine a text is read exactly if its digits write a reduced number. -/
theorem hex_texts_read_exactly (e : Engine) : ReadsHex e.groupOrder ∧ ReadsHex e.fieldOrder :=
  ⟨readsHex _, readsHex _⟩

end PairingWire.Residue
