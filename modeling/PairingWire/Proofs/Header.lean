import Mathlib.Data.FinEnum
import PairingWire.Header
import PairingWire.Proofs.Outcome

/-!
Headers are read exactly as they are written: a string that is accepted is the header's own octets and
the payload, and every header of a known version and a named format is accepted.
-/

namespace PairingWire

theorem ElementType.ofByte?_eq_some_iff {b : UInt8} {t : ElementType} :
    ElementType.ofByte? b = some t ↔ t.toByte = b := by
  constructor
  · intro found
    simpa using List.find?_some found
  · rintro rfl
    exact ElementType.ofByte?_toByte t

theorem ElementType.toByte_injective : Function.Injective toByte :=
  Function.IsPartialInv.injective fun _ _ => ofByte?_eq_some_iff

theorem CurveId.ofByte?_eq_some_iff {b : UInt8} {c : CurveId} :
    CurveId.ofByte? b = some c ↔ c.toByte = b := by
  constructor
  · intro found
    simpa using List.find?_some found
  · rintro rfl
    exact CurveId.ofByte?_toByte c

theorem CurveId.toByte_injective : Function.Injective toByte :=
  Function.IsPartialInv.injective fun _ _ => ofByte?_eq_some_iff

theorem Format.ofByte?_eq_some_iff {b : UInt8} {f : Format} :
    Format.ofByte? b = some f ↔ f.toByte = b := by
  constructor
  · intro found
    simpa using List.find?_some found
  · rintro rfl
    exact Format.ofByte?_toByte f

theorem Format.toByte_injective : Function.Injective toByte :=
  Function.IsPartialInv.injective fun _ _ => ofByte?_eq_some_iff

namespace Flags

theorem toByte_bits : ∀ b : UInt8, b &&& 0x0F = 0 →
    toByte ⟨b &&& 0x80 ≠ 0, b &&& 0x40 ≠ 0, b &&& 0x20 ≠ 0, b &&& 0x10 ≠ 0⟩ = b := by
  decide +kernel

theorem ofByte_eq_ok_iff {b : UInt8} {flags : Flags} : ofByte b = .ok flags ↔ flags.toByte = b := by
  constructor
  · intro found
    unfold ofByte at found
    split at found
    · cases found
    · rename_i reserved
      cases found
      exact toByte_bits b (not_not.1 reserved)
  · rintro rfl
    exact ofByte_toByte flags

theorem ofByte_error (b : UInt8) :
    FailsWith (fun err => ∃ fault, err = .malformedHeader fault) (ofByte b) :=
  .ite (fun _ => .error ⟨_, rfl⟩) fun _ => .ok _

end Flags

namespace Header

theorem elementTypeOf_eq_ok_iff {b : UInt8} {t : ElementType} :
    elementTypeOf b = .ok t ↔ t.toByte = b := by
  rw [← ElementType.ofByte?_eq_some_iff, elementTypeOf]
  cases ElementType.ofByte? b <;> simp

theorem curveOf_eq_ok_iff {b : UInt8} {c : CurveId} : curveOf b = .ok c ↔ c.toByte = b := by
  rw [← CurveId.ofByte?_eq_some_iff, curveOf]
  cases CurveId.ofByte? b <;> simp

theorem formatOf_eq_ok_iff {b : UInt8} {f : Format} :
    formatOf b = .ok f ↔ f ≠ .auto ∧ f.toByte = b := by
  rw [← Format.ofByte?_eq_some_iff, formatOf]
  cases Format.ofByte? b with
  | none => simp
  | some f' => cases f' <;> cases f <;> simp

theorem elementTypeOf_error (b : UInt8) :
    FailsWith (fun err => ∃ fault, err = .malformedHeader fault) (elementTypeOf b) := by
  unfold elementTypeOf
  split
  · exact .ok _
  · exact .error ⟨_, rfl⟩

theorem curveOf_error (b : UInt8) :
    FailsWith (fun err => ∃ id, err = .unknownCurve id) (curveOf b) := by
  unfold curveOf
  split
  · exact .ok _
  · exact .error ⟨_, rfl⟩

theorem formatOf_error (b : UInt8) :
    FailsWith (fun err => ∃ fault, err = .malformedHeader fault) (formatOf b) := by
  unfold formatOf
  split
  · exact .error ⟨_, rfl⟩
  · exact .ok _
  · exact .error ⟨_, rfl⟩

/-- A string is read as a header and a payload exactly if it is these two, one after the other. -/
theorem parse_eq_ok_iff {bs payload : Bytes} {h : Header} :
    parse bs = .ok (h, payload) ↔
      h.version ≤ currentVersion ∧ h.format ≠ .auto ∧ h.toBytes ++ payload = bs := by
  constructor
  · intro found
    unfold parse at found
    split at found
    · rename_i m0 m1 m2 m3 version type curve format flags rest
      split at found
      · cases found
      · rename_i magic_eq
        split at found
        · cases found
        · rename_i known
          obtain ⟨t, type_read, found⟩ := bind_eq_ok_iff.1 found
          obtain ⟨c, curve_read, found⟩ := bind_eq_ok_iff.1 found
          obtain ⟨f, format_read, found⟩ := bind_eq_ok_iff.1 found
          obtain ⟨fl, flags_read, same⟩ := bind_eq_ok_iff.1 found
          cases same
          obtain ⟨named, format_byte⟩ := formatOf_eq_ok_iff.1 format_read
          refine ⟨UInt8.not_lt.1 known, named, ?_⟩
          rw [toBytes, ← not_not.1 magic_eq, elementTypeOf_eq_ok_iff.1 type_read,
            curveOf_eq_ok_iff.1 curve_read, format_byte, Flags.ofByte_eq_ok_iff.1 flags_read]
          rfl
    · cases found
  · rintro ⟨known, named, rfl⟩
    change (if currentVersion < h.version then _ else _) = _
    rw [if_neg (UInt8.not_lt.2 known), elementTypeOf_eq_ok_iff.2 rfl, ok_bind,
      curveOf_eq_ok_iff.2 rfl, ok_bind, formatOf_eq_ok_iff.2 ⟨named, rfl⟩, ok_bind,
      Flags.ofByte_eq_ok_iff.2 rfl]
    rfl

theorem octets_of_parse {bs payload : Bytes} {h : Header} (parsed : parse bs = .ok (h, payload)) :
    bs[5]? = some h.elementType.toByte ∧ bs[7]? = some h.format.toByte ∧
      bs[8]? = some h.flags.toByte ∧ bs[9]? = payload[0]? := by
  obtain ⟨_, _, rfl⟩ := parse_eq_ok_iff.1 parsed
  exact ⟨rfl, rfl, rfl, rfl⟩

theorem parse_append {bs payload : Bytes} {h : Header} (found : parse bs = .ok (h, payload))
    (more : Bytes) : parse (bs ++ more) = .ok (h, payload ++ more) := by
  obtain ⟨known, named, rfl⟩ := parse_eq_ok_iff.1 found
  exact parse_eq_ok_iff.2 ⟨known, named, (List.append_assoc _ _ _).symm⟩

theorem length_of_parse {bs payload : Bytes} {h : Header} (found : parse bs = .ok (h, payload)) :
    bs.length = size + payload.length := by
  obtain ⟨_, _, rfl⟩ := parse_eq_ok_iff.1 found
  rw [List.length_append, length_toBytes]

theorem parse_error (bs : Bytes) :
    FailsWith (fun err => (∃ fault, err = .malformedHeader fault) ∨
      (∃ version, err = .unsupportedVersion version 2) ∨ ∃ id, err = .unknownCurve id)
      (parse bs) := by
  unfold parse
  split
  · refine .ite (fun _ => .error (.inl ⟨_, rfl⟩)) fun _ => ?_
    refine .ite (fun _ => .error (.inr (.inl ⟨_, rfl⟩))) fun _ => ?_
    refine .bind (elementTypeOf_error _ |>.mono fun _ => .inl) fun t _ => ?_
    refine .bind (curveOf_error _ |>.mono fun _ => .inr ∘ .inr) fun c _ => ?_
    refine .bind (formatOf_error _ |>.mono fun _ => .inl) fun f _ => ?_
    exact .bind_ok (Flags.ofByte_error _ |>.mono fun _ => .inl)
  · exact .error (.inl ⟨_, rfl⟩)

end Header

end PairingWire
