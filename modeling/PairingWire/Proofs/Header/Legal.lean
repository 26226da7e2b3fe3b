import PairingWire.Proofs.Header

/-!
The legal headers. The known curves are entered in a table by their octets, and looking an octet up there is
the same as asking which curve has it. With that, a header is legal exactly if reading gives it back, all
other strings of nine octets are refused, and a version from the future is refused before the fields behind
it are looked at.
-/

namespace PairingWire

namespace CurveId

theorem mem_all (c : CurveId) : c ∈ all := by cases c <;> decide

def enter (entries : Std.HashMap UInt8 CurveDescriptor) (curves : List CurveId) :
    Std.HashMap UInt8 CurveDescriptor :=
  curves.foldl (fun entries c => entries.insert c.descriptor.id.toByte c.descriptor) entries

def registry : Std.HashMap UInt8 CurveDescriptor := enter ∅ all

theorem getElem?_enter (entries : Std.HashMap UInt8 CurveDescriptor) (curves : List CurveId) (b : UInt8) :
    (enter entries curves)[b]? =
      ((curves.reverse.find? (·.toByte = b)).map descriptor).or entries[b]? := by
  induction curves generalizing entries with
  | nil => rfl
  | cons c curves ih =>
      have step : enter entries (c :: curves) =
          enter (entries.insert c.descriptor.id.toByte c.descriptor) curves := rfl
      rw [step, ih, Std.HashMap.getElem?_insert, id_descriptor, List.reverse_cons, List.find?_append]
      cases curves.reverse.find? (·.toByte = b) with
      | some d => rfl
      | none =>
          by_cases entered : c.toByte = b
          · simp [entered]
          · simp [entered]

theorem find?_reverse_all (b : UInt8) : all.reverse.find? (·.toByte = b) = ofByte? b := by
  apply Option.ext
  intro c
  rw [ofByte?_eq_some_iff]
  constructor
  · intro found
    simpa using List.find?_some found
  · rintro rfl
    obtain ⟨d, found⟩ : ∃ d, all.reverse.find? (fun d => decide (d.toByte = c.toByte)) = some d :=
      Option.isSome_iff_exists.1
        (List.find?_isSome.2 ⟨c, List.mem_reverse.2 (mem_all c), decide_eq_true rfl⟩)
    have same : d.toByte = c.toByte := by simpa using List.find?_some found
    rw [found, toByte_injective same]

theorem registry_lookup (b : UInt8) : registry[b]? = (ofByte? b).map descriptor := by
  rw [registry, getElem?_enter, find?_reverse_all]
  simp

end CurveId

namespace Header

variable {bs payload : Bytes} {h : Header}

theorem curveOf_eq_registry (b : UInt8) :
    curveOf b =
      match CurveId.registry[b]? with
      | some descriptor => .ok descriptor.id
      | none => .error (.unknownCurve b) := by
  rw [CurveId.registry_lookup, curveOf]
  cases CurveId.ofByte? b with
  | none => rfl
  | some c => exact congrArg Except.ok (CurveId.id_descriptor c).symm

theorem exists_octets (long : size ≤ bs.length) :
    ∃ m0 m1 m2 m3 version type curve format flags payload,
      bs = m0 :: m1 :: m2 :: m3 :: version :: type :: curve :: format :: flags :: payload := by
  rcases bs with _ | ⟨m0, _ | ⟨m1, _ | ⟨m2, _ | ⟨m3, _ | ⟨version, _ | ⟨type, _ | ⟨curve, _ |
    ⟨format, _ | ⟨flags, payload⟩⟩⟩⟩⟩⟩⟩⟩⟩
  case cons.cons.cons.cons.cons.cons.cons.cons.cons => exact ⟨_, _, _, _, _, _, _, _, _, _, rfl⟩
  all_goals simp [size] at long

theorem take_of_parse (found : parse bs = .ok (h, payload)) : bs.take size = h.toBytes := by
  obtain ⟨_, _, rfl⟩ := parse_eq_ok_iff.1 found
  exact List.take_left' (length_toBytes h)

theorem parse_of_isLegacy (legacy : isLegacy bs = true) :
    ∃ fault, parse bs = .error (.malformedHeader fault) := by
  unfold parse
  split
  · rename_i m0 m1 m2 m3 version type curve format flags payload
    have foreign : [m0, m1, m2, m3] ≠ magic := of_decide_eq_true legacy
    exact ⟨_, if_pos foreign⟩
  · exact ⟨_, rfl⟩

theorem parse_of_newer {version : UInt8} (long : size ≤ bs.length) (marked : magic <+: bs)
    (found : bs[4]? = some version) (newer : currentVersion < version) :
    parse bs = .error (.unsupportedVersion version currentVersion) := by
  obtain ⟨m0, m1, m2, m3, version', type, curve, format, flags, payload, rfl⟩ := exists_octets long
  cases found
  have own : [m0, m1, m2, m3] = magic := (List.prefix_iff_eq_take.1 marked).symm
  rw [parse, if_neg (not_not.2 own), if_pos newer]

theorem reserved_toByte (flags : Flags) : flags.toByte &&& 0x0F = 0 := by
  obtain ⟨compressed, infinity, ySign, cyclotomic⟩ := flags
  cases compressed <;> cases infinity <;> cases ySign <;> cases cyclotomic <;> rfl

/-- One field that no header has is enough for a refusal, whatever stands around it. -/
theorem parse_of_unknown {front : Bytes} {type curve format flags : UInt8} (five : front.length = 5)
    (unknown : (∀ t : ElementType, t.toByte ≠ type) ∨ (∀ c : CurveId, c.toByte ≠ curve) ∨
      (∀ f : Format, f ≠ .auto → f.toByte ≠ format) ∨ flags &&& 0x0F ≠ 0) :
    ∃ err, parse (front ++ type :: curve :: format :: flags :: payload) = .error err := by
  refine exists_error_of_ne_ok fun result found => ?_
  obtain ⟨h, payload'⟩ := result
  obtain ⟨_, named, same⟩ := parse_eq_ok_iff.1 found
  have fields : (magic ++ [h.version]) ++ (h.elementType.toByte :: h.curve.toByte ::
      h.format.toByte :: h.flags.toByte :: payload') =
      front ++ type :: curve :: format :: flags :: payload := same
  obtain ⟨_, fields⟩ := List.append_inj fields (by rw [five]; rfl)
  simp only [List.cons.injEq] at fields
  obtain ⟨type_eq, curve_eq, format_eq, flags_eq, _⟩ := fields
  rcases unknown with no_type | no_curve | no_format | reserved
  · exact no_type h.elementType type_eq
  · exact no_curve h.curve curve_eq
  · exact no_format h.format named format_eq
  · exact reserved (flags_eq ▸ reserved_toByte h.flags)

/--
A string is read as a header and a payload exactly if the header is legal and the string is what writing
makes of the two. So a header has one spelling; an unknown field is refused in every string, and so is a
string without the magic word; a version from the future is refused as such whatever follows it. The curve
octet is looked up in the table of the known curves.
-/
theorem legal_headers_read :
    (∀ (bs : Bytes) (h : Header) (payload : Bytes), parse bs = .ok (h, payload) ↔
      h.version ≤ 2 ∧ h.format ≠ .auto ∧ bs = h.toBytes ++ payload) ∧
    (∀ (bs bs' : Bytes) (h : Header) (payload payload' : Bytes), parse bs = .ok (h, payload) →
      parse bs' = .ok (h, payload') → bs.take 9 = bs'.take 9) ∧
    (∀ (front : Bytes) (type curve format flags : UInt8) (payload : Bytes), front.length = 5 →
      (∀ t : ElementType, t.toByte ≠ type) ∨ (∀ c : CurveId, c.toByte ≠ curve) ∨
        (∀ f : Format, f ≠ .auto → f.toByte ≠ format) ∨ flags &&& 0x0F ≠ 0 →
      ∃ err, parse (front ++ type :: curve :: format :: flags :: payload) = .error err) ∧
    (∀ bs : Bytes, isLegacy bs = true → ∃ fault, parse bs = .error (.malformedHeader fault)) ∧
    (∀ (bs : Bytes) (version : UInt8), 9 ≤ bs.length → magic <+: bs → bs[4]? = some version →
      2 < version → parse bs = .error (.unsupportedVersion version 2)) ∧
    ∀ b : UInt8, curveOf b =
      match CurveId.registry[b]? with
      | some descriptor => .ok descriptor.id
      | none => .error (.unknownCurve b) := by
  refine ⟨?_, ?_, ?_, ?_, ?_, curveOf_eq_registry⟩
  · intro bs h payload
    rw [parse_eq_ok_iff, eq_comm (a := bs)]
    rfl
  · intro bs bs' h payload payload' found found'
    exact (take_of_parse found).trans (take_of_parse found').symm
  · intro front type curve format flags payload five unknown
    exact parse_of_unknown five unknown
  · intro bs legacy
    exact parse_of_isLegacy legacy
  · intro bs version long marked found newer
    exact parse_of_newer long marked found newer

theorem legal_headers_read_points :
    parse [0x4F, 0x41, 0x42, 0x45, 0x02, 0xB2, 0xA2, 0x02, 0xA0, 0x01] =
      .ok (⟨2, .g1, .bls12P381, .zcash, ⟨true, false, true, false⟩⟩, [0x01]) ∧
    parse [0x4F, 0x41, 0x42, 0x45, 0x02, 0xB2, 0xA2, 0x02, 0xA0] =
      .ok (⟨2, .g1, .bls12P381, .zcash, ⟨true, false, true, false⟩⟩, []) ∧
    ([0x4F, 0x41, 0x42, 0x45, 0x02, 0xB2, 0xA2, 0x02, 0xA0, 0x01] : Bytes).take 9 =
      ([0x4F, 0x41, 0x42, 0x45, 0x02, 0xB2, 0xA2, 0x02, 0xA0] : Bytes).take 9 ∧
    (∃ err, parse [0x4F, 0x41, 0x42, 0x45, 0x02, 0xB9, 0xA2, 0x02, 0xA0, 0x01] = .error err) ∧
    (∃ fault, parse [0x4F, 0xBE, 0x42, 0x45, 0x02, 0xB2, 0xA2, 0x02, 0xA0] =
      .error (.malformedHeader fault)) ∧
    parse [0x4F, 0x41, 0x42, 0x45, 0x03, 0xB9, 0x00, 0xFF, 0x01] =
      .error (.unsupportedVersion 3 2) := by
  obtain ⟨read, spelled, unknown, legacy, newer, _⟩ := legal_headers_read
  have framed := (read [0x4F, 0x41, 0x42, 0x45, 0x02, 0xB2, 0xA2, 0x02, 0xA0, 0x01]
    ⟨2, .g1, .bls12P381, .zcash, ⟨true, false, true, false⟩⟩ [0x01]).2
    ⟨by decide, by decide, rfl⟩
  have alone := (read [0x4F, 0x41, 0x42, 0x45, 0x02, 0xB2, 0xA2, 0x02, 0xA0]
    ⟨2, .g1, .bls12P381, .zcash, ⟨true, false, true, false⟩⟩ []).2
    ⟨by decide, by decide, rfl⟩
  refine ⟨framed, alone, spelled _ _ _ _ _ framed alone, ?_, legacy _ (by decide),
    newer _ 3 (by decide) (by decide) rfl (by decide)⟩
  exact unknown [0x4F, 0x41, 0x42, 0x45, 0x02] 0xB9 0xA2 0x02 0xA0 [0x01] rfl
    (.inl fun t => by cases t <;> decide)

end Header

end PairingWire
