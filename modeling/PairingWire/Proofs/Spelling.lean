import PairingWire.Proofs.Layout.NativeSpelling
import PairingWire.Proofs.Migration

/-!
How many spellings native data has. Every element has one, but for the points at infinity of the BN
engine, beside which any abscissa may stand. Otherwise no two bare strings, framed payloads or strings
to be migrated are read as one element.
-/

namespace PairingWire

variable {e : Engine} {t : ElementType} {bs bs' : Bytes}

theorem Layout.exists_decodePoint_legacy_iff {F : Type} {p : Nat} [Modulus p] [CoordinateField F p]
    [Field F] [DecidableEq F] {C : Curve F} {P : Point F} {same : Prop} :
    (∃ flags, decodePoint e C .legacy bs = .ok (P, flags) ∧ same) ↔
      Native.decodePoint e C bs = .ok P ∧ same := by
  simp only [decodePoint, bind_eq_ok_iff, liftArithmetic_eq_ok_iff, pure_eq_ok, Except.ok.injEq,
    Prod.mk.injEq]
  constructor
  · rintro ⟨flags, ⟨Q, read, rfl, _⟩, holds⟩
    exact ⟨read, holds⟩
  · rintro ⟨read, holds⟩
    exact ⟨_, ⟨P, read, rfl, rfl⟩, holds⟩

namespace Layout.Native

theorem decodePoint_g1_eq_ok_iff {P : Point (Fq e)} :
    decodePoint e e.g1 bs = .ok P ↔ e.g1.Valid P ∧ Spells e P bs :=
  decodePoint_eq_ok_iff e.fieldOrder_le e.odd_g1_order

theorem decodePoint_g2_eq_ok_iff {Q : Point (Fq2 e)} :
    decodePoint e e.g2 bs = .ok Q ↔ e.g2.Valid Q ∧ Spells e Q bs :=
  decodePoint_eq_ok_iff e.fieldOrder_le e.odd_g2_order

end Layout.Native

namespace Element

open Layout.Native (Spells)

/-- What native data spells in one way only. -/
def SpelledOnce (x : Element e) : Prop := e = .bls12P381 ∨ x.isInfinity = false

variable {x : Element e}

theorem decodeBare_legacy_g1_eq_ok_iff :
    decodeBare e .legacy .g1 bs = .ok x ↔
      ∃ P, Layout.Native.decodePoint e e.g1 bs = .ok P ∧ g1 P = x := by
  rw [decodeBare_g1_eq_ok_iff (by decide) rfl]
  exact exists_congr fun P => Layout.exists_decodePoint_legacy_iff

theorem decodeBare_legacy_g2_eq_ok_iff :
    decodeBare e .legacy .g2 bs = .ok x ↔
      ∃ Q, Layout.Native.decodePoint e e.g2 bs = .ok Q ∧ g2 Q = x := by
  rw [decodeBare_g2_eq_ok_iff (by decide) rfl]
  exact exists_congr fun Q => Layout.exists_decodePoint_legacy_iff

theorem ne_infinity_of_spelledOnce {F : Type} {P : Point F}
    (single : e = .bls12P381 ∨ P.isInfinity = false) : e = .bls12P381 ∨ P ≠ .infinity := by
  apply single.imp_right
  rintro finite rfl
  cases finite

theorem nativeBytes_of_decodeBare (single : x.SpelledOnce)
    (found : decodeBare e .legacy t bs = .ok x) : x.nativeBytes = bs := by
  cases t with
  | zp =>
      obtain ⟨flags, read⟩ := decodeBare_eq_ok_iff.1 found
      obtain ⟨s, scalar, same⟩ := bind_eq_ok_iff.1 read
      cases same
      exact Layout.decodeScalar_eq_ok_iff.1 scalar
  | g1 =>
      obtain ⟨P, native, rfl⟩ := decodeBare_legacy_g1_eq_ok_iff.1 found
      have spelled := (Layout.Native.decodePoint_g1_eq_ok_iff.1 native).2
      exact spelled.eq_encodePoint (ne_infinity_of_spelledOnce single)
  | g2 =>
      obtain ⟨Q, native, rfl⟩ := decodeBare_legacy_g2_eq_ok_iff.1 found
      have spelled := (Layout.Native.decodePoint_g2_eq_ok_iff.1 native).2
      exact spelled.eq_encodePoint (ne_infinity_of_spelledOnce single)
  | gt =>
      obtain ⟨flags, read⟩ := decodeBare_eq_ok_iff.1 found
      obtain ⟨⟨y, flags'⟩, target, same⟩ := bind_eq_ok_iff.1 read
      cases same
      obtain ⟨y', native, same⟩ := bind_eq_ok_iff.1 target
      cases same
      exact (Layout.Native.decodeTarget_eq_ok_iff.1 (liftArithmetic_eq_ok_iff.1 native)).2

theorem eq_of_decodeBare (single : x.SpelledOnce) (found : decodeBare e .legacy t bs = .ok x)
    (found' : decodeBare e .legacy t bs' = .ok x) : bs = bs' := by
  rw [← nativeBytes_of_decodeBare single found, nativeBytes_of_decodeBare single found']

theorem eq_of_decodeFramed (single : x.SpelledOnce) {header header' : Header}
    {payload payload' : Bytes} (parsed : Header.parse bs = .ok (header, payload))
    (parsed' : Header.parse bs' = .ok (header', payload')) (native : header.format = .legacy)
    (native' : header'.format = .legacy) (found : decodeFramed e t bs = .ok x)
    (found' : decodeFramed e t bs' = .ok x) :
    payload = payload' ∧ (header.version = header'.version → bs = bs') := by
  obtain ⟨_, _, again, curve_eq, type_eq, read⟩ := decodeFramed_eq_ok_iff.1 found
  rw [parsed] at again
  cases again
  obtain ⟨_, _, again, curve_eq', type_eq', read'⟩ := decodeFramed_eq_ok_iff.1 found'
  rw [parsed'] at again
  cases again
  rw [native] at read
  rw [native'] at read'
  have same : payload = payload' :=
    eq_of_decodeBare single (decodeBare_eq_ok_iff.2 ⟨_, read⟩) (decodeBare_eq_ok_iff.2 ⟨_, read'⟩)
  subst same
  rw [read] at read'
  -- The payload determines the flags, and so the header but for its version.
  have flags_eq : header.flags = header'.flags := (Prod.mk.inj (Except.ok.inj read')).2
  refine ⟨rfl, ?_⟩
  intro version_eq
  have header_eq : header = header' := by
    cases header
    cases header'
    simp_all
  rw [← (Header.parse_eq_ok_iff.1 parsed).2.2, ← (Header.parse_eq_ok_iff.1 parsed').2.2, header_eq]

theorem decodeBare_of_migrate {out : Bytes} (moved : migrate e t e.curveId bs = .ok out)
    (found : decode e true t out = .ok x) : decodeBare e .legacy t bs = .ok x := by
  rw [migrate_own_curve] at moved
  obtain ⟨y, native, written⟩ := bind_eq_ok_iff.1 moved
  have read := (Migrated.of_encode native written).read
  rw [found] at read
  cases read
  exact native

/--
Exactly the spellings of the points of the groups are read. But for the points at infinity of the BN
engine there is one, so that no two strings are read as one element, bare, framed or migrated.
-/
theorem native_points_spelled_once (e : Engine) :
    (∀ (bs : Bytes) (P : Point (Fq e)),
      (Layout.Native.decodePoint e e.g1 bs = .ok P ↔ e.g1.Valid P ∧ Spells e P bs) ∧
      (e = .bls12P381 ∨ P ≠ .infinity → Layout.Native.decodePoint e e.g1 bs = .ok P →
        Layout.Native.encodePoint e P = bs)) ∧
    (∀ (bs : Bytes) (Q : Point (Fq2 e)),
      (Layout.Native.decodePoint e e.g2 bs = .ok Q ↔ e.g2.Valid Q ∧ Spells e Q bs) ∧
      (e = .bls12P381 ∨ Q ≠ .infinity → Layout.Native.decodePoint e e.g2 bs = .ok Q →
        Layout.Native.encodePoint e Q = bs)) ∧
    (∀ (t : ElementType) (bs bs' : Bytes) (x : Element e), x.SpelledOnce →
      (decodeBare e .legacy t bs = .ok x → decodeBare e .legacy t bs' = .ok x → bs = bs') ∧
      (∀ (header header' : Header) (payload payload' : Bytes),
        Header.parse bs = .ok (header, payload) → Header.parse bs' = .ok (header', payload') →
        header.format = .legacy → header'.format = .legacy → decode e true t bs = .ok x →
        decode e true t bs' = .ok x →
        payload = payload' ∧ (header.version = header'.version → bs = bs')) ∧
      (∀ out out' : Bytes, migrate e t e.curveId bs = .ok out →
        migrate e t e.curveId bs' = .ok out' → decode e true t out = .ok x →
        decode e true t out' = .ok x → bs = bs')) := by
  refine ⟨?_, ?_, ?_⟩
  · intro bs P
    refine ⟨Layout.Native.decodePoint_g1_eq_ok_iff, ?_⟩
    intro single found
    exact (Layout.Native.decodePoint_g1_eq_ok_iff.1 found).2.eq_encodePoint single
  · intro bs Q
    refine ⟨Layout.Native.decodePoint_g2_eq_ok_iff, ?_⟩
    intro single found
    exact (Layout.Native.decodePoint_g2_eq_ok_iff.1 found).2.eq_encodePoint single
  · intro t bs bs' x single
    refine ⟨eq_of_decodeBare single, ?_, ?_⟩
    · intro header header' payload payload' parsed parsed' native native' found found'
      exact eq_of_decodeFramed single parsed parsed' native native' found found'
    · intro out out' moved moved' found found'
      exact eq_of_decodeBare single (decodeBare_of_migrate moved found)
        (decodeBare_of_migrate moved' found')

theorem native_generator_spelled_once :
    decodeBare .bn254 .legacy .g1 (1 :: List.replicate 31 0) = .ok (g1 Engine.bn254.g1.generator) ∧
    ∀ bs, decodeBare .bn254 .legacy .g1 bs = .ok (g1 Engine.bn254.g1.generator) →
      bs = 1 :: List.replicate 31 0 := by
  have written : (g1 Engine.bn254.g1.generator : Element .bn254).encode ⟨.legacy, none, false⟩ =
      .ok (1 :: List.replicate 31 0) := rfl
  have member : (g1 Engine.bn254.g1.generator : Element .bn254).IsMember :=
    isMember_iff.2 Engine.bn254.valid_g1_generator
  have found := decodeBare_of_encode member rfl written
  refine ⟨found, ?_⟩
  intro bs found'
  exact ((native_points_spelled_once .bn254).2.2 .g1 bs _ _ (.inr rfl)).1 found' found

/-- The point at infinity of the BN engine is read from its encoding and from another string. -/
theorem infinity_spelled_twice :
    Layout.Native.decodePoint .bn254 Engine.bn254.g1 (1 :: List.replicate 30 0 ++ [0x40]) =
        .ok .infinity ∧
      Layout.Native.encodePoint .bn254 (.infinity : Point (Fq .bn254)) =
        List.replicate 31 0 ++ [0x40] ∧
      1 :: List.replicate 30 0 ++ [0x40] ≠ (List.replicate 31 0 ++ [0x40] : Bytes) ∧
      decodeBare .bn254 .legacy .g1 (1 :: List.replicate 30 0 ++ [0x40]) = .ok (g1 .infinity) ∧
      decodeBare .bn254 .legacy .g1 (List.replicate 31 0 ++ [0x40]) = .ok (g1 .infinity) := by
  have valid := Engine.bn254.g1.valid_infinity
  have other : Layout.Native.decodePoint .bn254 Engine.bn254.g1 (1 :: List.replicate 30 0 ++ [0x40]) =
      .ok .infinity :=
    Layout.Native.decodePoint_g1_eq_ok_iff.2 ⟨valid, .flagged 1 rfl⟩
  have own : Layout.Native.decodePoint .bn254 Engine.bn254.g1 (List.replicate 31 0 ++ [0x40]) =
      .ok .infinity :=
    Layout.Native.decodePoint_g1_eq_ok_iff.2 ⟨valid, .written .infinity⟩
  refine ⟨other, rfl, by decide, ?_, ?_⟩
  · exact decodeBare_legacy_g1_eq_ok_iff.2 ⟨_, other, rfl⟩
  · exact decodeBare_legacy_g1_eq_ok_iff.2 ⟨_, own, rfl⟩

end Element

end PairingWire
