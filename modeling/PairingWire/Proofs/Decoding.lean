import PairingWire.Proofs.Layout.Parts
import PairingWire.Proofs.Member

/-!
The outcome of reading any string as a point of either source group, in each format but the native one.
The string decides whether it has the parts of a finite point, and its parts decide the rest.
-/

namespace PairingWire

namespace Layout

/-- The strings of a format that are not at infinity, with a legal tag or legal flags and full length. -/
def WellFormed (F : Type) {p : Nat} [CoordinateField F p] : Format → Bytes → Parts → Prop
  | .sec1 => Sec1.HasParts F
  | .zcash | .ietf => FlagBits.HasParts F
  | .ethereum => Ethereum.HasParts F
  | .legacy | .auto => fun _ _ => False

structure DecodesExactly {F : Type} {p : Nat} [Modulus p] [CoordinateField F p] [Field F]
    [DecidableEq F] (C : Curve F) (r : Nat) (f : Format)
    (decode : Bytes → Except CodecError (Point F × Flags)) : Prop where
  signed {bs : Bytes} {convention : SignConvention} {sign : Bool} {xs : Bytes} :
    WellFormed F f bs (.signed convention sign xs) →
      SignedOutcome C r convention sign xs { compressed := true, ySign := sign } (decode bs)
  full {bs xs ys : Bytes} :
    WellFormed F f bs (.full xs ys) → FullOutcome C r xs ys {} (decode bs)
  noPoint {bs : Bytes} : (∀ parts, ¬WellFormed F f bs parts) → NoPoint (decode bs)

section

variable {F : Type} {p : Nat} [CoordinateField F p] {f : Format} {bs xs ys : Bytes}

theorem WellFormed.length_signed {convention : SignConvention} {sign : Bool}
    (wellFormed : WellFormed F f bs (.signed convention sign xs)) :
    xs.length = coordinateWidth F := by
  cases f with
  | sec1 =>
      cases wellFormed
      assumption
  | zcash | ietf =>
      cases wellFormed
      assumption
  | ethereum => cases wellFormed
  | legacy | auto => exact wellFormed.elim

theorem WellFormed.length_full (wellFormed : WellFormed F f bs (.full xs ys)) :
    xs.length = coordinateWidth F ∧ ys.length = coordinateWidth F := by
  cases f with
  | sec1 =>
      cases wellFormed
      exact ⟨‹_›, ‹_›⟩
  | zcash | ietf =>
      cases wellFormed
      exact ⟨‹_›, ‹_›⟩
  | ethereum =>
      cases wellFormed
      exact ⟨‹_›, ‹_›⟩
  | legacy | auto => exact wellFormed.elim

end

variable {e : Engine} {F : Type} [CoordinateField F e.fieldOrder] [Field F] [DecidableEq F]
  [LawfulCoordinates F] {f : Format}

theorem takesParts (C : Curve F) (named : f ≠ .auto) (standard : f ≠ .legacy)
    (supported : f.supports e.curveId .g1 = true) :
    TakesParts C (WellFormed F f) (decodePoint e C f) := by
  cases f with
  | legacy => exact absurd rfl standard
  | sec1 => exact Sec1.takesParts C
  | zcash | ietf => exact FlagBits.takesParts C
  | ethereum =>
      cases e with
      | bn254 => exact Ethereum.takesParts C (by decide)
      | bls12P381 => cases supported
  | auto => exact absurd rfl named

theorem decodesExactly {C : Curve F} [C.Smooth] (a_zero : C.a = 0)
    (nowhere_zero : ∀ x, weierstrass C.a C.b x ≠ 0) (named : f ≠ .auto) (standard : f ≠ .legacy)
    (supported : f.supports e.curveId .g1 = true) :
    DecodesExactly C C.order f (decodePoint e C f) where
  signed wellFormed := by
    rw [(takesParts C named standard supported).decode_eq wellFormed]
    exact signedOutcome a_zero nowhere_zero wellFormed.length_signed
  full wellFormed := by
    obtain ⟨x_total, y_total⟩ := wellFormed.length_full
    rw [(takesParts C named standard supported).decode_eq wellFormed]
    exact fullOutcome a_zero x_total y_total
  noPoint := (takesParts C named standard supported).noPoint

end Layout

/--
In each format but the native one that the engine supports, the outcome of reading a point is decided by
the coordinates and the sign in the string. A coefficient that is not reduced is refused first. A
compressed point is then refused exactly if its abscissa has no point, and otherwise the sign leaves one
ordinate; an uncompressed point is refused exactly if it is off the curve. A point of the curve is read
exactly if the group order takes it to zero. Strings without coordinates hold no finite point.
-/
theorem points_decoded_exactly (e : Engine) {f : Format} (named : f ≠ .auto) (standard : f ≠ .legacy)
    (supported : f.supports e.curveId .g1 = true) :
    Layout.DecodesExactly e.g1 e.groupOrder f (Layout.decodePoint e e.g1 f) ∧
      Layout.DecodesExactly e.g2 e.groupOrder f (Layout.decodePoint e e.g2 f) := by
  constructor
  · rw [← e.g1_order]
    exact Layout.decodesExactly e.g1_a e.g1_weierstrass_ne_zero named standard supported
  · rw [← e.g2_order]
    exact Layout.decodesExactly e.g2_a e.g2_weierstrass_ne_zero named standard supported

theorem generator_decoded_exactly :
    (Format.supports .ethereum Engine.bn254.curveId .g1 = true ∧
      Layout.decodePoint .bn254 Engine.bn254.g1 .ethereum (Bytes.ofNatBE 32 1 ++ Bytes.ofNatBE 32 2) =
        .ok (Engine.bn254.g1.generator, {})) ∧
    (Format.supports .zcash Engine.bls12P381.curveId .g1 = true ∧
      Layout.decodePoint .bls12P381 Engine.bls12P381.g1 .zcash (0x9F :: List.replicate 47 0xFF) =
        .error .notReduced) := by
  refine ⟨⟨by decide, ?_⟩, by decide, ?_⟩
  · have exact := (points_decoded_exactly .bn254 (f := .ethereum) (by decide) (by decide) (by decide)).1
    have wellFormed : Layout.WellFormed (Fq .bn254) .ethereum
        (Bytes.ofNatBE 32 1 ++ Bytes.ofNatBE 32 2) (.full (Bytes.ofNatBE 32 1) (Bytes.ofNatBE 32 2)) :=
      .full (by decide) (by decide) (by decide)
    obtain ⟨Q, same, total⟩ := Curve.valid_iff_exists.1 Engine.bn254.valid_g1_generator
    have on_curve := Curve.onCurve_ofGroup Q
    rw [same] at on_curve
    obtain ⟨Q', same', _, read⟩ := (exact.full wellFormed).of_onCurve
      (show Layout.Holds _ (Engine.bn254.fq 1) by decide +kernel)
      (show Layout.Holds _ (Engine.bn254.fq 2) by decide +kernel)
      ((Layout.onCurve_iff rfl).2 on_curve)
    rw [← Curve.ofGroup_injective (same.trans same'.symm)] at read
    exact read.2 total
  · have exact := (points_decoded_exactly .bls12P381 (f := .zcash) (by decide) (by decide) (by decide)).1
    have wellFormed : Layout.WellFormed (Fq .bls12P381) .zcash (0x9F :: List.replicate 47 0xFF)
        (.signed .lexicographic false (0x1F :: List.replicate 47 0xFF)) :=
      .signed (by decide) (by decide) (by decide)
    exact (exact.signed wellFormed).notReduced_iff.2 ⟨2 ^ 381 - 1, by decide +kernel, by decide +kernel⟩

end PairingWire
