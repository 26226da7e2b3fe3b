import PairingWire.Proofs.Codec
import PairingWire.Proofs.Guarded.Encoding
import PairingWire.Proofs.Guarded.Layout
import PairingWire.Proofs.Layout.Target

/-!
Target elements, decoding and migration with guarded operations, from the octets of a header to the
square roots of a compressed point. For every string they give the result of the codec, so nothing in
it ever stops.
-/

namespace PairingWire.Guarded

open Layout (coordinateWidth)

variable {e : Engine}

def decompress (k : KarabinaKept e) : Guarded (Fq12 e) :=
  let small := Quadratic.ofNat e.fieldOrder
  let rebuild (g1 : Fq2 e) : Guarded (Fq12 e) :=
    of (liftArithmetic
      (Fq12.check (Karabina.toFq12 ⟨k.rebuildG0 g1, g1, k.g2, k.g3, k.g4, k.g5⟩)))
  if k.g2 ≠ 0 then do
    let inverted ← inverse (small 4 * k.g2)
    rebuild ((e.towerNonresidue * k.g5 * k.g5 + small 3 * k.g4 * k.g4 - small 2 * k.g3) * inverted)
  else if k.g3 ≠ 0 then do
    let inverted ← inverse k.g3
    rebuild (small 2 * k.g4 * k.g5 * inverted)
  else if k.g4 = 0 ∧ k.g5 = 0 then pure 1
  else of (.error (.invalidEncoding .degenerateCyclotomic))

def assemble : List (Fq2 e) → Guarded (Fq12 e × Flags)
  | [g0, g1, g2, g3, g4, g5] => do
    let x ← of (liftArithmetic (Fq12.check (Karabina.toFq12 ⟨g0, g1, g2, g3, g4, g5⟩)))
    return (x, Layout.Cyclotomic.flags false x)
  | [g2, g3, g4, g5] => do
    let x ← decompress ⟨g2, g3, g4, g5⟩
    return (x, Layout.Cyclotomic.flags true x)
  | _ => of (.error (.invalidEncoding .wrongLength))

def cyclotomicTarget (bs : Bytes) : Guarded (Fq12 e × Flags) :=
  if bs.length ≠ 6 * coordinateWidth (Fq2 e) ∧ bs.length ≠ 4 * coordinateWidth (Fq2 e) then
    of (.error (.invalidEncoding .wrongLength))
  else do
    let parts ← chunks (coordinateWidth (Fq2 e)) bs
    let cs ← parts.mapM (takeCoordinate (F := Fq2 e))
    assemble cs

def decodeTarget (e : Engine) (f : Format) (bs : Bytes) : Guarded (Fq12 e × Flags) :=
  match f with
  | .ietf => cyclotomicTarget bs
  | _ => of (Layout.decodeTarget e f bs)

theorem decompress_eq (k : KarabinaKept e) : decompress k = of k.decompress := by
  refine of_ite (fun third => ?_) fun _ => ?_
  · have nonzero : Quadratic.ofNat e.fieldOrder 4 * k.g2 ≠ 0 := Karabina.four_mul_ne_zero third
    rw [inverse_eq nonzero, pure_bind_eq, KarabinaKept.invert_of_ne_zero nonzero]
    rfl
  · refine of_ite (fun fourth => ?_) fun _ => ?_
    · rw [inverse_eq fourth, pure_bind_eq, KarabinaKept.invert_of_ne_zero fourth]
      rfl
    · exact of_ite (fun _ => rfl) fun _ => rfl

theorem assemble_eq (cs : List (Fq2 e)) : assemble cs = of (Layout.Cyclotomic.assemble cs) := by
  rcases cs with _ | ⟨c0, _ | ⟨c1, _ | ⟨c2, _ | ⟨c3, _ | ⟨c4, _ | ⟨c5, _ | ⟨c6, cs⟩⟩⟩⟩⟩⟩⟩
  iterate 4 · rfl
  · have decompressed := decompress_eq ⟨c0, c1, c2, c3⟩
    rw [assemble, decompressed]
    exact of_bind fun x _ => rfl
  · rfl
  · exact of_bind fun x _ => rfl
  · rfl

theorem cyclotomicTarget_eq (bs : Bytes) :
    cyclotomicTarget bs = of (Layout.Cyclotomic.decodeTarget e bs) := by
  rw [Layout.Cyclotomic.decodeTarget_eq]
  refine of_ite (fun _ => rfl) fun form => ?_
  have total := Layout.Cyclotomic.length_eq_mul_width form
  rw [chunks_eq Layout.coordinateWidth_ne_zero total, pure_bind_eq, of_mapM takeCoordinate_eq]
  exact of_bind fun cs _ => assemble_eq cs

theorem decodeTarget_eq (f : Format) (bs : Bytes) :
    decodeTarget e f bs = of (Layout.decodeTarget e f bs) := by
  cases f with
  | ietf => exact cyclotomicTarget_eq bs
  | legacy | sec1 | zcash | ethereum | auto => rfl

def parseHeader (bs : Bytes) : Guarded (Header × Bytes) :=
  if bs.length < Header.size then of (.error (.malformedHeader .truncated))
  else do
    let head ← front Header.size bs
    let payload ← back Header.size bs
    let word ← front 4 head
    if word ≠ Header.magic then of (.error (.malformedHeader .badMagic))
    else do
      let version ← octet 4 head
      if Header.currentVersion < version then
        of (.error (.unsupportedVersion version Header.currentVersion))
      else do
        let elementType ← octet 5 head >>= fun b => of (Header.elementTypeOf b)
        let curve ← octet 6 head >>= fun b => of (Header.curveOf b)
        let format ← octet 7 head >>= fun b => of (Header.formatOf b)
        let flags ← octet 8 head >>= fun b => of (Flags.ofByte b)
        return (⟨version, elementType, curve, format, flags⟩, payload)

theorem parseHeader_eq (bs : Bytes) : parseHeader bs = of (Header.parse bs) := by
  rcases bs with _ | ⟨m0, _ | ⟨m1, _ | ⟨m2, _ | ⟨m3, _ | ⟨version, _ | ⟨type, _ | ⟨curve, _ |
    ⟨format, _ | ⟨flags, payload⟩⟩⟩⟩⟩⟩⟩⟩⟩
  iterate 9 · rfl
  · have bound : Header.size ≤ (m0 :: m1 :: m2 :: m3 :: version :: type :: curve :: format :: flags ::
        payload).length := Nat.le_add_left 9 payload.length
    rw [parseHeader, if_neg (Nat.not_lt.2 bound), front_eq bound, pure_bind_eq, back_eq bound,
      pure_bind_eq]
    refine of_ite (fun _ => rfl) fun _ => ?_
    refine of_ite (fun _ => rfl) fun _ => ?_
    refine of_bind fun t _ => ?_
    refine of_bind fun c _ => ?_
    refine of_bind fun f _ => ?_
    exact of_bind fun fl _ => rfl

def decodePayload (e : Engine) (f : Format) (t : ElementType) (bs : Bytes) :
    Guarded (Element e × Flags) :=
  if !f.supports e.curveId t then of (.error (.unsupported f t))
  else
    match t with
    | .zp => do
      let s ← of (Layout.decodeScalar f bs)
      return (.zp s, {})
    | .g1 => do
      let (P, flags) ← decodePoint e e.g1 f bs
      return (.g1 P, flags)
    | .g2 => do
      let (Q, flags) ← decodePoint e e.g2 f bs
      return (.g2 Q, flags)
    | .gt => do
      let (x, flags) ← decodeTarget e f bs
      return (.gt x, flags)

def decodeBare (e : Engine) (f : Format) (expected : ElementType) (bs : Bytes) :
    Guarded (Element e) := do
  let (x, _) ← decodePayload e (f.resolve e.curveId expected) expected bs
  return x

def decodeFramed (e : Engine) (expected : ElementType) (bs : Bytes) : Guarded (Element e) := do
  let (header, payload) ← parseHeader bs
  if header.curve ≠ e.curveId then
    of (.error (.curveMismatch e.curveId.toByte header.curve.toByte))
  else if header.elementType ≠ expected then of (.error (.invalidEncoding .unexpectedType))
  else do
    let (x, flags) ← decodePayload e header.format expected payload
    if flags ≠ header.flags then of (.error (.invalidEncoding .flagsDisagree)) else return x

def decode (e : Engine) (framed : Bool) (expected : ElementType) (bs : Bytes) :
    Guarded (Element e) :=
  if framed then decodeFramed e expected bs else decodeBare e .auto expected bs

def encode (s : Settings) (x : Element e) : Guarded Bytes := do
  let format := s.format.resolve e.curveId x.type
  if !format.supports e.curveId x.type then of (.error (.unsupported format x.type))
  else do
    let compress ← of (format.compression x.type s.compress)
    let encoded ← encodePayload format compress x
    if s.withHeader then return (x.headerOf format encoded.flags).toBytes ++ encoded.payload
    else return encoded.payload

def migrate (e : Engine) (t : ElementType) (curve : CurveId) (bs : Bytes) : Guarded Bytes :=
  if curve ≠ e.curveId then of (.error (.curveMismatch e.curveId.toByte curve.toByte))
  else do
    let x : Element e ← decodeBare e .legacy t bs
    encode {} x

theorem decodePayload_eq (f : Format) (t : ElementType) (bs : Bytes) :
    decodePayload e f t bs = of (Element.decodePayload e f t bs) := by
  refine of_ite (fun _ => rfl) fun _ => ?_
  cases t with
  | zp => exact of_bind fun s _ => rfl
  | g1 =>
      dsimp only
      rw [decodePoint_eq]
      exact of_bind fun r _ => rfl
  | g2 =>
      dsimp only
      rw [decodePoint_eq]
      exact of_bind fun r _ => rfl
  | gt =>
      dsimp only
      rw [decodeTarget_eq]
      exact of_bind fun r _ => rfl

theorem decodeBare_eq (f : Format) (t : ElementType) (bs : Bytes) :
    decodeBare e f t bs = of (Element.decodeBare e f t bs) := by
  rw [decodeBare, decodePayload_eq]
  exact of_bind fun r _ => rfl

theorem decodeFramed_eq (t : ElementType) (bs : Bytes) :
    decodeFramed e t bs = of (Element.decodeFramed e t bs) := by
  rw [decodeFramed, parseHeader_eq]
  refine of_bind fun r _ => ?_
  refine of_ite (fun _ => rfl) fun _ => ?_
  refine of_ite (fun _ => rfl) fun _ => ?_
  rw [decodePayload_eq]
  refine of_bind fun r _ => ?_
  exact of_ite (fun _ => rfl) fun _ => rfl

theorem decode_eq (framed : Bool) (t : ElementType) (bs : Bytes) :
    decode e framed t bs = of (Element.decode e framed t bs) := by
  cases framed with
  | true => exact decodeFramed_eq t bs
  | false => exact decodeBare_eq .auto t bs

theorem encode_eq (s : Settings) (x : Element e) : encode s x = of (x.encode s) := by
  refine of_ite (fun _ => rfl) fun _ => ?_
  refine of_bind fun compress _ => ?_
  rw [encodePayload_eq]
  refine of_bind fun encoded _ => ?_
  exact of_ite (fun _ => rfl) fun _ => rfl

theorem migrate_eq (t : ElementType) (curve : CurveId) (bs : Bytes) :
    migrate e t curve bs = of (PairingWire.migrate e t curve bs) := by
  refine of_ite (fun _ => rfl) fun _ => ?_
  rw [decodeBare_eq]
  exact of_bind fun x _ => encode_eq {} x

end PairingWire.Guarded
