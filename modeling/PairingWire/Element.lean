import PairingWire.Karabina
import PairingWire.Layout
import PairingWire.Layout.Native
import PairingWire.Settings

/-!
The elements of an engine, their payloads in each format, and their encodings, framed by a header or
bare. A decoder reports the flags of what it read. A frame is accepted for the engine's own curve and
the expected type, if the header's flags are those of the payload.
-/

namespace PairingWire

inductive Element (e : Engine)
  | zp (s : Fr e)
  | g1 (P : Point (Fq e))
  | g2 (Q : Point (Fq2 e))
  | gt (x : Fq12 e)
  deriving DecidableEq

variable {e : Engine}

namespace Element

def type : Element e → ElementType
  | zp _ => .zp
  | g1 _ => .g1
  | g2 _ => .g2
  | gt _ => .gt

/-- A member of its group: any scalar, and points and target elements of the prime order. -/
def Valid : Element e → Prop
  | zp _ => True
  | g1 P => e.g1.Valid P
  | g2 Q => e.g2.Valid Q
  | gt x => x.InSubgroup

end Element

namespace Layout

/-- Scalars are written most significant octet first, but natively the other way round. -/
def encodeScalar (f : Format) (s : Fr e) : Bytes :=
  if f = .legacy then s.toBytes.reverse else s.toBytes

def decodeScalar (f : Format) (bs : Bytes) : Except CodecError (Fr e) :=
  liftArithmetic (Residue.ofBytes _ (if f = .legacy then bs.reverse else bs))

section Point

variable {F : Type} {p : Nat} [Modulus p] [CoordinateField F p]

def encodePoint (e : Engine) (f : Format) (compress : Bool) (P : Point F) :
    Except CodecError Encoded :=
  match f with
  | .legacy =>
    .ok ⟨Native.encodePoint e P, { compressed := true, infinity := P.isInfinity }⟩
  | .sec1 => Sec1.encodePoint compress P
  | .zcash => FlagBits.encodePoint .zcash compress P
  | .ietf => FlagBits.encodePoint .ietf compress P
  | .ethereum => Ethereum.encodePoint compress P
  | .auto => .error (.invalidSettings .unresolvedAuto)

variable [Zero F] [Add F] [Neg F] [Sub F] [Mul F] [Inv F] [DecidableEq F]

def decodePoint (e : Engine) (C : Curve F) (f : Format) (bs : Bytes) :
    Except CodecError (Point F × Flags) :=
  match f with
  | .legacy => do
    let P ← liftArithmetic (Native.decodePoint e C bs)
    return (P, { compressed := true, infinity := P.isInfinity })
  | .sec1 => Sec1.decodePoint C bs
  | .zcash | .ietf => FlagBits.decodePoint C bs
  | .ethereum => Ethereum.decodePoint C bs
  | .auto => .error (.invalidSettings .unresolvedAuto)

end Point

def encodeTarget (f : Format) (compress : Bool) (x : Fq12 e) : Except CodecError Encoded :=
  match f with
  | .legacy => .ok ⟨Native.encodeTarget x, { infinity := x = 1 }⟩
  | .ietf => .ok (Cyclotomic.encodeTarget compress x)
  | .auto => .error (.invalidSettings .unresolvedAuto)
  | _ => .error (.unsupported f .gt)

def decodeTarget (e : Engine) (f : Format) (bs : Bytes) : Except CodecError (Fq12 e × Flags) :=
  match f with
  | .legacy => do
    let x ← liftArithmetic (Native.decodeTarget e bs)
    return (x, { infinity := x = 1 })
  | .ietf => Cyclotomic.decodeTarget e bs
  | .auto => .error (.invalidSettings .unresolvedAuto)
  | _ => .error (.unsupported f .gt)

end Layout

namespace Element

def encodePayload (f : Format) (compress : Bool) : Element e → Except CodecError Encoded
  | zp s => .ok ⟨Layout.encodeScalar f s, {}⟩
  | g1 P => Layout.encodePoint e f compress P
  | g2 Q => Layout.encodePoint e f compress Q
  | gt x => Layout.encodeTarget f compress x

def decodePayload (e : Engine) (f : Format) (t : ElementType) (bs : Bytes) :
    Except CodecError (Element e × Flags) :=
  if !f.supports e.curveId t then .error (.unsupported f t)
  else
    match t with
    | .zp => do
      let s ← Layout.decodeScalar f bs
      return (zp s, {})
    | .g1 => do
      let (P, flags) ← Layout.decodePoint e e.g1 f bs
      return (g1 P, flags)
    | .g2 => do
      let (Q, flags) ← Layout.decodePoint e e.g2 f bs
      return (g2 Q, flags)
    | .gt => do
      let (x, flags) ← Layout.decodeTarget e f bs
      return (gt x, flags)

def encode (s : Settings) (x : Element e) : Except CodecError Bytes := do
  let format := s.format.resolve e.curveId x.type
  if !format.supports e.curveId x.type then .error (.unsupported format x.type)
  else do
    let compress ← format.compression x.type s.compress
    let encoded ← x.encodePayload format compress
    if s.withHeader then
      let header : Header :=
        ⟨Header.currentVersion, x.type, e.curveId, format, encoded.flags⟩
      return header.toBytes ++ encoded.payload
    else return encoded.payload

def decodeBare (e : Engine) (f : Format) (expected : ElementType) (bs : Bytes) :
    Except CodecError (Element e) := do
  let (x, _) ← decodePayload e (f.resolve e.curveId expected) expected bs
  return x

def decodeFramed (e : Engine) (expected : ElementType) (bs : Bytes) :
    Except CodecError (Element e) := do
  let (header, payload) ← Header.parse bs
  if header.curve ≠ e.curveId then
    .error (.curveMismatch e.curveId.toByte header.curve.toByte)
  else if header.elementType ≠ expected then .error (.invalidEncoding .unexpectedType)
  else do
    let (x, flags) ← decodePayload e header.format expected payload
    if flags ≠ header.flags then .error (.invalidEncoding .flagsDisagree) else return x

def decode (e : Engine) (framed : Bool) (expected : ElementType) (bs : Bytes) :
    Except CodecError (Element e) :=
  if framed then decodeFramed e expected bs else decodeBare e .auto expected bs

def encodeBatch (s : Settings) (xs : List (Element e)) : Except CodecError (List Bytes) :=
  xs.mapM (encode s)

def decodeBatch (e : Engine) (framed : Bool) (expected : ElementType) (items : List Bytes) :
    Except CodecError (List (Element e)) :=
  items.mapM (decode e framed expected)

end Element

/-- Writes headerless native data anew, framed and in the curve's automatic format. -/
def migrate (e : Engine) (t : ElementType) (curve : CurveId) (bs : Bytes) :
    Except CodecError Bytes :=
  if curve ≠ e.curveId then .error (.curveMismatch e.curveId.toByte curve.toByte)
  else do
    let x ← Element.decodeBare e .legacy t bs
    x.encode {}

end PairingWire
