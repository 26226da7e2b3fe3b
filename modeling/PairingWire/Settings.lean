import PairingWire.Error

/-!
How elements are to be written: which format suits a curve, which elements a format can hold there,
when points are compressed, and whether a curve can honour given settings.
-/

namespace PairingWire

namespace CurveId

def automaticFormat (c : CurveId) : Format :=
  match c.family with
  | .bn => .ethereum
  | .bls12 => .zcash
  | .nistPrime => .sec1

def hasSpareBits (c : CurveId) : Bool := c.descriptor.fieldBits + 3 ≤ c.descriptor.fieldBytes * 8

end CurveId

namespace Format

/-- Replaces the automatic format; only the IETF format holds target elements on every curve. -/
def resolve (f : Format) (c : CurveId) (t : ElementType) : Format :=
  match f, t with
  | auto, .gt => ietf
  | auto, _ => c.automaticFormat
  | f, _ => f

def supports (f : Format) (c : CurveId) (t : ElementType) : Bool :=
  match f, t with
  | auto, _ | legacy, _ => true
  | ethereum, .gt => false
  | ethereum, _ => c.descriptor.fieldBytes = 32
  | sec1, .gt | zcash, .gt => false
  | zcash, .g1 | zcash, .g2 | ietf, .g1 | ietf, .g2 => c.hasSpareBits
  | _, _ => true

def compression (f : Format) (t : ElementType) (requested : Option Bool) :
    Except CodecError Bool :=
  match f, t with
  | _, .zp => .ok false
  | legacy, _ => .ok true
  | sec1, .g2 | ethereum, _ =>
    if requested = some true then .error (.unsupported f t) else .ok false
  | auto, _ => .error (.invalidSettings .unresolvedAuto)
  | _, _ => .ok (requested.getD f.compressesByDefault)

end Format

/-- Without a compression request the format's own choice holds; scalars ignore it. -/
structure Settings where
  format : Format := .auto
  compress : Option Bool := none
  withHeader : Bool := true
  deriving DecidableEq, Repr

namespace Settings

def validate (s : Settings) (c : CurveId) : Except CodecError Format :=
  let format := s.format.resolve c .g1
  if !format.supports c .g1 then
    .error (.invalidSettings (if format = .ethereum then .wideField else .noSpareBits))
  else if format = .ethereum ∧ s.compress = some true then
    .error (.invalidSettings .noCompressedForm)
  else .ok format

end Settings

end PairingWire
