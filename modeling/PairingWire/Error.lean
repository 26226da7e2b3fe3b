import PairingWire.Bytes
import PairingWire.CurveId
import PairingWire.Format

/-!
Causes of failure. Arithmetic failures come from fields and groups, codec failures from reading and
writing encodings; `CodecError.ofArithmetic` says how the first appear among the second.
-/

namespace PairingWire

inductive NativeFault
  | point | target | trailing
  deriving DecidableEq, Repr

inductive ArithmeticError
  | divisionByZero
  | inverseOfZero
  | notReduced
  | wrongLength (expected actual : Nat)
  | invalidHex
  | notOnCurve
  | notInSubgroup
  | lengthMismatch
  | native (fault : NativeFault)
  deriving DecidableEq, Repr

inductive HeaderFault
  | truncated | badMagic | unknownElementType | autoFormat | unknownFormat | reservedFlags
  deriving DecidableEq, Repr

inductive EncodingFault
  | emptyInput
  | wrongLength
  | invalidHex
  | native
  | unknownTag
  | nonCanonicalInfinity
  | signOnUncompressed
  | nonCanonicalSign
  | degenerateCyclotomic
  | unexpectedType
  | flagsDisagree
  deriving DecidableEq, Repr

inductive SettingsFault
  | unresolvedAuto | unknownCurveName | wideField | noSpareBits | noCompressedForm
  deriving DecidableEq, Repr

inductive CodecError
  | malformedHeader (fault : HeaderFault)
  | unsupportedVersion (found supported : UInt8)
  | invalidEncoding (fault : EncodingFault)
  | notReduced
  | notASquare
  | notOnCurve
  | notInSubgroup
  | unsupported (format : Format) (element : ElementType)
  | unknownCurve (id : UInt8)
  | curveMismatch (expected found : UInt8)
  | deprecatedCurve (curve : CurveId)
  | invalidSettings (fault : SettingsFault)
  | arithmetic (cause : ArithmeticError)
  deriving DecidableEq, Repr

namespace NativeFault

def message : NativeFault → String
  | point => "invalid point bytes"
  | target => "invalid GT bytes"
  | trailing => "trailing bytes"

end NativeFault

namespace ArithmeticError

def message : ArithmeticError → String
  | divisionByZero => "division by zero"
  | inverseOfZero => "inverse of zero"
  | notReduced => "field element is not reduced modulo the field order"
  | wrongLength expected actual =>
    "invalid length: expected " ++ toString expected ++ " bytes, got " ++ toString actual
  | invalidHex => "invalid hex string"
  | notOnCurve => "point is not on the curve"
  | notInSubgroup => "point is not in the prime-order subgroup"
  | lengthMismatch => "input length mismatch: pairing inputs"
  | native fault => "native encoding rejected: " ++ fault.message

end ArithmeticError

namespace HeaderFault

def message : HeaderFault → String
  | truncated => "truncated header"
  | badMagic => "bad magic"
  | unknownElementType => "unknown element type"
  | autoFormat => "AUTO format on the wire"
  | unknownFormat => "unknown format"
  | reservedFlags => "reserved flag bits set"

end HeaderFault

namespace EncodingFault

def message : EncodingFault → String
  | emptyInput => "empty input"
  | wrongLength => "wrong length"
  | invalidHex => "invalid hex"
  | native => "native encoding rejected"
  | unknownTag => "unknown SEC1 tag"
  | nonCanonicalInfinity => "non-canonical infinity"
  | signOnUncompressed => "sign bit on uncompressed point"
  | nonCanonicalSign => "non-canonical sign bit"
  | degenerateCyclotomic => "degenerate cyclotomic encoding"
  | unexpectedType => "unexpected element type"
  | flagsDisagree => "header flags disagree with payload"

end EncodingFault

namespace SettingsFault

def message : SettingsFault → String
  | unresolvedAuto => "AUTO format must be resolved first"
  | unknownCurveName => "unknown curve name"
  | wideField => "Ethereum layout needs a 32-byte base field"
  | noSpareBits => "format flag bits do not fit the curve's field"
  | noCompressedForm => "Ethereum layout has no compressed form"

end SettingsFault

namespace CodecError

/-- Failures that a codec can name itself lose their arithmetic origin; the others keep it. -/
def ofArithmetic : ArithmeticError → CodecError
  | .notReduced => notReduced
  | .notOnCurve => notOnCurve
  | .notInSubgroup => notInSubgroup
  | .wrongLength _ _ => invalidEncoding .wrongLength
  | .invalidHex => invalidEncoding .invalidHex
  | .native _ => invalidEncoding .native
  | e => arithmetic e

private def octet (b : UInt8) : String := "0x" ++ String.ofList (Hex.ofByte b)

def message : CodecError → String
  | malformedHeader fault => "malformed header: " ++ fault.message
  | unsupportedVersion found supported =>
    "unsupported header version " ++ toString found.toNat ++
      " (decoder supports up to " ++ toString supported.toNat ++ ")"
  | invalidEncoding fault => "invalid encoding: " ++ fault.message
  | notReduced => "field element is not reduced modulo the field order"
  | notASquare => "x-coordinate does not correspond to a curve point"
  | notOnCurve => "point is not on the curve"
  | notInSubgroup => "point is not in the prime-order subgroup"
  | unsupported format element =>
    "format " ++ format.name ++ " does not support " ++ element.name ++ " on this curve"
  | unknownCurve id => "unknown curve identifier " ++ octet id
  | curveMismatch expected found =>
    "curve mismatch: engine is " ++ octet expected ++ ", data is " ++ octet found
  | deprecatedCurve curve =>
    "curve " ++ curve.name ++ " is deprecated and cannot be used for new parameters"
  | invalidSettings fault => "invalid configuration: " ++ fault.message
  | arithmetic cause => "arithmetic error: " ++ cause.message

def kind : CodecError → String
  | malformedHeader _ => "malformed_header"
  | unsupportedVersion _ _ => "unsupported_version"
  | invalidEncoding _ => "invalid_encoding"
  | notReduced => "invalid_field_element"
  | notASquare => "not_a_square"
  | notOnCurve => "point_not_on_curve"
  | notInSubgroup => "invalid_subgroup"
  | unsupported _ _ => "unsupported_combination"
  | unknownCurve _ => "unknown_curve"
  | curveMismatch _ _ => "curve_mismatch"
  | deprecatedCurve _ => "deprecated_curve"
  | invalidSettings _ => "invalid_config"
  | arithmetic _ => "arith"

end CodecError

def liftArithmetic {α : Type} (r : Except ArithmeticError α) : Except CodecError α :=
  r.mapError CodecError.ofArithmetic

end PairingWire
