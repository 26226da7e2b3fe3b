import PairingWire.Bytes

/-!
The known curves: header octet, names, field size, estimated security and standing. Names and octets
determine the curve.
-/

namespace PairingWire

inductive CurveId
  | nistP256 | nistP384 | nistP521 | bnP158 | bnP254 | bnP256 | bnP382 | bls12P381
  deriving DecidableEq, Repr

inductive CurveFamily
  | nistPrime | bn | bls12
  deriving DecidableEq, Repr

/-- Weak and legacy curves still work; deprecated ones serve only to read old data. -/
inductive SecurityStatus
  | recommended | good | legacy | weak | deprecated
  deriving DecidableEq, Repr

namespace CurveFamily

def name : CurveFamily → String
  | nistPrime => "NistPrime"
  | bn => "Bn"
  | bls12 => "Bls12"

end CurveFamily

namespace SecurityStatus

def name : SecurityStatus → String
  | recommended => "Recommended"
  | good => "Good"
  | legacy => "Legacy"
  | weak => "Weak"
  | deprecated => "Deprecated"

def text : SecurityStatus → String
  | recommended => "recommended"
  | good => "good"
  | legacy => "legacy"
  | weak => "weak"
  | deprecated => "deprecated"

end SecurityStatus

/-- What is known of a curve. `fieldBits` is the bit length of the base field prime. -/
structure CurveDescriptor where
  id : CurveId
  name : String
  displayName : String
  family : CurveFamily
  fieldBits : Nat
  embeddingDegree : Option Nat
  securityBits : Nat
  status : SecurityStatus
  notes : String
  engineName : Option String
  deriving DecidableEq, Repr

namespace CurveDescriptor

def fieldBytes (d : CurveDescriptor) : Nat := (d.fieldBits + 7) / 8

def isPairingFriendly (d : CurveDescriptor) : Bool := d.embeddingDegree.isSome

end CurveDescriptor

namespace CurveId

def all : List CurveId :=
  [nistP256, nistP384, nistP521, bnP158, bnP254, bnP256, bnP382, bls12P381]

def toByte : CurveId → UInt8
  | nistP256 => 0x32
  | nistP384 => 0x5E
  | nistP521 => 0x79
  | bnP158 => 0x61
  | bnP254 => 0x6F
  | bnP256 => 0xBE
  | bnP382 => 0xC7
  | bls12P381 => 0xA2

def tag : CurveId → String
  | nistP256 => "NistP256"
  | nistP384 => "NistP384"
  | nistP521 => "NistP521"
  | bnP158 => "BnP158"
  | bnP254 => "BnP254"
  | bnP256 => "BnP256"
  | bnP382 => "BnP382"
  | bls12P381 => "Bls12_381"

def descriptor (c : CurveId) : CurveDescriptor :=
  match c with
  | nistP256 =>
    ⟨c, "NIST_P256", "P-256", .nistPrime, 256, none, 128, .recommended,
      "ECDSA signing curve", none⟩
  | nistP384 =>
    ⟨c, "NIST_P384", "P-384", .nistPrime, 384, none, 192, .good, "ECDSA signing curve", none⟩
  | nistP521 =>
    ⟨c, "NIST_P521", "P-521", .nistPrime, 521, none, 256, .good, "ECDSA signing curve", none⟩
  | bnP158 =>
    ⟨c, "BN_P158", "BN-158", .bn, 158, some 12, 78, .deprecated,
      "broken by discrete-log records; decode only", none⟩
  | bnP254 =>
    ⟨c, "BN_P254", "BN254", .bn, 254, some 12, 100, .legacy,
      "alt_bn128; kept for Ethereum precompile compatibility", some "ark-bn254"⟩
  | bnP256 =>
    ⟨c, "BN_P256", "BN-256", .bn, 256, some 12, 100, .weak,
      "reduced by exTNFS to roughly 100 bits", none⟩
  | bnP382 =>
    ⟨c, "BN_P382", "BN-382", .bn, 382, some 12, 128, .good,
      "conservative BN parameters", none⟩
  | bls12P381 =>
    ⟨c, "BLS12_P381", "BLS12-381", .bls12, 381, some 12, 117, .recommended,
      "ZCash and IETF pairing-friendly curve", some "ark-bls12-381"⟩

def name (c : CurveId) : String := c.descriptor.name

def family (c : CurveId) : CurveFamily := c.descriptor.family

def ofByte? (b : UInt8) : Option CurveId := all.find? (·.toByte = b)

def ofTag? (s : String) : Option CurveId := all.find? (·.tag = s)

def ofName? (s : String) : Option CurveId :=
  all.find? fun c => c.descriptor.name = s ∨ c.descriptor.displayName = s

theorem ofByte?_toByte (c : CurveId) : ofByte? c.toByte = some c := by cases c <;> rfl

theorem id_descriptor (c : CurveId) : c.descriptor.id = c := by cases c <;> rfl

def recommended : List CurveId := all.filter (·.descriptor.status = .recommended)

end CurveId

end PairingWire
