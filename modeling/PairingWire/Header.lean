import PairingWire.Error

/-!
The nine octets in front of a payload: a magic word, version, element type, curve, format and flags.
Reading accepts exactly what writing produces, for versions up to the current one.
-/

namespace PairingWire

structure Flags where
  compressed : Bool := false
  infinity : Bool := false
  ySign : Bool := false
  cyclotomic : Bool := false
  deriving DecidableEq, Repr

structure Header where
  version : UInt8
  elementType : ElementType
  curve : CurveId
  format : Format
  flags : Flags
  deriving DecidableEq, Repr

namespace Flags

/-- Bit 7 to bit 4 in the order of the fields; the lower bits are clear. -/
def toByte (f : Flags) : UInt8 :=
  (if f.compressed then 0x80 else 0) ||| (if f.infinity then 0x40 else 0) |||
    (if f.ySign then 0x20 else 0) ||| (if f.cyclotomic then 0x10 else 0)

def ofByte (b : UInt8) : Except CodecError Flags :=
  if b &&& 0x0F ≠ 0 then .error (.malformedHeader .reservedFlags)
  else .ok
    { compressed := b &&& 0x80 ≠ 0
      infinity := b &&& 0x40 ≠ 0
      ySign := b &&& 0x20 ≠ 0
      cyclotomic := b &&& 0x10 ≠ 0 }

theorem ofByte_toByte (f : Flags) : ofByte f.toByte = .ok f := by
  obtain ⟨compressed, infinity, ySign, cyclotomic⟩ := f
  cases compressed <;> cases infinity <;> cases ySign <;> cases cyclotomic <;> rfl

end Flags

namespace Header

def magic : Bytes := [0x4F, 0x41, 0x42, 0x45]

def currentVersion : UInt8 := 2

def size : Nat := 9

def elementTypeOf (b : UInt8) : Except CodecError ElementType :=
  match ElementType.ofByte? b with
  | some t => .ok t
  | none => .error (.malformedHeader .unknownElementType)

def curveOf (b : UInt8) : Except CodecError CurveId :=
  match CurveId.ofByte? b with
  | some c => .ok c
  | none => .error (.unknownCurve b)

/-- The automatic format has an octet of its own, but none that may be written. -/
def formatOf (b : UInt8) : Except CodecError Format :=
  match Format.ofByte? b with
  | some .auto => .error (.malformedHeader .autoFormat)
  | some f => .ok f
  | none => .error (.malformedHeader .unknownFormat)

def toBytes (h : Header) : Bytes :=
  magic ++ [h.version, h.elementType.toByte, h.curve.toByte, h.format.toByte, h.flags.toByte]

def parse : Bytes → Except CodecError (Header × Bytes)
  | m0 :: m1 :: m2 :: m3 :: version :: type :: curve :: format :: flags :: payload =>
    if [m0, m1, m2, m3] ≠ magic then .error (.malformedHeader .badMagic)
    else if currentVersion < version then .error (.unsupportedVersion version currentVersion)
    else do
      let elementType ← elementTypeOf type
      let curve ← curveOf curve
      let format ← formatOf format
      let flags ← Flags.ofByte flags
      return (⟨version, elementType, curve, format, flags⟩, payload)
  | _ => .error (.malformedHeader .truncated)

@[simp] theorem length_toBytes (h : Header) : h.toBytes.length = size := rfl

end Header

/-- Data that does not start with the magic word is from before the header, short data included. -/
def isLegacy (bs : Bytes) : Bool := bs.take Header.magic.length ≠ Header.magic

end PairingWire
