import PairingWire.Bytes

/-!
The kinds of elements and the wire formats, with the octets and the names that stand for them.
-/

namespace PairingWire

/-- What an encoding holds: a scalar, a point of one of the source groups, or a target element. -/
inductive ElementType
  | zp | g1 | g2 | gt
  deriving DecidableEq, Repr

namespace ElementType

def all : List ElementType := [zp, g1, g2, gt]

def toByte : ElementType → UInt8
  | zp => 0xB1
  | g1 => 0xB2
  | g2 => 0xB3
  | gt => 0xB4

def name : ElementType → String
  | zp => "Zp"
  | g1 => "G1"
  | g2 => "G2"
  | gt => "Gt"

def ofByte? (b : UInt8) : Option ElementType := all.find? (·.toByte = b)

def ofName? (s : String) : Option ElementType := all.find? (·.name = s)

theorem ofByte?_toByte (t : ElementType) : ofByte? t.toByte = some t := by cases t <;> rfl

theorem ofName?_name (t : ElementType) : ofName? t.name = some t := by cases t <;> rfl

end ElementType

/-- Wire formats. `auto` stands for the format that suits the curve and is never written. -/
inductive Format
  | legacy | sec1 | zcash | ethereum | ietf | auto
  deriving DecidableEq, Repr

namespace Format

def all : List Format := [legacy, sec1, zcash, ethereum, ietf, auto]

def toByte : Format → UInt8
  | legacy => 0x00
  | sec1 => 0x01
  | zcash => 0x02
  | ethereum => 0x03
  | ietf => 0x04
  | auto => 0xFF

def name : Format → String
  | legacy => "Legacy"
  | sec1 => "Sec1"
  | zcash => "Zcash"
  | ethereum => "Ethereum"
  | ietf => "Ietf"
  | auto => "Auto"

def ofByte? (b : UInt8) : Option Format := all.find? (·.toByte = b)

def ofName? (s : String) : Option Format := all.find? (·.name = s)

theorem ofByte?_toByte (f : Format) : ofByte? f.toByte = some f := by cases f <;> rfl

theorem ofName?_name (f : Format) : ofName? f.name = some f := by cases f <;> rfl

def compressesByDefault : Format → Bool
  | sec1 | zcash | ietf | legacy => true
  | ethereum | auto => false

end Format

end PairingWire
