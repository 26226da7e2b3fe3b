import PairingWire.Element
import PairingWire.Pairing

/-!
Elements made from constants and native encodings, the group law on elements of one kind, and their
multiples by scalars. Scalars and points are added, target elements multiplied; elements of different
kinds do not combine.
-/

namespace PairingWire.Element

variable {e : Engine}

def identity : ElementType → Element e
  | .zp => zp 0
  | .g1 => g1 .infinity
  | .g2 => g2 .infinity
  | .gt => gt 1

def generator : ElementType → Element e
  | .zp => zp 1
  | .g1 => g1 e.g1.generator
  | .g2 => g2 e.g2.generator
  | .gt => gt (targetGenerator e)

def add : Element e → Element e → Option (Element e)
  | zp a, zp b => some (zp (a + b))
  | g1 P, g1 Q => some (g1 (e.g1.add P Q))
  | g2 P, g2 Q => some (g2 (e.g2.add P Q))
  | gt x, gt y => some (gt (x * y))
  | _, _ => none

def sub : Element e → Element e → Option (Except ArithmeticError (Element e))
  | zp a, zp b => some (.ok (zp (a - b)))
  | g1 P, g1 Q => some (.ok (g1 (e.g1.sub P Q)))
  | g2 P, g2 Q => some (.ok (g2 (e.g2.sub P Q)))
  | gt x, gt y => some ((x.div y).map gt)
  | _, _ => none

def double : Element e → Element e
  | zp a => zp a.double
  | g1 P => g1 (e.g1.double P)
  | g2 P => g2 (e.g2.double P)
  | gt x => gt (x * x)

def neg : Element e → Except ArithmeticError (Element e)
  | zp a => .ok (zp (-a))
  | g1 P => .ok (g1 P.neg)
  | g2 P => .ok (g2 P.neg)
  | gt x => x.inverse.map gt

def scale (k : Fr e) : Element e → Element e
  | zp a => zp (a * k)
  | g1 P => g1 (e.g1.multiple k.val P)
  | g2 P => g2 (e.g2.multiple k.val P)
  | gt x => gt (x.exp k)

def ofNative (e : Engine) (bs : Bytes) : ElementType → Option (Element e)
  | .zp => (Layout.decodeScalar .legacy bs).toOption.map zp
  | .g1 => (Layout.Native.decodePoint e e.g1 bs).toOption.map g1
  | .g2 => (Layout.Native.decodePoint e e.g2 bs).toOption.map g2
  | .gt => (Layout.Native.decodeTarget e bs).toOption.map gt

def g1? : Element e → Option (Point (Fq e))
  | g1 P => some P
  | _ => none

def g2? : Element e → Option (Point (Fq2 e))
  | g2 P => some P
  | _ => none

end PairingWire.Element
