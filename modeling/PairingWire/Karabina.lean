import PairingWire.Layout
import PairingWire.Tower

/-!
Karabina coordinates of the degree-12 field, the coefficients of `1, w³, w, w⁴, w², w⁵`. In the
cyclotomic subgroup the last four determine the first two, and so they alone are written.
-/

namespace PairingWire

structure Karabina (e : Engine) where
  g0 : Fq2 e
  g1 : Fq2 e
  g2 : Fq2 e
  g3 : Fq2 e
  g4 : Fq2 e
  g5 : Fq2 e
  deriving DecidableEq, Repr

structure KarabinaKept (e : Engine) where
  g2 : Fq2 e
  g3 : Fq2 e
  g4 : Fq2 e
  g5 : Fq2 e
  deriving DecidableEq, Repr

variable {e : Engine}

namespace Karabina

def ofFq12 (x : Fq12 e) : Karabina e :=
  ⟨x.c0.b0, x.c1.b1, x.c1.b0, x.c0.b2, x.c0.b1, x.c1.b2⟩

def toFq12 (k : Karabina e) : Fq12 e := ⟨⟨k.g0, k.g4, k.g3⟩, ⟨k.g2, k.g1, k.g5⟩⟩

def toList (k : Karabina e) : List (Fq2 e) := [k.g0, k.g1, k.g2, k.g3, k.g4, k.g5]

def kept (k : Karabina e) : KarabinaKept e := ⟨k.g2, k.g3, k.g4, k.g5⟩

@[simp] theorem toFq12_ofFq12 (x : Fq12 e) : (ofFq12 x).toFq12 = x := rfl

@[simp] theorem ofFq12_toFq12 (k : Karabina e) : ofFq12 k.toFq12 = k := rfl

end Karabina

namespace KarabinaKept

def toList (k : KarabinaKept e) : List (Fq2 e) := [k.g2, k.g3, k.g4, k.g5]

def rebuildG0 (k : KarabinaKept e) (g1 : Fq2 e) : Fq2 e :=
  let small := Quadratic.ofNat e.fieldOrder
  e.towerNonresidue * (small 2 * g1 * g1 + k.g2 * k.g5 - small 3 * k.g3 * k.g4) + 1

/-- The cyclotomic element with these coordinates, checked for the target group. -/
def decompress (k : KarabinaKept e) : Except CodecError (Fq12 e) :=
  let small := Quadratic.ofNat e.fieldOrder
  let rebuild (g1 : Fq2 e) : Except CodecError (Fq12 e) :=
    liftArithmetic
      (Fq12.check (Karabina.toFq12 ⟨k.rebuildG0 g1, g1, k.g2, k.g3, k.g4, k.g5⟩))
  if k.g2 ≠ 0 then do
    let inverse ← liftArithmetic (small 4 * k.g2).invert
    rebuild ((e.towerNonresidue * k.g5 * k.g5 + small 3 * k.g4 * k.g4 - small 2 * k.g3) * inverse)
  else if k.g3 ≠ 0 then do
    let inverse ← liftArithmetic k.g3.invert
    rebuild (small 2 * k.g4 * k.g5 * inverse)
  -- Without the third and fourth coordinate only 1 is left.
  else if k.g4 = 0 ∧ k.g5 = 0 then .ok 1
  else .error (.invalidEncoding .degenerateCyclotomic)

end KarabinaKept

def Fq12.compress (x : Fq12 e) : KarabinaKept e := (Karabina.ofFq12 x).kept

/-!
Target elements in Karabina coordinates, each written highest coefficient first: all six of them, or
the last four for an element of the cyclotomic subgroup. The length tells the two forms apart.
-/

namespace Layout.Cyclotomic

def flags (compressed : Bool) (x : Fq12 e) : Flags where
  compressed := compressed
  infinity := x = 1
  cyclotomic := compressed

def encodeTarget (compress : Bool) (x : Fq12 e) : Encoded :=
  let cs := if compress then x.compress.toList else (Karabina.ofFq12 x).toList
  ⟨cs.flatMap putCoordinate, flags compress x⟩

def decodeTarget (e : Engine) (bs : Bytes) : Except CodecError (Fq12 e × Flags) :=
  let n := coordinateWidth (Fq2 e)
  if bs.length ≠ 6 * n ∧ bs.length ≠ 4 * n then .error (.invalidEncoding .wrongLength)
  else do
    let cs ← (pieces n (bs.length / n) bs).mapM (takeCoordinate (F := Fq2 e))
    match cs with
    | [g0, g1, g2, g3, g4, g5] =>
      let x ← liftArithmetic (Fq12.check (Karabina.toFq12 ⟨g0, g1, g2, g3, g4, g5⟩))
      return (x, flags false x)
    | [g2, g3, g4, g5] =>
      let x ← KarabinaKept.decompress ⟨g2, g3, g4, g5⟩
      return (x, flags true x)
    | _ => .error (.invalidEncoding .wrongLength)

end Layout.Cyclotomic

end PairingWire
