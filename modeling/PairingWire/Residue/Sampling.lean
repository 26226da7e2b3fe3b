import PairingWire.Residue

/-!
Uniform residues from a stream of 64-bit words. A candidate of the modulus' bit length is drawn
again until it is below the modulus. The stream ends in zeros, so a draw always ends.
-/

namespace PairingWire

structure Sample (V : Type) where
  value : V
  wordsUsed : Nat

namespace Residue

def limbs (m : Nat) : Nat := (bitLength m + 63) / 64

def ofWords : List UInt64 → Nat
  | [] => 0
  | w :: ws => w.toNat + Nat.pow 2 64 * ofWords ws

/--
The first candidate below the modulus and the words read for it. `attempts` bounds the candidates;
a candidate past the end of the words is zero.
-/
def drawBelow (m : Nat) : Nat → List UInt64 → Nat × Nat
  | 0, _ => (0, limbs m)
  | attempts + 1, words =>
    let candidate := ofWords (words.take (limbs m)) % Nat.pow 2 (bitLength m)
    if candidate < m then (candidate, limbs m)
    else
      let (value, used) := drawBelow m attempts (words.drop (limbs m))
      (value, limbs m + used)

def sample (m : Nat) [Modulus m] (words : List UInt64) : Sample (Residue m) :=
  let (number, used) := drawBelow m words.length words
  -- The number stands for a residue scaled by the place value above all words.
  { value := ofNat m number * (ofNat m (Nat.pow 2 (64 * limbs m)))⁻¹, wordsUsed := used }

end Residue

end PairingWire
