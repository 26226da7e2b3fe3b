import PairingWire.Curve
import PairingWire.CurveId

/-!
The two pairing engines: field and group orders, the two source curves with their generators, and
the constant that the sextic tower adjoins a cube root of.
-/

namespace PairingWire

inductive Engine
  | bn254 | bls12P381
  deriving DecidableEq, Repr

namespace Engine

def curveId : Engine → CurveId
  | bn254 => .bnP254
  | bls12P381 => .bls12P381

def fieldOrder : Engine → Nat
  | bn254 => 0x30644e72e131a029b85045b68181585d97816a916871ca8d3c208c16d87cfd47
  | bls12P381 =>
    0x1a0111ea397fe69a4b1ba7b6434bacd764774b84f38512bf6730d2a0f6b0f6241eabfffeb153ffffb9feffffffffaaab

def groupOrder : Engine → Nat
  | bn254 => 0x30644e72e131a029b85045b68181585d2833e84879b9709143e1f593f0000001
  | bls12P381 => 0x73eda753299d7d483339d80809a1d80553bda402fffe5bfeffffffff00000001

/-- The absolute value of the parameter that generates the curve. -/
def parameter : Engine → Nat
  | bn254 => 4965661367192848881
  | bls12P381 => 0xd201000000010000

instance (e : Engine) : Modulus e.fieldOrder := ⟨by cases e <;> decide⟩

instance (e : Engine) : Modulus e.groupOrder := ⟨by cases e <;> decide⟩

end Engine

abbrev Fr (e : Engine) := Residue e.groupOrder

abbrev Fq (e : Engine) := Residue e.fieldOrder

abbrev Fq2 (e : Engine) := Quadratic e.fieldOrder

namespace Engine

def fq (e : Engine) (n : Nat) : Fq e := Residue.ofNat _ n

def fq2 (e : Engine) (n0 n1 : Nat) : Fq2 e := ⟨e.fq n0, e.fq n1⟩

def g1 : (e : Engine) → Curve (Fq e)
  | bn254 =>
    { a := 0
      b := bn254.fq 3
      generator := .affine (bn254.fq 1) (bn254.fq 2)
      order := bn254.groupOrder }
  | bls12P381 =>
    { a := 0
      b := bls12P381.fq 4
      generator := .affine
        (bls12P381.fq
          0x17f1d3a73197d7942695638c4fa9ac0fc3688c4f9774b905a14e3a3f171bac586c55e83ff97a1aeffb3af00adb22c6bb)
        (bls12P381.fq
          0x08b3f481e3aaa0f1a09e30ed741d8ae4fcf5e095d5d00af600db18cb2c04b3edd03cc744a2888ae40caa232946c5e7e1)
      order := bls12P381.groupOrder }

/-- The curve of the second source group, a sextic twist over the quadratic extension. -/
def g2 : (e : Engine) → Curve (Fq2 e)
  | bn254 =>
    { a := 0
      b := bn254.fq2
        0x2b149d40ceb8aaae81be18991be06ac3b5b4c5e559dbefa33267e6dc24a138e5
        0x009713b03af0fed4cd2cafadeed8fdf4a74fa084e52d1852e4a2bd0685c315d2
      generator := .affine
        (bn254.fq2
          0x1800deef121f1e76426a00665e5c4479674322d4f75edadd46debd5cd992f6ed
          0x198e9393920d483a7260bfb731fb5d25f1aa493335a9e71297e485b7aef312c2)
        (bn254.fq2
          0x12c85ea5db8c6deb4aab71808dcb408fe3d1e7690c43d37b4ce6cc0166fa7daa
          0x090689d0585ff075ec9e99ad690c3395bc4b313370b38ef355acdadcd122975b)
      order := bn254.groupOrder }
  | bls12P381 =>
    { a := 0
      b := bls12P381.fq2 4 4
      generator := .affine
        (bls12P381.fq2
          0x024aa2b2f08f0a91260805272dc51051c6e47ad4fa403b02b4510b647ae3d1770bac0326a805bbefd48056c8c121bdb8
          0x13e02b6052719f607dacd3a088274f65596bd0d09920b61ab5da61bbdc7f5049334cf11213945d57e5ac7d055d042b7e)
        (bls12P381.fq2
          0x0ce5d527727d6e118cc9cdc6da2e351aadfd9baa8cbdd3a76d429a695160d12c923ac9cc3baca289e193548608b82801
          0x0606c4a02ea734cc32acd2b02bc28b99cb3e287e85a763af267492ab572e99ab3f370d275cec1da1aaa9075ff05f79be)
      order := bls12P381.groupOrder }

/-- The element `ξ` whose cube root and sixth root generate the tower. -/
def towerNonresidue : (e : Engine) → Fq2 e
  | bn254 => bn254.fq2 9 1
  | bls12P381 => bls12P381.fq2 1 1

end Engine

end PairingWire
