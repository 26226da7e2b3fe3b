import PairingWire.Element
import PairingWire.Proofs.Guarded.Basic
import PairingWire.Proofs.Layout.FlagBits
import PairingWire.Proofs.Primality
import PairingWire.Residue.Sampling

/-!
Writing with guarded operations. A residue is cut out of the limbs that store it, which are asserted
to be wide enough and to hold nothing else; flags are set in the first octet of a string.
-/

namespace PairingWire

namespace Guarded

section Residue

variable {m : Nat}

def limbOctets (m : Nat) : Nat := 8 * Residue.limbs m

def residueBytes (a : Residue m) : Guarded Bytes :=
  let raw := Bytes.ofNatBE (limbOctets m) a.val
  if raw.length < Residue.width m then stop
  else do
    let leading ← front (raw.length - Residue.width m) raw
    if leading.all (· = 0) then back (raw.length - Residue.width m) raw else stop

theorem width_le_limbOctets (m : Nat) : Residue.width m ≤ limbOctets m := by
  unfold Residue.width limbOctets Residue.limbs
  omega

theorem residueBytes_eq (a : Residue m) : residueBytes a = pure a.toBytes := by
  obtain ⟨more, total⟩ := Nat.exists_eq_add_of_le (width_le_limbOctets m)
  have fits : a.val < 256 ^ Residue.width m := lt_trans a.isLt (Residue.modulus_lt_width m)
  have raw_eq : Bytes.ofNatBE (limbOctets m) a.val = List.replicate more 0 ++ a.toBytes := by
    rw [total, Bytes.ofNatBE_add fits, Residue.toBytes]
  have length_eq : (List.replicate more 0 ++ a.toBytes).length = limbOctets m := by
    rw [← raw_eq, Bytes.length_ofNatBE]
  have surplus : limbOctets m - Residue.width m = more := by
    rw [total, Nat.add_sub_cancel_left]
  have bound : more ≤ (List.replicate more 0 ++ a.toBytes).length := by
    rw [length_eq, total]
    exact Nat.le_add_left _ _
  rw [residueBytes, raw_eq, length_eq, surplus, if_neg (not_lt.2 (width_le_limbOctets m)),
    front_eq bound, pure_bind_eq, back_eq bound, List.take_left' List.length_replicate,
    List.drop_left' List.length_replicate, if_pos (by simp)]

end Residue

section Point

open Layout (coordinateWidth pointType)

variable {F : Type} {p : Nat} [CoordinateField F p]

def putCoordinate (x : F) : Guarded Bytes := do
  let parts ← (coefficients x).reverse.mapM residueBytes
  return parts.flatten

theorem putCoordinate_eq (x : F) : putCoordinate x = pure (Layout.putCoordinate x) := by
  have written : (residueBytes : Residue p → Guarded Bytes) = fun a => pure a.toBytes :=
    funext residueBytes_eq
  rw [putCoordinate, written, List.mapM_pure, pure_bind, Layout.putCoordinate, List.flatMap_def]

def putAffine (x y : F) : Guarded Bytes := do
  let abscissa ← putCoordinate x
  let ordinate ← putCoordinate y
  return abscissa ++ ordinate

theorem putAffine_eq (x y : F) :
    putAffine x y = pure (Layout.putCoordinate x ++ Layout.putCoordinate y) := by
  rw [putAffine, putCoordinate_eq, pure_bind_eq, putCoordinate_eq, pure_bind_eq]

def encodeWords (compress : Bool) (P : Point F) : Guarded Encoded :=
  if Residue.width p ≠ Layout.Ethereum.word ∨ compress then
    of (.error (.unsupported .ethereum (pointType F)))
  else
    match P with
    | .infinity => pure ⟨List.replicate (2 * coordinateWidth F) 0, { infinity := true }⟩
    | .affine x y => do
      let body ← putAffine x y
      return ⟨body, {}⟩

theorem encodeWords_eq (compress : Bool) (P : Point F) :
    encodeWords compress P = of (Layout.Ethereum.encodePoint compress P) := by
  refine of_ite (fun _ => rfl) fun _ => ?_
  cases P with
  | infinity => rfl
  | affine x y =>
      dsimp only
      rw [putAffine_eq]
      rfl

variable [Modulus p]

def encodeSec1 (compress : Bool) (P : Point F) : Guarded Encoded :=
  match P with
  | .infinity => pure ⟨[0x00], { infinity := true }⟩
  | .affine x y =>
    if compress then
      if CoordinateField.degree F ≠ 1 then of (.error (.unsupported .sec1 (pointType F)))
      else do
        let odd := signBit .parity y
        let abscissa ← putCoordinate x
        return ⟨(if odd then 0x03 else 0x02) :: abscissa, { compressed := true, ySign := odd }⟩
    else do
      let body ← putAffine x y
      return ⟨0x04 :: body, {}⟩

def encodeFlagged (format : Format) (compress : Bool) (P : Point F) : Guarded Encoded :=
  let compression := if compress then Layout.FlagBits.compressedBit else 0
  match P with
  | .infinity => do
    let payload ← mapFirst (· ||| (compression ||| Layout.FlagBits.infinityBit))
      (List.replicate (Layout.FlagBits.bodyWidth F compress) 0)
    return ⟨payload, { compressed := compress, infinity := true }⟩
  | .affine x y => do
    let abscissa ← putCoordinate x
    let first ← octet 0 abscissa
    if first &&& Layout.FlagBits.flagMask ≠ 0 then of (.error (.unsupported format (pointType F)))
    else if compress then do
      let larger := signBit .lexicographic y
      let payload ←
        mapFirst (· ||| (compression ||| if larger then Layout.FlagBits.signBitMask else 0)) abscissa
      return ⟨payload, { compressed := true, ySign := larger }⟩
    else do
      let ordinate ← putCoordinate y
      return ⟨abscissa ++ ordinate, {}⟩

def encodePoint (e : Engine) (f : Format) (compress : Bool) (P : Point F) : Guarded Encoded :=
  match f with
  -- The native writer is the engine's own and is taken as it is.
  | .legacy | .auto => of (Layout.encodePoint e f compress P)
  | .sec1 => encodeSec1 compress P
  | .zcash | .ietf => encodeFlagged f compress P
  | .ethereum => encodeWords compress P

theorem encodeSec1_eq (compress : Bool) (P : Point F) :
    encodeSec1 compress P = of (Layout.Sec1.encodePoint compress P) := by
  cases P with
  | infinity => rfl
  | affine x y =>
      refine of_ite (fun _ => ?_) fun _ => ?_
      · refine of_ite (fun _ => rfl) fun _ => ?_
        rw [putCoordinate_eq]
        rfl
      · rw [putAffine_eq]
        rfl

variable [Field F] [LawfulCoordinates F]

theorem encodeFlagged_eq (format : Format) (compress : Bool) (P : Point F) :
    encodeFlagged format compress P = of (Layout.FlagBits.encodePoint format compress P) := by
  cases P with
  | infinity =>
      have nonzero := Layout.FlagBits.bodyWidth_ne_zero (F := F) compress
      obtain ⟨n, width_eq⟩ := Nat.exists_eq_succ_of_ne_zero nonzero
      rw [encodeFlagged, Layout.FlagBits.encodePoint, width_eq, List.replicate_succ]
      rfl
  | affine x y =>
      obtain ⟨b, rest, split⟩ := List.exists_cons_of_ne_nil (Layout.putCoordinate_ne_nil x)
      have read : octet 0 (b :: rest) = pure b := rfl
      have flags : Layout.FlagBits.flagsFree (b :: rest) =
          decide (b &&& Layout.FlagBits.flagMask = 0) := rfl
      rw [encodeFlagged, Layout.FlagBits.encodePoint, putCoordinate_eq, putCoordinate_eq, split,
        pure_bind_eq, read, pure_bind_eq, flags]
      by_cases free : b &&& Layout.FlagBits.flagMask = 0
      · rw [if_neg (not_not.2 free), decide_eq_true free]
        cases compress <;> rfl
      · rw [if_pos free, decide_eq_false free]
        rfl

theorem encodePoint_eq (e : Engine) (f : Format) (compress : Bool) (P : Point F) :
    encodePoint e f compress P = of (Layout.encodePoint e f compress P) := by
  cases f with
  | legacy | auto => rfl
  | sec1 => exact encodeSec1_eq compress P
  | zcash | ietf => exact encodeFlagged_eq _ compress P
  | ethereum => exact encodeWords_eq compress P

end Point

section Element

variable {e : Engine}

def encodeScalar (f : Format) (s : Fr e) : Guarded Encoded := do
  let octets ← residueBytes s
  return ⟨if f = .legacy then octets.reverse else octets, {}⟩

def encodeTarget (f : Format) (compress : Bool) (x : Fq12 e) : Guarded Encoded :=
  match f with
  | .ietf => do
    let parts ←
      (if compress then x.compress.toList else (Karabina.ofFq12 x).toList).mapM putCoordinate
    return ⟨parts.flatten, Layout.Cyclotomic.flags compress x⟩
  | _ => of (Layout.encodeTarget f compress x)

def encodePayload (f : Format) (compress : Bool) : Element e → Guarded Encoded
  | .zp s => encodeScalar f s
  | .g1 P => encodePoint e f compress P
  | .g2 Q => encodePoint e f compress Q
  | .gt x => encodeTarget f compress x

theorem encodeTarget_eq (f : Format) (compress : Bool) (x : Fq12 e) :
    encodeTarget f compress x = of (Layout.encodeTarget f compress x) := by
  cases f with
  | ietf =>
      have written : (putCoordinate : Fq2 e → Guarded Bytes) = fun c => pure (Layout.putCoordinate c) :=
        funext putCoordinate_eq
      rw [encodeTarget, written, List.mapM_pure, pure_bind, ← List.flatMap_def]
      rfl
  | legacy | sec1 | zcash | ethereum | auto => rfl

theorem encodePayload_eq (f : Format) (compress : Bool) (x : Element e) :
    encodePayload f compress x = of (x.encodePayload f compress) := by
  cases x with
  | zp s =>
      rw [encodePayload, encodeScalar, residueBytes_eq]
      rfl
  | g1 P => exact encodePoint_eq e f compress P
  | g2 Q => exact encodePoint_eq e f compress Q
  | gt x => exact encodeTarget_eq f compress x

end Element

end Guarded

end PairingWire
