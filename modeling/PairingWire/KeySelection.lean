import PairingWire.Error

/-!
Choosing a curve for new keys. Deprecated curves are refused, weak and legacy ones come with an
advisory. Reading old data does not ask for the standing of a curve.
-/

namespace PairingWire

structure Advisory where
  curve : CurveId
  deriving DecidableEq, Repr

namespace Advisory

def status (a : Advisory) : SecurityStatus := a.curve.descriptor.status

def securityBits (a : Advisory) : Nat := a.curve.descriptor.securityBits

def message (_ : Advisory) : String :=
  "curve selected for new keys is below current recommendations"

end Advisory

structure KeySelection where
  curve : CurveId
  advisories : List Advisory
  deriving DecidableEq, Repr

/-- Resolves a canonical or display name. -/
def selectForNewKeys (name : String) : Except CodecError KeySelection :=
  match CurveId.ofName? name with
  | none => .error (.invalidSettings .unknownCurveName)
  | some c =>
    match c.descriptor.status with
    | .deprecated => .error (.deprecatedCurve c)
    | .weak | .legacy => .ok ⟨c, [⟨c⟩]⟩
    | .recommended | .good => .ok ⟨c, []⟩

end PairingWire
