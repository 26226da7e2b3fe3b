import PairingWire.Residue

/-!
Square roots modulo an odd prime. Euler's criterion decides whether a root exists; where the prime is
3 modulo 4 one power gives it, otherwise a search lowers the order of an error term step by step.
-/

namespace PairingWire.Residue

variable {p : Nat} [Modulus p]

def legendre (a : Residue p) : Int :=
  if a = 0 then 0 else if power a ((p - 1) / 2) = 1 then 1 else -1

def isSquare (a : Residue p) : Bool := 0 ≤ legendre a

/-- The first non-square among `z`, `z + 1`, …, looking at most `fuel` places ahead. -/
def nonSquareFrom : Nat → Residue p → Residue p
  | 0, z => z
  | fuel + 1, z => if legendre z = -1 then z else nonSquareFrom fuel (z + 1)

def leastNonSquare (p : Nat) [Modulus p] : Residue p := nonSquareFrom p (ofNat p 2)

def twosIn : Nat → Nat → Nat
  | 0, _ => 0
  | fuel + 1, n => if n % 2 = 0 then twosIn fuel (n / 2) + 1 else 0

def twoAdicity (p : Nat) : Nat := twosIn (bitLength (p - 1)) (p - 1)

def oddPart (p : Nat) : Nat := (p - 1) / Nat.pow 2 (twoAdicity p)

def squareTimes : Nat → Residue p → Residue p
  | 0, a => a
  | k + 1, a => squareTimes k (a * a)

/-- The least number of squarings below `bound` that take `t` to 1. -/
def squaringsToOne : Nat → Residue p → Option Nat
  | 0, _ => none
  | bound + 1, t => if t = 1 then some 0 else (squaringsToOne bound (t * t)).map (· + 1)

theorem squaringsToOne_lt {bound i : Nat} {t : Residue p} (h : squaringsToOne bound t = some i) :
    i < bound := by
  induction bound generalizing t i with
  | zero => simp [squaringsToOne] at h
  | succ bound ih =>
    unfold squaringsToOne at h
    split at h
    · cases h; exact Nat.succ_pos _
    · obtain ⟨j, hj, rfl⟩ := Option.map_eq_some_iff.1 h
      exact Nat.succ_lt_succ (ih hj)

/--
A root search for `a`: `root` squares to `a * error`, and `error` has an order dividing a smaller
power of 2 than the order `2 ^ level` of `unity`.
-/
structure RootSearch (p : Nat) where
  level : Nat
  unity : Residue p
  error : Residue p
  root : Residue p

namespace RootSearch

def start (a : Residue p) : RootSearch p where
  level := twoAdicity p
  unity := power (leastNonSquare p) (oddPart p)
  error := power a (oddPart p)
  root := power a ((oddPart p + 1) / 2)

/-- Lowers the order of the error below `2 ^ i`, if `i` squarings take it to 1. -/
def lower (s : RootSearch p) (i : Nat) : RootSearch p :=
  let b := squareTimes (s.level - i - 1) s.unity
  { level := i, unity := b * b, error := s.error * (b * b), root := s.root * b }

def run (s : RootSearch p) : Except CodecError (Residue p) :=
  if s.error = 1 then .ok s.root
  else
    match _h : squaringsToOne s.level s.error with
    -- An order that is not below the level shows a non-square.
    | none => .error .notASquare
    | some i => run (s.lower i)
termination_by s.level
decreasing_by exact squaringsToOne_lt _h

end RootSearch

def tonelliShanks (a : Residue p) : Except CodecError (Residue p) := (RootSearch.start a).run

def sqrt (a : Residue p) : Except CodecError (Residue p) :=
  if a = 0 then .ok 0
  else if legendre a ≠ 1 then .error .notASquare
  else do
    let root ← if p % 4 = 3 then .ok (power a ((p + 1) / 4)) else tonelliShanks a
    -- For a prime modulus this holds by now.
    if root * root = a then .ok root else .error .notASquare

end PairingWire.Residue
