import Mathlib.Tactic.Common
import PairingWire.Layout
import PairingWire.Proofs.Outcome

/-!
Computations that stop where an operation is used outside its domain: a string cut or read past its
end, zero inverted, an asserted branch reached. A decoder that is written with these operations and
agrees with one that is not shows that they are used inside their domain only.
-/

namespace PairingWire

/-- A result or a failure, unless the computation stops. -/
abbrev Guarded (α : Type) := ExceptT CodecError Option α

namespace Guarded

variable {α β : Type}

def of (r : Except CodecError α) : Guarded α := ExceptT.mk (some r)

def stop : Guarded α := ExceptT.mk none

theorem of_ne_stop (r : Except CodecError α) : of r ≠ stop := fun same => nomatch same

theorem pure_bind_eq (a : α) (f : α → Guarded β) : (pure a >>= f) = f a := rfl

theorem of_ok_bind (a : α) (f : α → Guarded β) : (of (.ok a) >>= f) = f a := rfl

/-- Steps that do not stop form a computation that does not; the second may rely on the first. -/
theorem of_bind {r : Except CodecError α} {f : α → Guarded β} {g : α → Except CodecError β}
    (same : ∀ a, r = .ok a → f a = of (g a)) : (of r >>= f) = of (r >>= g) := by
  cases r with
  | error err => rfl
  | ok a => exact same a rfl

theorem of_ite {c : Prop} [Decidable c] {f f' : Guarded α} {r r' : Except CodecError α}
    (holds : c → f = of r) (fails : ¬c → f' = of r') :
    (if c then f else f') = of (if c then r else r') := by
  split
  · exact holds ‹_›
  · exact fails ‹_›

theorem of_mapM {f : α → Guarded β} {g : α → Except CodecError β} (same : ∀ a, f a = of (g a))
    (as : List α) : as.mapM f = of (as.mapM g) := by
  induction as with
  | nil => rfl
  | cons a as ih =>
      rw [List.mapM_cons, List.mapM_cons, same, ih]
      refine of_bind fun b _ => ?_
      exact of_bind fun bs _ => rfl

section Strings

variable {n width : Nat} {bs : Bytes}

def front (n : Nat) (bs : Bytes) : Guarded Bytes := if n ≤ bs.length then pure (bs.take n) else stop

def back (n : Nat) (bs : Bytes) : Guarded Bytes := if n ≤ bs.length then pure (bs.drop n) else stop

def octet (i : Nat) (bs : Bytes) : Guarded UInt8 :=
  match bs[i]? with
  | some b => pure b
  | none => stop

def mapFirst (change : UInt8 → UInt8) : Bytes → Guarded Bytes
  | [] => stop
  | b :: bs => pure (change b :: bs)

def chunks (width : Nat) (bs : Bytes) : Guarded (List Bytes) :=
  if width = 0 then stop else pure (Layout.pieces width ((bs.length + width - 1) / width) bs)

theorem front_eq (bound : n ≤ bs.length) : front n bs = pure (bs.take n) := if_pos bound

theorem back_eq (bound : n ≤ bs.length) : back n bs = pure (bs.drop n) := if_pos bound

theorem chunks_eq {count : Nat} (positive : width ≠ 0) (total : bs.length = count * width) :
    chunks width bs = pure (Layout.pieces width count bs) := by
  have rounded : (bs.length + width - 1) / width = count := by
    rw [total, Nat.add_sub_assoc (Nat.one_le_iff_ne_zero.2 positive), Nat.add_comm,
      Nat.add_mul_div_right _ _ (Nat.pos_of_ne_zero positive),
      Nat.div_eq_of_lt (Nat.sub_lt (Nat.pos_of_ne_zero positive) Nat.one_pos), Nat.zero_add]
  rw [chunks, if_neg positive, rounded]

end Strings

def inverse {F : Type} [Zero F] [Inv F] [DecidableEq F] (a : F) : Guarded F :=
  if a = 0 then stop else pure a⁻¹

theorem inverse_eq {F : Type} [Zero F] [Inv F] [DecidableEq F] {a : F} (nonzero : a ≠ 0) :
    inverse a = pure a⁻¹ := if_neg nonzero

end Guarded

end PairingWire
