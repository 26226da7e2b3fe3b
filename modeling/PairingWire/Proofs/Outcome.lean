import Mathlib.Data.List.Forall2
import PairingWire.Error

/-!
Results that may fail: when a sequence of steps succeeds, and which failures it can report otherwise.
-/

namespace PairingWire

variable {ε ε' α β : Type}

@[simp] theorem ok_bind (a : α) (f : α → Except ε β) : (Except.ok a >>= f) = f a := rfl

@[simp] theorem error_bind (err : ε) (f : α → Except ε β) :
    (Except.error err >>= f) = .error err := rfl

@[simp] theorem pure_eq_ok (a : α) : (pure a : Except ε α) = .ok a := rfl

theorem bind_eq_ok_iff {r : Except ε α} {f : α → Except ε β} {b : β} :
    (r >>= f) = .ok b ↔ ∃ a, r = .ok a ∧ f a = .ok b := by
  cases r <;> simp

theorem bind_eq_error_iff {r : Except ε α} {f : α → Except ε β} {err : ε} :
    (r >>= f) = .error err ↔ r = .error err ∨ ∃ a, r = .ok a ∧ f a = .error err := by
  cases r <;> simp

theorem mapError_eq_ok_iff {r : Except ε α} {f : ε → ε'} {a : α} :
    r.mapError f = .ok a ↔ r = .ok a := by
  cases r <;> simp [Except.mapError]

theorem mapError_eq_error_iff {r : Except ε α} {f : ε → ε'} {err : ε'} :
    r.mapError f = .error err ↔ ∃ cause, r = .error cause ∧ f cause = err := by
  cases r <;> simp [Except.mapError]

theorem liftArithmetic_eq_ok_iff {r : Except ArithmeticError α} {a : α} :
    liftArithmetic r = .ok a ↔ r = .ok a := mapError_eq_ok_iff

@[simp] theorem liftArithmetic_ok (a : α) : liftArithmetic (.ok a) = .ok a := rfl

theorem exists_error_of_ne_ok {r : Except ε α} (never : ∀ a, r ≠ .ok a) :
    ∃ err, r = .error err := by
  cases r with
  | ok a => exact absurd rfl (never a)
  | error err => exact ⟨err, rfl⟩

theorem toOption_eq_some_iff {r : Except ε α} {a : α} : r.toOption = some a ↔ r = .ok a := by
  cases r <;> simp [Except.toOption]

theorem mapM_eq_some_iff {f : α → Option β} {xs : List α} {ys : List β} :
    xs.mapM f = some ys ↔ List.Forall₂ (fun x y => f x = some y) xs ys := by
  induction xs generalizing ys with
  | nil => simp [eq_comm]
  | cons x xs ih =>
      simp only [List.mapM_cons, Option.bind_eq_bind, Option.bind_eq_some_iff, Option.pure_def,
        Option.some.injEq]
      constructor
      · rintro ⟨y, first, ys', others, rfl⟩
        exact .cons first (ih.1 others)
      · rintro (_ | ⟨first, others⟩)
        exact ⟨_, first, _, ih.2 others, rfl⟩

theorem mapM_eq_ok_iff {f : α → Except ε β} {xs : List α} {ys : List β} :
    xs.mapM f = .ok ys ↔ List.Forall₂ (fun x y => f x = .ok y) xs ys := by
  induction xs generalizing ys with
  | nil => cases ys <;> simp
  | cons x xs ih =>
      rw [List.mapM_cons, bind_eq_ok_iff]
      constructor
      · rintro ⟨y, found, rest⟩
        obtain ⟨ys', others, same⟩ := bind_eq_ok_iff.1 rest
        cases same
        exact .cons found (ih.1 others)
      · rintro (_ | ⟨found, others⟩)
        exact ⟨_, found, bind_eq_ok_iff.2 ⟨_, ih.2 others, rfl⟩⟩

theorem exists_mapM_ok_iff {f : α → Except ε β} {xs : List α} :
    (∃ ys, xs.mapM f = .ok ys) ↔ ∀ x ∈ xs, ∃ y, f x = .ok y := by
  induction xs with
  | nil => simp
  | cons x xs ih =>
      simp only [mapM_eq_ok_iff, List.forall_mem_cons, List.forall₂_cons_left_iff] at ih ⊢
      rw [← ih]
      constructor
      · intro ⟨_, y, ys, first, others, _⟩
        exact ⟨⟨y, first⟩, ys, others⟩
      · intro ⟨⟨y, first⟩, ys, others⟩
        exact ⟨y :: ys, y, ys, first, others, rfl⟩

theorem exists_right_of_forall₂ {R : α → β → Prop} {xs : List α} {ys : List β}
    (each : List.Forall₂ R xs ys) : ∀ x ∈ xs, ∃ y ∈ ys, R x y := by
  induction each with
  | nil => simp
  | cons first _ ih =>
      intro x member
      rcases List.mem_cons.1 member with rfl | later
      · exact ⟨_, List.mem_cons_self, first⟩
      · obtain ⟨y, place, related⟩ := ih x later
        exact ⟨y, List.mem_cons_of_mem _ place, related⟩

theorem exists_left_of_forall₂ {R : α → β → Prop} {xs : List α} {ys : List β}
    (each : List.Forall₂ R xs ys) : ∀ y ∈ ys, ∃ x ∈ xs, R x y :=
  exists_right_of_forall₂ each.flip

theorem exists_of_mapM_eq_some {f : α → Option β} {xs : List α} {ys : List β}
    (found : xs.mapM f = some ys) : ∀ y ∈ ys, ∃ x ∈ xs, f x = some y :=
  exists_left_of_forall₂ (mapM_eq_some_iff.1 found)

/-- Whatever failure is reported has the property. -/
def FailsWith (P : ε → Prop) (r : Except ε α) : Prop := ∀ ⦃err⦄, r = .error err → P err

namespace FailsWith

variable {P : ε → Prop} {r r' : Except ε α}

theorem ok (a : α) : FailsWith P (.ok a) := fun _ impossible => nomatch impossible

theorem error {err : ε} (cause : P err) : FailsWith P (.error err : Except ε α) := by
  intro err' same
  cases same
  exact cause

theorem ite {c : Prop} [Decidable c] (holds : c → FailsWith P r) (fails : ¬c → FailsWith P r') :
    FailsWith P (if c then r else r') := by
  split
  · exact holds ‹_›
  · exact fails ‹_›

theorem bind {f : α → Except ε β} (first : FailsWith P r)
    (second : ∀ a, r = .ok a → FailsWith P (f a)) : FailsWith P (r >>= f) := by
  intro err failed
  rcases bind_eq_error_iff.1 failed with now | ⟨a, found, later⟩
  · exact first now
  · exact second a found later

theorem bind_ok {f : α → β} (first : FailsWith P r) : FailsWith P (r >>= fun a => .ok (f a)) :=
  first.bind fun a _ => .ok (f a)

theorem mono {Q : ε → Prop} (failures : FailsWith P r) (weaker : ∀ err, P err → Q err) :
    FailsWith Q r :=
  fun err failed => weaker err (failures failed)

theorem mapError {Q : ε' → Prop} {f : ε → ε'} (failures : FailsWith (fun err => Q (f err)) r) :
    FailsWith Q (r.mapError f) := by
  intro err failed
  obtain ⟨cause, refused, rfl⟩ := mapError_eq_error_iff.1 failed
  exact failures refused

theorem mapM {f : α → Except ε β} {xs : List α} (each : ∀ x ∈ xs, FailsWith P (f x)) :
    FailsWith P (xs.mapM f) := by
  induction xs with
  | nil => exact .ok []
  | cons x xs ih =>
      rw [List.mapM_cons]
      refine .bind (each x List.mem_cons_self) fun y _ => ?_
      exact .bind_ok (ih fun x' member => each x' (List.mem_cons_of_mem x member))

end FailsWith

end PairingWire
