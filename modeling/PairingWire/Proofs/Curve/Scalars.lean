import Mathlib.Algebra.Module.Defs
import PairingWire.Proofs.Curve.GroupLaw
import PairingWire.Proofs.Residue.Field

/-!
The points of the subgroup as a group on which scalars act. Sums, opposites and multiples of its points
are such points again, and although scalars are reduced modulo the order of the subgroup, multiples by
them obey the laws of a module.
-/

namespace PairingWire.Curve

variable {F : Type} [Field F] [DecidableEq F] {C : Curve F} [C.Smooth] {P Q : Point F}

omit [DecidableEq F] [C.Smooth] in
theorem neg_ofGroup (P : C.toAffine.Point) : (ofGroup P).neg = ofGroup (-P) := by
  cases P with
  | zero => rfl
  | some x y nonsingular =>
      rw [WeierstrassCurve.Affine.Point.neg_some]
      simp only [ofGroup, Point.neg, negY_eq]

namespace Valid

theorem add (left : C.Valid P) (right : C.Valid Q) : C.Valid (C.add P Q) := by
  obtain ⟨P', rfl, total⟩ := valid_iff_exists.1 left
  obtain ⟨Q', rfl, total'⟩ := valid_iff_exists.1 right
  refine valid_iff_exists.2 ⟨P' + Q', (add_ofGroup P' Q').symm, ?_⟩
  rw [smul_add, total, total', add_zero]

theorem double (valid : C.Valid P) : C.Valid (C.double P) := by
  obtain ⟨P', rfl, total⟩ := valid_iff_exists.1 valid
  refine valid_iff_exists.2 ⟨P' + P', (double_ofGroup P').symm, ?_⟩
  rw [smul_add, total, add_zero]

theorem neg (valid : C.Valid P) : C.Valid P.neg := by
  obtain ⟨P', rfl, total⟩ := valid_iff_exists.1 valid
  refine valid_iff_exists.2 ⟨-P', (neg_ofGroup P').symm, ?_⟩
  rw [smul_neg, total, neg_zero]

theorem sub (left : C.Valid P) (right : C.Valid Q) : C.Valid (C.sub P Q) := left.add right.neg

theorem multiple (valid : C.Valid P) (n : Nat) : C.Valid (C.multiple n P) := by
  obtain ⟨P', rfl, total⟩ := valid_iff_exists.1 valid
  refine valid_iff_exists.2 ⟨n • P', (multiple_ofGroup n P').symm, ?_⟩
  rw [smul_comm, total, smul_zero]

end Valid

def Members (C : Curve F) : Type := { P : Point F // C.Valid P }

namespace Members

instance : Zero C.Members := ⟨⟨.infinity, C.valid_infinity⟩⟩

instance : Add C.Members := ⟨fun P Q => ⟨C.add P.1 Q.1, P.2.add Q.2⟩⟩

instance : Neg C.Members := ⟨fun P => ⟨P.1.neg, P.2.neg⟩⟩

omit [C.Smooth] in
theorem ext {P Q : C.Members} (same : P.1 = Q.1) : P = Q := Subtype.ext same

theorem val_add (P Q : C.Members) : (P + Q).1 = C.add P.1 Q.1 := rfl

theorem val_neg (P : C.Members) : (-P).1 = P.1.neg := rfl

theorem exists_ofGroup (P : C.Members) :
    ∃ P' : C.toAffine.Point, P.1 = ofGroup P' ∧ C.order • P' = 0 := by
  obtain ⟨P', coordinates, total⟩ := valid_iff_exists.1 P.2
  exact ⟨P', coordinates.symm, total⟩

instance : AddCommGroup C.Members where
  add_assoc P Q R := by
    obtain ⟨P', P_eq, _⟩ := P.exists_ofGroup
    obtain ⟨Q', Q_eq, _⟩ := Q.exists_ofGroup
    obtain ⟨R', R_eq, _⟩ := R.exists_ofGroup
    apply ext
    simp only [val_add, P_eq, Q_eq, R_eq, add_ofGroup, add_assoc]
  zero_add P := rfl
  add_zero P := by
    obtain ⟨_ | _, _⟩ := P <;> rfl
  neg_add_cancel P := by
    obtain ⟨P', P_eq, _⟩ := P.exists_ofGroup
    apply ext
    rw [val_add, val_neg, P_eq, neg_ofGroup, add_ofGroup, neg_add_cancel]
    rfl
  add_comm P Q := by
    obtain ⟨P', P_eq, _⟩ := P.exists_ofGroup
    obtain ⟨Q', Q_eq, _⟩ := Q.exists_ofGroup
    apply ext
    simp only [val_add, P_eq, Q_eq, add_ofGroup, add_comm]
  nsmul := nsmulRec
  zsmul := zsmulRec

variable {r : Nat}

instance : SMul (Residue r) C.Members := ⟨fun k P => ⟨C.multiple k.val P.1, P.2.multiple k.val⟩⟩

theorem val_smul (k : Residue r) (P : C.Members) : (k • P).1 = C.multiple k.val P.1 := rfl

abbrev moduleOfOrder [Modulus r] (order_eq : C.order = r) : Module (Residue r) C.Members where
  one_smul P := by
    obtain ⟨P', P_eq, total⟩ := P.exists_ofGroup
    rw [order_eq] at total
    apply ext
    rw [val_smul, P_eq, multiple_ofGroup, Residue.val_one, ← nsmul_eq_mod_nsmul 1 total, one_nsmul]
  mul_smul a b P := by
    obtain ⟨P', P_eq, total⟩ := P.exists_ofGroup
    rw [order_eq] at total
    apply ext
    simp only [val_smul, P_eq, multiple_ofGroup]
    rw [Residue.val_mul, ← nsmul_eq_mod_nsmul _ total, mul_nsmul']
  smul_zero a := ext (C.multiple_infinity a.val)
  smul_add a P Q := by
    obtain ⟨P', P_eq, _⟩ := P.exists_ofGroup
    obtain ⟨Q', Q_eq, _⟩ := Q.exists_ofGroup
    apply ext
    simp only [val_smul, val_add, P_eq, Q_eq, add_ofGroup, multiple_ofGroup, smul_add]
  add_smul a b P := by
    obtain ⟨P', P_eq, total⟩ := P.exists_ofGroup
    rw [order_eq] at total
    apply ext
    simp only [val_smul, val_add, P_eq, multiple_ofGroup, add_ofGroup]
    rw [Residue.val_add, ← nsmul_eq_mod_nsmul _ total, add_nsmul]
  zero_smul P := by
    obtain ⟨P', P_eq, _⟩ := P.exists_ofGroup
    apply ext
    rw [val_smul, P_eq, multiple_ofGroup, Residue.val_zero, zero_nsmul]
    rfl

end Members

/--
The laws of a module over the residues modulo `r`, for the points with property `M`: the chord and
tangent law is the addition, multiples by representatives are the scalar multiples.
-/
structure ModuleLaws (C : Curve F) (r : Nat) [Modulus r] (M : Point F → Prop) : Prop where
  add_assoc {P Q R : Point F} : M P → M Q → M R → C.add (C.add P Q) R = C.add P (C.add Q R)
  add_comm {P Q : Point F} : M P → M Q → C.add P Q = C.add Q P
  infinity_add {P : Point F} : M P → C.add .infinity P = P
  neg_add {P : Point F} : M P → C.add P.neg P = .infinity
  one_multiple {P : Point F} : M P → C.multiple (1 : Residue r).val P = P
  multiple_add (k : Residue r) {P Q : Point F} : M P → M Q →
    C.multiple k.val (C.add P Q) = C.add (C.multiple k.val P) (C.multiple k.val Q)
  add_multiple (a b : Residue r) {P : Point F} : M P →
    C.multiple (a + b).val P = C.add (C.multiple a.val P) (C.multiple b.val P)
  mul_multiple (a b : Residue r) {P : Point F} : M P →
    C.multiple (a * b).val P = C.multiple a.val (C.multiple b.val P)

theorem moduleLaws_of_valid {r : Nat} [Modulus r] (order_eq : C.order = r) {M : Point F → Prop}
    (valid : ∀ P, M P → C.Valid P) : C.ModuleLaws r M := by
  let module := Members.moduleOfOrder order_eq
  let member {P : Point F} (holds : M P) : C.Members := ⟨P, valid P holds⟩
  constructor
  · intro P Q R left middle right
    exact congrArg Subtype.val (add_assoc (member left) (member middle) (member right))
  · intro P Q left right
    exact congrArg Subtype.val (add_comm (member left) (member right))
  · intro P holds
    exact congrArg Subtype.val (zero_add (member holds))
  · intro P holds
    exact congrArg Subtype.val (neg_add_cancel (member holds))
  · intro P holds
    exact congrArg Subtype.val (one_smul (Residue r) (member holds))
  · intro k P Q left right
    exact congrArg Subtype.val (smul_add k (member left) (member right))
  · intro a b P holds
    exact congrArg Subtype.val (add_smul a b (member holds))
  · intro a b P holds
    exact congrArg Subtype.val (mul_smul a b (member holds))

end PairingWire.Curve
