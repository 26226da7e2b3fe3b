import PairingWire.Proofs.Expressible
import PairingWire.Proofs.Session

/-!
What holds of the elements that sessions obtain. All points lie on their curve and in its subgroup, and
so the scalars act on them as on a module. All target elements are members of the target group, so that
inverses and quotients are found, scalars act by the laws of exponents, and every encoding is read back.
-/

namespace PairingWire

variable {e : Engine} {s : Settings} {x : Fq12 e}

theorem Settings.not_refused_gt (suited : s.format = .ietf ∨ s.format = .legacy) :
    ¬s.Refused e.curveId .gt := by
  rcases suited with ietf | legacy
  · simp [Settings.Refused, ietf, Format.resolve, Format.supports, Format.LacksForm]
  · simp [Settings.Refused, legacy, Format.resolve, Format.supports, Format.LacksForm]

def Fq12.ReadBack (x : Fq12 e) : Prop :=
  ∀ s : Settings, s.format = .ietf ∨ s.format = .legacy →
    ∃ bs, (Element.gt x).encode s = .ok bs ∧
      (s.withHeader = true → Element.decode e true .gt bs = .ok (.gt x)) ∧
      (s.withHeader = false → Element.decodeBare e s.format .gt bs = .ok (.gt x))

theorem Fq12.InSubgroup.readBack (member : x.InSubgroup) : x.ReadBack := by
  intro s suited
  have isMember : (Element.gt x).IsMember := Element.isMember_iff.2 member
  obtain ⟨bs, written⟩ :=
    (Element.exists_encode_iff (x := .gt x)).2 (Settings.not_refused_gt suited)
  refine ⟨bs, written, ?_, ?_⟩
  · intro framed
    exact Element.decodeFramed_of_encode isMember framed written
  · intro bare
    exact Element.decodeBare_of_encode isMember bare written

namespace Session

variable {steps : List (Step e)}

theorem valid_g1_of_run {P : Point (Fq e)} (held : .g1 P ∈ run steps) : e.g1.Valid P :=
  run_valid steps _ held

theorem valid_g2_of_run {Q : Point (Fq2 e)} (held : .g2 Q ∈ run steps) : e.g2.Valid Q :=
  run_valid steps _ held

theorem inSubgroup_of_run (held : .gt x ∈ run steps) : x.InSubgroup := run_valid steps _ held

/-- Whatever steps are taken, the points obtained pass both tests and obey the laws of a module. -/
theorem points_of_run (e : Engine) (steps : List (Step e)) :
    (∀ P, .g1 P ∈ run steps → e.g1.OnCurve P ∧ e.g1.InSubgroup P) ∧
    (∀ Q, .g2 Q ∈ run steps → e.g2.OnCurve Q ∧ e.g2.InSubgroup Q) ∧
    e.g1.ModuleLaws e.groupOrder (fun P => .g1 P ∈ run steps) ∧
    e.g2.ModuleLaws e.groupOrder (fun Q => .g2 Q ∈ run steps) := by
  refine ⟨?_, ?_, ?_, ?_⟩
  · intro P held
    exact valid_g1_of_run held
  · intro Q held
    exact valid_g2_of_run held
  · exact Curve.moduleLaws_of_valid e.g1_order fun P held => valid_g1_of_run held
  · exact Curve.moduleLaws_of_valid e.g2_order fun Q held => valid_g2_of_run held

theorem points_of_doubled_generator :
    run [.make (.generator .g1), .double 0] =
        [.g1 Engine.bn254.g1.generator, .g1 (Engine.bn254.g1.double Engine.bn254.g1.generator)] ∧
      Engine.bn254.g1.OnCurve (Engine.bn254.g1.double Engine.bn254.g1.generator) ∧
      Engine.bn254.g1.InSubgroup (Engine.bn254.g1.double Engine.bn254.g1.generator) ∧
      Engine.bn254.g1.multiple (-1 + Residue.ofNat _ 2 : Fr .bn254).val
          Engine.bn254.g1.generator =
        Engine.bn254.g1.add
          (Engine.bn254.g1.multiple (-1 : Fr .bn254).val Engine.bn254.g1.generator)
          (Engine.bn254.g1.multiple (Residue.ofNat _ 2 : Fr .bn254).val
            Engine.bn254.g1.generator) := by
  have held : run [.make (.generator .g1), .double 0] =
      [.g1 Engine.bn254.g1.generator,
        .g1 (Engine.bn254.g1.double Engine.bn254.g1.generator)] := rfl
  obtain ⟨passed, _, laws, _⟩ := points_of_run .bn254 [.make (.generator .g1), .double 0]
  rw [held] at passed laws
  obtain ⟨on_curve, in_subgroup⟩ := passed _ (List.mem_cons_of_mem _ List.mem_cons_self)
  exact ⟨held, on_curve, in_subgroup,
    laws.add_multiple (-1) (Residue.ofNat _ 2) List.mem_cons_self⟩

/--
Whatever steps are taken, the target elements obtained are members: their order divides the group order,
inverses and quotients are found, scalars act on them as exponents, and each form of each format is
written and read back. Pairings of members, of one pair or of many, are such elements; a pairing is the
final power of a Miller value, which does not vanish.
-/
theorem targets_of_run (e : Engine) (steps : List (Step e)) :
    (∀ x, .gt x ∈ run steps →
      x.InSubgroup ∧ x ^ e.groupOrder = 1 ∧
      (∃ y, x.inverse = .ok y ∧ x * y = 1) ∧
      (∀ y, .gt y ∈ run steps → ∃ z, y.div x = .ok z ∧ z * x = y) ∧
      x.ReadBack) ∧
    Fq12.ExponentLaws e (fun x => .gt x ∈ run steps) ∧
    (∀ P Q, e.g1.Valid P → e.g2.Valid Q →
      Pairing.millerValue P Q ≠ 0 ∧
      pairing P Q = Pairing.millerValue P Q ^ Pairing.finalExponent e ∧
      (pairing P Q).InSubgroup ∧ (pairing P Q).ReadBack) ∧
    (∀ Ps Qs, (∀ P ∈ Ps, e.g1.Valid P) → (∀ Q ∈ Qs, e.g2.Valid Q) → Ps.length = Qs.length →
      ∃ x, multiPairing Ps Qs = .ok x ∧ x.InSubgroup ∧ x.ReadBack) := by
  refine ⟨?_, ?_, ?_, ?_⟩
  · intro x held
    have member := inSubgroup_of_run held
    refine ⟨member, member.pow_order, ?_, ?_, member.readBack⟩
    · exact ⟨x⁻¹, member.inverse, Fq12.mul_inv_of_ne_zero member.ne_zero⟩
    · intro y _
      refine ⟨y * x⁻¹, member.div y, ?_⟩
      rw [mul_assoc, mul_comm x⁻¹, Fq12.mul_inv_of_ne_zero member.ne_zero, mul_one]
  · exact Fq12.exponentLaws_of_inSubgroup fun x held => inSubgroup_of_run held
  · intro P Q valid _
    have member := pairing_inSubgroup valid Q
    exact ⟨Pairing.millerValue_ne_zero valid Q, power_eq_pow _ _, member, member.readBack⟩
  · intro Ps Qs valid _ same_length
    have found : multiPairing Ps Qs = .ok
        (Pairing.finalPower ((List.zipWith Pairing.millerValue Ps Qs).foldl (· * ·) 1)) :=
      if_pos same_length
    have member := multiPairing_inSubgroup valid found
    exact ⟨_, found, member, member.readBack⟩

theorem targets_of_paired_generators :
    run [.make (.generator .g1), .make (.generator .g2), .pair 0 1] =
        [.g1 Engine.bls12P381.g1.generator, .g2 Engine.bls12P381.g2.generator,
          .gt bls12P381TargetGenerator] ∧
      bls12P381TargetGenerator.InSubgroup ∧
      (∃ y, bls12P381TargetGenerator.inverse = .ok y) ∧
      bls12P381TargetGenerator.exp 1 = bls12P381TargetGenerator ∧
      bls12P381TargetGenerator.exp (Residue.ofNat _ 2) =
        bls12P381TargetGenerator * bls12P381TargetGenerator ∧
      bls12P381TargetGenerator.exp (-1 + Residue.ofNat _ 2) =
        bls12P381TargetGenerator.exp (-1) * bls12P381TargetGenerator.exp (Residue.ofNat _ 2) ∧
      (∃ bs, (Element.gt bls12P381TargetGenerator).encode ⟨.ietf, some true, true⟩ = .ok bs) ∧
      (pairing Engine.bls12P381.g1.generator .infinity).InSubgroup := by
  have held : run [.make (.generator .g1), .make (.generator .g2), .pair 0 1] =
      [.g1 Engine.bls12P381.g1.generator, .g2 Engine.bls12P381.g2.generator,
        .gt bls12P381TargetGenerator] := rfl
  have last : .gt bls12P381TargetGenerator ∈
      run [.make (.generator .g1), .make (.generator .g2), .pair 0 1] := by
    rw [held]
    exact List.mem_cons_of_mem _ (List.mem_cons_of_mem _ List.mem_cons_self)
  obtain ⟨obtained, laws, paired, _⟩ :=
    targets_of_run .bls12P381 [.make (.generator .g1), .make (.generator .g2), .pair 0 1]
  obtain ⟨member, _, ⟨y, inverse, _⟩, _, written⟩ := obtained _ last
  obtain ⟨bs, encoded, _⟩ := written ⟨.ietf, some true, true⟩ (.inl rfl)
  have two : (Residue.ofNat _ 2 : Fr .bls12P381).val = 2 := by decide
  have squared := laws.exp_eq_pow (Residue.ofNat _ 2) last
  rw [two, pow_two] at squared
  obtain ⟨_, _, atInfinity, _⟩ :=
    paired _ .infinity Engine.bls12P381.valid_g1_generator (Curve.valid_infinity _)
  exact ⟨held, member, ⟨y, inverse⟩, laws.exp_one last, squared,
    laws.exp_add (-1) (Residue.ofNat _ 2) last, ⟨bs, encoded⟩, atInfinity⟩

end Session

end PairingWire
