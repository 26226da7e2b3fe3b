import PairingWire.Proofs.Expressible
import PairingWire.Proofs.Interchange
import PairingWire.Proofs.Member

/-!
What settings that pass the check promise. The check answers for the points of the first group, and
exactly so. The second group has the same forms but for one, the compressed SEC 1 string: settings that
ask for it pass the check, and none of its points is written with them.
-/

namespace PairingWire

namespace Format

variable {f : Format} {c : CurveId} {requested : Option Bool}

theorem resolve_g2 : f.resolve c .g2 = f.resolve c .g1 := by cases f <;> rfl

theorem lacksForm_g1_iff : f.LacksForm .g1 requested ↔ f = .ethereum ∧ requested = some true := by
  constructor
  · rintro ⟨_, asked, contracts | ⟨_, impossible⟩⟩
    · exact ⟨contracts, asked⟩
    · cases impossible
  · intro ⟨contracts, asked⟩
    exact ⟨by decide, asked, .inl contracts⟩

theorem lacksForm_g2_iff :
    f.LacksForm .g2 requested ↔ f.LacksForm .g1 requested ∨ f = .sec1 ∧ requested = some true := by
  rw [lacksForm_g1_iff, ← or_and_right]
  constructor
  · intro ⟨_, asked, missing⟩
    exact ⟨missing.imp_right And.left, asked⟩
  · intro ⟨missing, asked⟩
    exact ⟨by decide, asked, missing.imp_right fun extension => ⟨extension, rfl⟩⟩

end Format

namespace Settings

variable {s : Settings} {c : CurveId} {f : Format}

theorem validate_eq_ok_iff :
    s.validate c = .ok f ↔ f = s.format.resolve c .g1 ∧ ¬s.Refused c .g1 := by
  unfold validate Refused
  rw [Format.lacksForm_g1_iff]
  generalize s.format.resolve c .g1 = g
  cases supported : g.supports c .g1 with
  | false => simp [supported]
  | true =>
      by_cases missing : g = .ethereum ∧ s.compress = some true
      · obtain ⟨rfl, asked⟩ := missing
        simp [supported, asked]
      · simp [supported, missing, eq_comm]

theorem refused_g2_iff :
    s.Refused c .g2 ↔
      s.Refused c .g1 ∨ s.format.resolve c .g1 = .sec1 ∧ s.compress = some true := by
  rw [Refused, Refused, Format.resolve_g2, Format.supports_g2, Format.lacksForm_g2_iff, or_assoc]

end Settings

variable {e : Engine}

/-- Only by its name: SEC 1 is the automatic format of no engine's curve. -/
theorem Format.resolve_eq_sec1_iff {f : Format} {t : ElementType} :
    f.resolve e.curveId t = .sec1 ↔ f = .sec1 := by
  cases e <;> cases f <;> cases t <;> decide

namespace Element

variable {s : Settings} {x : Element e}

theorem exists_member (e : Engine) (t : ElementType) : ∃ x : Element e, x.type = t ∧ x.IsMember := by
  cases t with
  | zp => exact ⟨zp 0, rfl, isMember_iff.2 trivial⟩
  | g1 => exact ⟨g1 .infinity, rfl, isMember_iff.2 e.g1.valid_infinity⟩
  | g2 => exact ⟨g2 .infinity, rfl, isMember_iff.2 e.g2.valid_infinity⟩
  | gt => exact ⟨gt 1, rfl, one_ne_zero, one_pow _⟩

theorem forall_exists_encode_iff {t : ElementType} :
    (∀ x : Element e, x.type = t → x.IsMember → ∃ bs, x.encode s = .ok bs) ↔
      ¬s.Refused e.curveId t := by
  constructor
  · intro all
    obtain ⟨x, rfl, member⟩ := exists_member e t
    exact exists_encode_iff.1 (all x rfl member)
  · rintro granted x rfl _
    exact exists_encode_iff.2 granted

theorem forall_point_exists_encode_iff :
    (∀ x : Element e, x.IsPoint → x.IsMember → ∃ bs, x.encode s = .ok bs) ↔
      ¬s.Refused e.curveId .g1 ∧ ¬s.Refused e.curveId .g2 := by
  rw [← forall_exists_encode_iff, ← forall_exists_encode_iff]
  constructor
  · intro all
    exact ⟨fun x first => all x (.inl first), fun x second => all x (.inr second)⟩
  · rintro ⟨firsts, seconds⟩ x (first | second) member
    · exact firsts x first member
    · exact seconds x second member

theorem resolve_of_isPoint (point : x.IsPoint) (f : Format) (c : CurveId) :
    f.resolve c x.type = f.resolve c .g1 := by
  rcases point with first | second
  · rw [first]
  · rw [second, Format.resolve_g2]

end Element

open Element

/--
The check names the format that the points of an engine are framed with, and grants exactly the settings
with which every member of the first group is written. That is so for both groups, unless compressed
SEC 1 strings are asked for: those are granted, and refused for every point of the second group.
-/
theorem Settings.validate_predicts_points (e : Engine) (s : Settings) :
    (∀ f, s.validate e.curveId = .ok f ↔ f = s.format.resolve e.curveId .g1 ∧
      ∀ x : Element e, x.type = .g1 → x.IsMember → ∃ bs, x.encode s = .ok bs) ∧
    (∀ f, s.validate e.curveId = .ok f → ∀ x : Element e, x.IsPoint → s.withHeader = true →
      ∀ bs, x.encode s = .ok bs → bs[7]? = some f.toByte) ∧
    (¬(s.format = .sec1 ∧ s.compress = some true) → ∀ f,
      s.validate e.curveId = .ok f ↔ f = s.format.resolve e.curveId .g1 ∧
        ∀ x : Element e, x.IsPoint → x.IsMember → ∃ bs, x.encode s = .ok bs) ∧
    (s.format = .sec1 ∧ s.compress = some true →
      s.validate e.curveId = .ok .sec1 ∧
        ∀ x : Element e, x.type = .g2 → x.encode s = .error (.unsupported .sec1 .g2)) := by
  refine ⟨?_, ?_, ?_, ?_⟩
  · intro f
    rw [validate_eq_ok_iff, forall_exists_encode_iff]
  · intro f granted x point framed bs written
    obtain ⟨rfl, _⟩ := validate_eq_ok_iff.1 granted
    rw [format_octet_of_encode framed written, resolve_of_isPoint point]
  · intro other f
    have same : s.Refused e.curveId .g2 ↔ s.Refused e.curveId .g1 := by
      rw [refused_g2_iff, Format.resolve_eq_sec1_iff]
      exact or_iff_left other
    rw [validate_eq_ok_iff, forall_point_exists_encode_iff, same, and_self]
  · rintro ⟨sec1, asked⟩
    have resolved (t : ElementType) : s.format.resolve e.curveId t = .sec1 :=
      Format.resolve_eq_sec1_iff.2 sec1
    constructor
    · rw [validate_eq_ok_iff, Refused, resolved, Format.lacksForm_g1_iff]
      simp [Format.supports]
    · intro x second
      have refused : s.Refused e.curveId x.type := by
        rw [second, refused_g2_iff]
        exact .inr ⟨resolved .g1, asked⟩
      obtain ⟨err, failed⟩ := exists_error_encode_iff.2 refused
      rw [failed, encode_error s x failed, resolved, second]

theorem Settings.validate_predicts_generator :
    Settings.validate {} .bnP254 = .ok .ethereum ∧
    (∃ bs, (g2 Engine.bn254.g2.generator : Element .bn254).encode {} = .ok bs ∧
      bs[7]? = some Format.ethereum.toByte) ∧
    Settings.validate ⟨.sec1, some true, false⟩ .bnP254 = .ok .sec1 ∧
    (g2 .infinity : Element .bn254).encode ⟨.sec1, some true, false⟩ =
      .error (.unsupported .sec1 .g2) := by
  have granted : Settings.validate {} .bnP254 = .ok .ethereum := rfl
  have member : (g2 Engine.bn254.g2.generator : Element .bn254).IsMember :=
    isMember_iff.2 Engine.bn254.valid_g2_generator
  obtain ⟨_, octet, exact_for, _⟩ := validate_predicts_points .bn254 {}
  obtain ⟨bs, written⟩ := ((exact_for (by decide) .ethereum).1 granted).2 _ (.inr rfl) member
  have refused := (validate_predicts_points .bn254 ⟨.sec1, some true, false⟩).2.2.2 ⟨rfl, rfl⟩
  exact ⟨granted, ⟨bs, written, octet _ granted _ (.inr rfl) rfl bs written⟩, refused.1,
    refused.2 (g2 .infinity) rfl⟩

/-- Settings that pass the check, and a generator that is not written with them. -/
theorem Settings.validate_misses_second_group :
    Settings.validate ⟨.sec1, some true, true⟩ .bnP254 = .ok .sec1 ∧
    (g2 Engine.bn254.g2.generator : Element .bn254).IsMember ∧
    (g2 Engine.bn254.g2.generator : Element .bn254).encode ⟨.sec1, some true, true⟩ =
      .error (.unsupported .sec1 .g2) :=
  ⟨rfl, isMember_iff.2 Engine.bn254.valid_g2_generator, rfl⟩

end PairingWire
