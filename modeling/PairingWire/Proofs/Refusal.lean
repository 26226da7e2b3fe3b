import PairingWire.Proofs.Codec

/-!
What cannot be written. There is one reason for it, that the format has no encoding of the element in
the form that is asked for, and every refusal names the format and the type of the element.
-/

namespace PairingWire

namespace Format

theorem compression_error {f : Format} (named : f ≠ .auto) (t : ElementType)
    (requested : Option Bool) : FailsWith (· = .unsupported f t) (f.compression t requested) := by
  unfold compression
  split
  · exact .ok _
  · exact .ok _
  · exact .ite (fun _ => .error rfl) fun _ => .ok _
  · exact .ite (fun _ => .error rfl) fun _ => .ok _
  · exact absurd rfl named
  · exact .ok _

end Format

namespace Layout

section Point

variable {F : Type} {p : Nat} [CoordinateField F p]

theorem Ethereum.encodePoint_error (compress : Bool) (P : Point F) :
    FailsWith (· = .unsupported .ethereum (pointType F)) (Ethereum.encodePoint compress P) := by
  refine .ite (fun _ => .error rfl) fun _ => ?_
  cases P with
  | infinity => exact .ok _
  | affine x y => exact .ok _

variable [Modulus p]

theorem Sec1.encodePoint_error (compress : Bool) (P : Point F) :
    FailsWith (· = .unsupported .sec1 (pointType F)) (Sec1.encodePoint compress P) := by
  cases P with
  | infinity => exact .ok _
  | affine x y =>
      refine .ite (fun _ => ?_) fun _ => .ok _
      exact .ite (fun _ => .error rfl) fun _ => .ok _

/-- An abscissa that reaches the flag bits is refused. -/
theorem FlagBits.encodePoint_error (f : Format) (compress : Bool) (P : Point F) :
    FailsWith (· = .unsupported f (pointType F)) (FlagBits.encodePoint f compress P) := by
  cases P with
  | infinity => exact .ok _
  | affine x y =>
      refine .ite (fun _ => .error rfl) fun _ => ?_
      exact .ite (fun _ => .ok _) fun _ => .ok _

theorem encodePoint_error {e : Engine} {f : Format} (named : f ≠ .auto) (compress : Bool)
    (P : Point F) : FailsWith (· = .unsupported f (pointType F)) (encodePoint e f compress P) := by
  cases f with
  | legacy => exact .ok _
  | sec1 => exact Sec1.encodePoint_error compress P
  | zcash => exact FlagBits.encodePoint_error .zcash compress P
  | ethereum => exact Ethereum.encodePoint_error compress P
  | ietf => exact FlagBits.encodePoint_error .ietf compress P
  | auto => exact absurd rfl named

end Point

theorem encodeTarget_error {e : Engine} {f : Format} (named : f ≠ .auto) (compress : Bool)
    (x : Fq12 e) : FailsWith (· = .unsupported f .gt) (encodeTarget f compress x) := by
  cases f with
  | legacy | ietf => exact .ok _
  | sec1 | zcash | ethereum => exact .error rfl
  | auto => exact absurd rfl named

end Layout

namespace Element

variable {e : Engine}

theorem encodePayload_error {f : Format} (named : f ≠ .auto) (compress : Bool) (x : Element e) :
    FailsWith (· = .unsupported f x.type) (x.encodePayload f compress) := by
  cases x with
  | zp s => exact .ok _
  | g1 P => exact Layout.encodePoint_error named compress P
  | g2 Q => exact Layout.encodePoint_error named compress Q
  | gt y => exact Layout.encodeTarget_error named compress y

theorem encode_error (s : Settings) (x : Element e) :
    FailsWith (· = .unsupported (s.format.resolve e.curveId x.type) x.type) (x.encode s) := by
  have named := s.format.resolve_ne_auto e.curveId x.type
  unfold encode
  generalize s.format.resolve e.curveId x.type = f at named
  refine .ite (fun _ => .error rfl) fun _ => ?_
  refine .bind (Format.compression_error named x.type s.compress) fun compress _ => ?_
  refine .bind (encodePayload_error named compress x) fun encoded _ => ?_
  exact .ite (fun _ => .ok _) fun _ => .ok _

end Element

end PairingWire
