import PairingWire.Element.Group
import PairingWire.Proofs.Curve.Scalars
import PairingWire.Proofs.Pairing
import PairingWire.Proofs.Soundness

/-!
Sessions: elements are obtained one after the other, from constants, coordinates and encodings, and by
the operations of the groups from elements that are held already. Every element that a session holds is
a member of its group, whatever steps it takes.
-/

namespace PairingWire

variable {e : Engine}

def Element.rescale : Element e → Element e
  | g1 P => g1 (Jacobian.ofPoint P).toPoint
  | g2 P => g2 (Jacobian.ofPoint P).toPoint
  | x => x

namespace Session

inductive Source (e : Engine)
  | scalar (k : Fr e)
  | identity (t : ElementType)
  | generator (t : ElementType)
  | coordinates1 (x y : Fq e)
  | coordinates2 (x y : Fq2 e)
  | native (t : ElementType) (bs : Bytes)
  | bare (f : Format) (t : ElementType) (bs : Bytes)
  | framed (t : ElementType) (bs : Bytes)

/-- A step obtains one element. Operands are named by their places among the elements held. -/
inductive Step (e : Engine)
  | make (s : Source e)
  | add (i j : Nat)
  | sub (i j : Nat)
  | double (i : Nat)
  | neg (i : Nat)
  | scale (k : Fr e) (i : Nat)
  | rescale (i : Nat)
  | pair (i j : Nat)
  | multiPair (is js : List Nat)

def Source.element? : Source e → Option (Element e)
  | .scalar k => some (.zp k)
  | .identity t => some (.identity t)
  | .generator t => some (.generator t)
  | .coordinates1 x y => (e.g1.ofCoordinates x y).toOption.map .g1
  | .coordinates2 x y => (e.g2.ofCoordinates x y).toOption.map .g2
  | .native t bs => Element.ofNative e bs t
  | .bare f t bs => (Element.decodeBare e f t bs).toOption
  | .framed t bs => (Element.decode e true t bs).toOption

def Step.result (held : List (Element e)) : Step e → Option (Element e)
  | .make s => s.element?
  | .add i j => do (← held[i]?).add (← held[j]?)
  | .sub i j => do (← (← held[i]?).sub (← held[j]?)).toOption
  | .double i => do return (← held[i]?).double
  | .neg i => do (← held[i]?).neg.toOption
  | .scale k i => do return (← held[i]?).scale k
  | .rescale i => do return (← held[i]?).rescale
  | .pair i j => do
    let P ← (← held[i]?).g1?
    let Q ← (← held[j]?).g2?
    return .gt (pairing P Q)
  | .multiPair is js => do
    let Ps ← is.mapM fun i => do (← held[i]?).g1?
    let Qs ← js.mapM fun j => do (← held[j]?).g2?
    let x ← (multiPairing Ps Qs).toOption
    return .gt x

/-- A step that fails leaves the session as it is. -/
def Step.run (held : List (Element e)) (s : Step e) : List (Element e) :=
  held ++ (s.result held).toList

def run (steps : List (Step e)) : List (Element e) := steps.foldl Step.run []

end Session

namespace Element

variable {x y : Element e}

theorem valid_identity (t : ElementType) : (identity t : Element e).Valid := by
  cases t with
  | zp => trivial
  | g1 => exact e.g1.valid_infinity
  | g2 => exact e.g2.valid_infinity
  | gt => exact Fq12.one_inSubgroup

theorem valid_generator (t : ElementType) : (generator t : Element e).Valid := by
  cases t with
  | zp => trivial
  | g1 => exact e.valid_g1_generator
  | g2 => exact e.valid_g2_generator
  | gt => exact targetGenerator_inSubgroup e

theorem valid_ofNative {t : ElementType} {bs : Bytes} (found : ofNative e bs t = some x) :
    x.Valid := by
  cases t <;> obtain ⟨v, read, rfl⟩ := Option.map_eq_some_iff.1 found
  · trivial
  · exact Layout.Native.valid_of_decodePoint (toOption_eq_some_iff.1 read)
  · exact Layout.Native.valid_of_decodePoint (toOption_eq_some_iff.1 read)
  · exact (Layout.Native.decodeTarget_eq_ok_iff.1 (toOption_eq_some_iff.1 read)).1

theorem valid_add (left : x.Valid) (right : y.Valid) {z : Element e} (found : x.add y = some z) :
    z.Valid := by
  cases x <;> cases y <;> cases found
  · trivial
  · exact Curve.Valid.add left right
  · exact Curve.Valid.add left right
  · exact Fq12.InSubgroup.mul left right

theorem valid_sub (left : x.Valid) (right : y.Valid) {r : Except ArithmeticError (Element e)}
    {z : Element e} (found : x.sub y = some r) (read : r = .ok z) : z.Valid := by
  cases x <;> cases y <;> cases found
  · cases read
    trivial
  · cases read
    exact Curve.Valid.sub left right
  · cases read
    exact Curve.Valid.sub left right
  · rw [Fq12.InSubgroup.div right] at read
    cases read
    exact Fq12.InSubgroup.mul left right.inv

theorem valid_double (valid : x.Valid) : x.double.Valid := by
  cases x with
  | zp a => trivial
  | g1 P => exact Curve.Valid.double valid
  | g2 P => exact Curve.Valid.double valid
  | gt x => exact Fq12.InSubgroup.mul valid valid

theorem valid_neg (valid : x.Valid) {z : Element e} (found : x.neg = .ok z) : z.Valid := by
  cases x with
  | zp a =>
      cases found
      trivial
  | g1 P =>
      cases found
      exact Curve.Valid.neg valid
  | g2 P =>
      cases found
      exact Curve.Valid.neg valid
  | gt x =>
      rw [neg, Fq12.InSubgroup.inverse valid] at found
      cases found
      exact Fq12.InSubgroup.inv valid

theorem valid_scale (valid : x.Valid) (k : Fr e) : (x.scale k).Valid := by
  cases x with
  | zp a => trivial
  | g1 P => exact Curve.Valid.multiple valid k.val
  | g2 P => exact Curve.Valid.multiple valid k.val
  | gt x => exact Fq12.InSubgroup.exp valid k

theorem rescale_eq (x : Element e) : x.rescale = x := by
  cases x <;> simp only [rescale, Jacobian.toPoint_ofPoint]

theorem g1?_eq_some_iff {P : Point (Fq e)} : x.g1? = some P ↔ x = g1 P := by
  cases x <;> simp [g1?]

end Element

namespace Session

variable {held : List (Element e)} {x : Element e}

theorem Source.valid {s : Source e} (found : s.element? = some x) : x.Valid := by
  cases s with
  | scalar k =>
      cases found
      trivial
  | identity t =>
      cases found
      exact Element.valid_identity t
  | generator t =>
      cases found
      exact Element.valid_generator t
  | coordinates1 x y =>
      obtain ⟨P, read, rfl⟩ := Option.map_eq_some_iff.1 found
      obtain ⟨rfl, valid⟩ := Curve.check_eq_ok_iff.1 (toOption_eq_some_iff.1 read)
      exact valid
  | coordinates2 x y =>
      obtain ⟨P, read, rfl⟩ := Option.map_eq_some_iff.1 found
      obtain ⟨rfl, valid⟩ := Curve.check_eq_ok_iff.1 (toOption_eq_some_iff.1 read)
      exact valid
  | native t bs => exact Element.valid_ofNative found
  | bare f t bs =>
      have read := Element.isMember_of_decodeBare (toOption_eq_some_iff.1 found)
      exact Element.isMember_iff.1 read.2
  | framed t bs =>
      have read := Element.isMember_of_decode (toOption_eq_some_iff.1 found)
      exact Element.isMember_iff.1 read.2

/-- What one step preserves: from members it obtains a member. -/
theorem Step.valid {s : Step e} (members : ∀ y ∈ held, y.Valid) (found : s.result held = some x) :
    x.Valid := by
  have member {i : Nat} {y : Element e} (place : held[i]? = some y) : y.Valid :=
    members y (List.mem_of_getElem? place)
  cases s with
  | make s => exact s.valid found
  | add i j =>
      obtain ⟨y, first, found⟩ := Option.bind_eq_some_iff.1 found
      obtain ⟨z, second, sum⟩ := Option.bind_eq_some_iff.1 found
      exact Element.valid_add (member first) (member second) sum
  | sub i j =>
      obtain ⟨y, first, found⟩ := Option.bind_eq_some_iff.1 found
      obtain ⟨z, second, found⟩ := Option.bind_eq_some_iff.1 found
      obtain ⟨r, difference, read⟩ := Option.bind_eq_some_iff.1 found
      exact Element.valid_sub (member first) (member second) difference
        (toOption_eq_some_iff.1 read)
  | double i =>
      obtain ⟨y, place, same⟩ := Option.bind_eq_some_iff.1 found
      cases same
      exact Element.valid_double (member place)
  | neg i =>
      obtain ⟨y, place, read⟩ := Option.bind_eq_some_iff.1 found
      exact Element.valid_neg (member place) (toOption_eq_some_iff.1 read)
  | scale k i =>
      obtain ⟨y, place, same⟩ := Option.bind_eq_some_iff.1 found
      cases same
      exact Element.valid_scale (member place) k
  | rescale i =>
      obtain ⟨y, place, same⟩ := Option.bind_eq_some_iff.1 found
      cases same
      rw [Element.rescale_eq]
      exact member place
  | pair i j =>
      obtain ⟨y, first, found⟩ := Option.bind_eq_some_iff.1 found
      obtain ⟨P, point, found⟩ := Option.bind_eq_some_iff.1 found
      obtain ⟨z, second, found⟩ := Option.bind_eq_some_iff.1 found
      obtain ⟨Q, _, same⟩ := Option.bind_eq_some_iff.1 found
      cases same
      cases Element.g1?_eq_some_iff.1 point
      -- Nothing is asked of the second point.
      exact pairing_inSubgroup (member first) Q
  | multiPair is js =>
      obtain ⟨Ps, points, found⟩ := Option.bind_eq_some_iff.1 found
      obtain ⟨Qs, _, found⟩ := Option.bind_eq_some_iff.1 found
      obtain ⟨x, read, same⟩ := Option.bind_eq_some_iff.1 found
      cases same
      refine multiPairing_inSubgroup ?_ (toOption_eq_some_iff.1 read)
      intro P place
      obtain ⟨i, _, found⟩ := exists_of_mapM_eq_some points P place
      obtain ⟨y, first, point⟩ := Option.bind_eq_some_iff.1 found
      cases Element.g1?_eq_some_iff.1 point
      exact member first

theorem Step.run_valid (s : Step e) (members : ∀ y ∈ held, y.Valid) : ∀ y ∈ s.run held, y.Valid := by
  intro y place
  rcases List.mem_append.1 place with before | now
  · exact members y before
  · exact s.valid members (Option.mem_toList.1 now)

theorem foldl_run_valid (steps : List (Step e)) (members : ∀ y ∈ held, y.Valid) :
    ∀ y ∈ steps.foldl Step.run held, y.Valid := by
  induction steps generalizing held with
  | nil => exact members
  | cons s steps ih => exact ih (s.run_valid members)

/-- What a whole session preserves: everything that it holds is a member of its group. -/
theorem run_valid (steps : List (Step e)) : ∀ x ∈ run steps, x.Valid :=
  foldl_run_valid steps fun _ impossible => nomatch impossible

end Session

end PairingWire
