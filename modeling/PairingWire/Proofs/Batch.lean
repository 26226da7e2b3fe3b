import PairingWire.Proofs.Soundness

/-!
Batches. A batch gives the results for its items in their order, and fails exactly if one of its items
does. What a batch of members is written as is read back under the type of all of them, and under no other.
-/

namespace PairingWire

section ItemWise

variable {ε α β : Type}

/-- A batch gives the results for its items in order, or the failure of an item, whichever it may be. -/
structure ItemWise (item : α → Except ε β) (batch : List α → Except ε (List β)) : Prop where
  eq_ok_iff (xs : List α) (ys : List β) :
    batch xs = .ok ys ↔ List.Forall₂ (fun x y => item x = .ok y) xs ys
  exists_ok_iff (xs : List α) : (∃ ys, batch xs = .ok ys) ↔ ∀ x ∈ xs, ∃ y, item x = .ok y
  exists_of_error {xs : List α} {err : ε} : batch xs = .error err → ∃ x ∈ xs, item x = .error err

theorem itemWise_mapM (item : α → Except ε β) : ItemWise item fun xs => xs.mapM item where
  eq_ok_iff _ _ := mapM_eq_ok_iff
  exists_ok_iff _ := exists_mapM_ok_iff
  exists_of_error {xs _} failed := by
    have failures : FailsWith (fun err => ∃ x ∈ xs, item x = .error err) (xs.mapM item) :=
      .mapM fun x member err refused => ⟨x, member, refused⟩
    exact failures failed

end ItemWise

namespace Element

variable {e : Engine} {s : Settings} {t : ElementType} {x : Element e} {bs : Bytes}
  {xs : List (Element e)} {items : List Bytes}

theorem decode_of_encode (framed : s.withHeader = true) (member : x.IsMember)
    (written : x.encode s = .ok bs) :
    decode e true t bs = if x.type = t then .ok x else .error (.invalidEncoding .unexpectedType) := by
  have read := decodeFramed_of_encode member framed written
  by_cases same : x.type = t
  · rw [if_pos same, ← same]
    exact read
  · rw [if_neg same]
    exact decodeFramed_of_other_type read (Ne.symm same)

theorem forall₂_decode (framed : s.withHeader = true) (members : ∀ x ∈ xs, x.IsMember)
    (written : List.Forall₂ (fun x bs => x.encode s = .ok bs) xs items)
    (typed : ∀ x ∈ xs, x.type = t) :
    List.Forall₂ (fun bs x => decode e true t bs = .ok x) items xs := by
  induction written with
  | nil => exact .nil
  | cons first _ ih =>
      rw [List.forall_mem_cons] at members typed
      refine .cons ?_ (ih members.2 typed.2)
      rw [decode_of_encode framed members.1 first, if_pos typed.1]

section ReadBack

variable {readAll : List Bytes → Except CodecError (List (Element e))}

theorem readAll_eq_ok_iff (reads : ItemWise (decode e true t) readAll)
    (framed : s.withHeader = true) (members : ∀ x ∈ xs, x.IsMember)
    (written : List.Forall₂ (fun x bs => x.encode s = .ok bs) xs items) :
    readAll items = .ok xs ↔ ∀ x ∈ xs, x.type = t := by
  rw [reads.eq_ok_iff]
  constructor
  · intro read x member
    obtain ⟨bs, _, decoded⟩ := exists_left_of_forall₂ read x member
    exact (isMember_of_decode decoded).1
  · intro typed
    exact forall₂_decode framed members written typed

theorem readAll_of_other_type (reads : ItemWise (decode e true t) readAll)
    (framed : s.withHeader = true) (members : ∀ x ∈ xs, x.IsMember)
    (written : List.Forall₂ (fun x bs => x.encode s = .ok bs) xs items)
    (mixed : ∃ x ∈ xs, x.type ≠ t) :
    readAll items = .error (.invalidEncoding .unexpectedType) := by
  cases outcome : readAll items with
  | ok ys =>
      obtain ⟨x, member, other⟩ := mixed
      obtain ⟨bs, place, encoded⟩ := exists_right_of_forall₂ written x member
      obtain ⟨y, decoded⟩ := (reads.exists_ok_iff items).1 ⟨ys, outcome⟩ bs place
      rw [decode_of_encode framed (members x member) encoded, if_neg other] at decoded
      cases decoded
  | error err =>
      obtain ⟨bs, place, refused⟩ := reads.exists_of_error outcome
      obtain ⟨x, member, encoded⟩ := exists_left_of_forall₂ written bs place
      rw [decode_of_encode framed (members x member) encoded] at refused
      split at refused
      · cases refused
      · cases refused
        rfl

end ReadBack

/--
Writing and reading batches goes item by item. Frames that are written for members, mixed or not, are read
back in their order under a type exactly if all members are of this type, and refused under another one.
-/
theorem batches_item_by_item (e : Engine) :
    (∀ s : Settings, ItemWise (encode (e := e) s) (encodeBatch s)) ∧
    (∀ (framed : Bool) (t : ElementType),
      ItemWise (decode e framed t) (decodeBatch e framed t)) ∧
    (∀ (s : Settings) (t : ElementType) (xs : List (Element e)) (items : List Bytes),
      s.withHeader = true → (∀ x ∈ xs, x.IsMember) → encodeBatch s xs = .ok items →
      (decodeBatch e true t items = .ok xs ↔ ∀ x ∈ xs, x.type = t) ∧
      ((∃ x ∈ xs, x.type ≠ t) →
        decodeBatch e true t items = .error (.invalidEncoding .unexpectedType))) := by
  refine ⟨fun s => itemWise_mapM _, fun framed t => itemWise_mapM _, ?_⟩
  intro s t xs items framed members written
  have each := ((itemWise_mapM (encode s)).eq_ok_iff xs items).1 written
  have reads : ItemWise (decode e true t) (decodeBatch e true t) := itemWise_mapM _
  constructor
  · exact readAll_eq_ok_iff reads framed members each
  · exact readAll_of_other_type reads framed members each

theorem infinities_item_by_item :
    encodeBatch ⟨.sec1, none, true⟩ [(g1 .infinity : Element .bn254), g2 .infinity] =
        .ok [[0x4F, 0x41, 0x42, 0x45, 2, 0xB2, 0x6F, 1, 0x40, 0],
          [0x4F, 0x41, 0x42, 0x45, 2, 0xB3, 0x6F, 1, 0x40, 0]] ∧
      (∀ t, decodeBatch .bn254 true t [[0x4F, 0x41, 0x42, 0x45, 2, 0xB2, 0x6F, 1, 0x40, 0],
          [0x4F, 0x41, 0x42, 0x45, 2, 0xB3, 0x6F, 1, 0x40, 0]] =
        .error (.invalidEncoding .unexpectedType)) ∧
      decodeBatch .bn254 true .g1 [[0x4F, 0x41, 0x42, 0x45, 2, 0xB2, 0x6F, 1, 0x40, 0],
          [0x4F, 0x41, 0x42, 0x45, 2, 0xB2, 0x6F, 1, 0x40, 0]] =
        .ok [g1 .infinity, g1 .infinity] := by
  have written : encodeBatch ⟨.sec1, none, true⟩ [(g1 .infinity : Element .bn254), g2 .infinity] =
      .ok [[0x4F, 0x41, 0x42, 0x45, 2, 0xB2, 0x6F, 1, 0x40, 0],
        [0x4F, 0x41, 0x42, 0x45, 2, 0xB3, 0x6F, 1, 0x40, 0]] := rfl
  have first : (g1 .infinity : Element .bn254).IsMember := isMember_iff.2 (Curve.valid_infinity _)
  have second : (g2 .infinity : Element .bn254).IsMember := isMember_iff.2 (Curve.valid_infinity _)
  obtain ⟨_, _, readBack⟩ := batches_item_by_item .bn254
  refine ⟨written, ?_, ?_⟩
  · intro t
    have members : ∀ x ∈ [(g1 .infinity : Element .bn254), g2 .infinity], x.IsMember := by
      simp [first, second]
    refine (readBack ⟨.sec1, none, true⟩ t _ _ rfl members written).2 ?_
    cases t <;> simp [type]
  · have members : ∀ x ∈ [(g1 .infinity : Element .bn254), g1 .infinity], x.IsMember := by
      simp [first]
    refine ((readBack ⟨.sec1, none, true⟩ .g1 _ _ rfl members rfl).1).2 ?_
    simp [type]

end Element

end PairingWire
