import Fleet.Json.Access

/-!
# What values may have

A member that is missing counts as null, and one that is not present counts as an empty one.  So
most of what is taken apart is an object that may have a member, and if the member is present it has
a certain shape.

## Main definitions

- `Json.Has name`: values with a member that is present
- `Json.MayHave name P`: objects whose member, if it is present, has the property
- `Json.MayList name`: objects whose member, if it is present, is a list, and `Json.entries name`:
  what is on it

## Main statements

- `Json.MayHave.cases`: such a member is present and has the property, or it is not present
- `Json.MayList.elements_eq`: what is taken from such a member is its entries
-/

namespace Fleet.Json

/-! ## §1 Members and substitutes -/

variable {j substitute value : Json} {name : String}

theorem orElse_of_truthy (h : j.truthy = true) : j.orElse substitute = j :=
  if_pos h

theorem orElse_of_not_truthy (h : j.truthy = false) : j.orElse substitute = substitute := by
  rw [orElse, h]
  rfl

theorem getD_eq_ok (h : j.getD name substitute = .ok value) :
    value = (j.member? name).getD substitute := by
  cases j <;> cases h
  rfl

/-- What is not present has no members. -/
theorem member?_of_not_truthy (h : j.truthy = false) : j.member? name = none := by
  cases j with
  | obj members =>
    cases members with
    | nil => rfl
    | cons => cases h
  | _ => rfl

theorem member?_getD_null (member : Option Json) :
    (member.getD .null).member? name = member.bind (member? name) := by
  cases member <;> rfl

/-- In what is not present there is nothing to be found. -/
theorem get_orElse_eq_ok (h : (j.orElse (.obj [])).get name = .ok value) :
    value = (j.member? name).getD .null := by
  cases hj : j.truthy with
  | true =>
    rw [orElse_of_truthy hj] at h
    exact getD_eq_ok h
  | false =>
    rw [orElse_of_not_truthy hj] at h
    rw [member?_of_not_truthy hj]
    exact getD_eq_ok h

/-! ## §2 Members that may be there -/

/-- A value with a member of the given name that is present. -/
def Has (name : String) (j : Json) : Prop :=
  ∃ value, j.member? name = some value ∧ value.truthy = true

theorem truthy_member?_iff : ((j.member? name).getD .null).truthy = true ↔ j.Has name := by
  unfold Has
  cases j.member? name with
  | none => simp [truthy]
  | some value => simp

/-- An object whose member of the given name, if it is present, has the property. -/
def MayHave (name : String) (P : Json → Prop) (j : Json) : Prop :=
  ∃ members, j = .obj members ∧
    ∀ value, lookup name members = some value → value.truthy = true → P value

/-- The member is present and has the property, or it is not present. -/
theorem MayHave.cases {P : Json → Prop} (h : MayHave name P j) :
    (∃ value, j.member? name = some value ∧ j.get name = .ok value ∧ value.truthy = true ∧
      P value) ∨
    ∃ value, j.get name = .ok value ∧ value.truthy = false ∧
      ∀ found, j.member? name = some found → found.truthy = false := by
  obtain ⟨members, rfl, hvalue⟩ := h
  have hget : (Json.obj members).get name = .ok ((lookup name members).getD .null) := rfl
  cases hmember : lookup name members with
  | none =>
    rw [hmember] at hget
    refine Or.inr ⟨.null, hget, rfl, fun found hfound => ?_⟩
    rw [member?, hmember] at hfound
    cases hfound
  | some value =>
    rw [hmember] at hget
    cases hpresent : value.truthy with
    | true => exact Or.inl ⟨value, hmember, hget, hpresent, hvalue value hmember hpresent⟩
    | false =>
      refine Or.inr ⟨value, hget, hpresent, fun found hfound => ?_⟩
      rw [member?, hmember] at hfound
      cases hfound
      exact hpresent

/-! ## §3 Members that may be lists -/

/-- An object with a list under the name, or with nothing. -/
def MayList (name : String) : Json → Prop :=
  MayHave name fun value => ∃ listed, value = .arr listed

/-- What is listed under the name. -/
def entries (name : String) (j : Json) : List Json :=
  match j.member? name with
  | some (.arr listed) => listed
  | _ => []

theorem MayList.elements_eq (h : j.MayList name) :
    (j.get name >>= fun value => (value.orElse (.arr [])).elements) = .ok (j.entries name) := by
  unfold entries
  rcases h.cases with ⟨_, hmember, hget, hpresent, listed, rfl⟩ | ⟨value, hget, hnone, hmember⟩
  · rw [hget, hmember]
    show (orElse (.arr listed) (.arr [])).elements = _
    rw [orElse_of_truthy hpresent]
    rfl
  · rw [hget]
    show (orElse value (.arr [])).elements = _
    rw [orElse_of_not_truthy hnone]
    split
    · -- a list that is not present is empty
      rename_i listed hlisted
      have hempty := hmember _ hlisted
      cases listed with
      | nil => rfl
      | cons => cases hempty
    · rfl

end Fleet.Json
