import Fleet.Cloud.Operation
import Fleet.Proofs.Cloud.Exchanges
import Fleet.Proofs.Json

/-!
# Operations and how they end

A wait for an operation comes back with the operation as it is then.  If it lists errors, the first
of them is what the wait fails with, whatever else the operation says; if it lists none, it depends
on its status whether one waits again.

## Main definitions

- `Operation.IsClean`, `Operation.SaysDone`: operations without errors, and such that do not say
  that they go on
- `Json.IsOperation`, `Operation.listed`, `Operation.reported`: operations, the errors that they
  list and what is reported of one of them
- `Operation.GoesOn`, `Operation.Concludes`: the replies after which one waits again, and the ends
  to which the others bring the wait

## Main statements

- `Operation.checked_outcome`: looking for errors comes back with the operation or the first error
- `Operation.goesOn_or_concludes`: every reply is of one of the two kinds
-/

namespace Fleet

open World Json

/-! ## §1 What operations say -/

/-- What goes on after a possible fault had none. -/
theorem of_run_ofFault {σ α : Type} {x : Except Fault α} {a : α} {s t : σ}
    (h : (ExceptT.run (ofExcept (x.mapError .fault) : ExceptT Failure (StateM σ) α)).run s =
      (.ok a, t)) : x = .ok a ∧ t = s := by
  rw [run_ofExcept] at h
  cases x with
  | error fault => cases h
  | ok b =>
    cases h
    exact ⟨rfl, rfl⟩

namespace Operation

/-- The operation carries no errors, or none that are present. -/
def IsClean (operation : Json) : Prop :=
  ∀ errors, (operation.member? "error").bind (member? "errors") = some errors →
    errors.truthy = false

/-- The operation does not say that it goes on: its status is missing or the final one. -/
def SaysDone (operation : Json) : Prop :=
  ∀ status, operation.member? "status" = some status → status = .str "DONE"

variable {operation : Json}

theorem isClean_of_errors {errors : Json} (h : Operation.errors operation = .ok errors)
    (hnone : errors.truthy = false) : IsClean operation := by
  obtain ⟨error, herror, h⟩ := exists_of_bind_eq_ok h
  intro found hfound
  rw [← member?_getD_null, ← getD_eq_ok herror] at hfound
  have herrors : errors = (error.member? "errors").getD .null := get_orElse_eq_ok h
  rw [herrors, hfound] at hnone
  exact hnone

/-- The operation is an object, and so is its error if that is present; it carries no errors that are
present. -/
def IsAccepted (operation : Json) : Prop :=
  MayHave "error" (fun error => ∃ members, error = .obj members) operation ∧ IsClean operation

section Errors

variable {members : List (String × Json)} {error : Json}

/-- Without an error there are no errors. -/
theorem errors_of_not_has (h : ¬ (Json.obj members).Has "error") :
    Operation.errors (.obj members) = .ok .null ∧ IsAccepted (.obj members) := by
  have hnone : (((Json.obj members).member? "error").getD .null).truthy = false := by
    rw [Bool.eq_false_iff, ne_eq, truthy_member?_iff]
    exact h
  refine ⟨?_, ⟨members, rfl, fun value hvalue hpresent => absurd ⟨value, hvalue, hpresent⟩ h⟩, ?_⟩
  · show ((((Json.obj members).member? "error").getD .null).orElse (.obj [])).get "errors" = _
    rw [orElse_of_not_truthy hnone]
    rfl
  · intro errors herrors
    rw [← member?_getD_null, member?_of_not_truthy hnone] at herrors
    cases herrors

/-- The errors of an operation are those of its error. -/
theorem errors_of_has (h : lookup "error" members = some error) (hpresent : error.truthy = true) :
    Operation.errors (.obj members) = error.get "errors" := by
  show (((lookup "error" members).getD .null).orElse (.obj [])).get "errors" = _
  rw [h, Option.getD_some, orElse_of_truthy hpresent]

theorem isAccepted_iff_of_has (h : lookup "error" members = some error)
    (hpresent : error.truthy = true) :
    IsAccepted (.obj members) ↔ (∃ found, error = .obj found) ∧ ¬ error.Has "errors" := by
  have hclean : IsClean (.obj members) ↔ ¬ error.Has "errors" := by
    unfold IsClean Has
    rw [show (Json.obj members).member? "error" = some error from h]
    simp
  unfold IsAccepted
  rw [hclean]
  refine and_congr_left fun _ => ⟨?_, fun hshape => ⟨members, rfl, fun value hvalue _ => ?_⟩⟩
  · rintro ⟨_, hmembers, hshape⟩
    cases hmembers
    exact hshape error h hpresent
  · rw [h] at hvalue
    cases hvalue
    exact hshape

end Errors

/-- Either the errors can be looked up, and then they decide, or what came is no operation. -/
theorem errors_cases (operation : Json) :
    (∃ errors, Operation.errors operation = .ok errors ∧
      (errors.truthy = false ↔ IsAccepted operation)) ∨
    ∃ fault, Operation.errors operation = .error fault ∧ ¬ IsAccepted operation := by
  cases operation with
  | obj members =>
    by_cases herror : (Json.obj members).Has "error"
    · obtain ⟨error, hmember, hpresent⟩ := herror
      rw [errors_of_has hmember hpresent, isAccepted_iff_of_has hmember hpresent]
      cases error with
      | obj found =>
        refine Or.inl ⟨_, rfl, ?_⟩
        rw [← truthy_member?_iff, Bool.not_eq_true]
        exact ⟨fun h => ⟨⟨found, rfl⟩, h⟩, And.right⟩
      | _ =>
        refine Or.inr ⟨_, rfl, ?_⟩
        rintro ⟨⟨found, hfound⟩, -⟩
        cases hfound
    · obtain ⟨herrors, haccepted⟩ := errors_of_not_has herror
      exact Or.inl ⟨.null, herrors, iff_of_true rfl haccepted⟩
  | _ =>
    refine Or.inr ⟨_, rfl, ?_⟩
    rintro ⟨⟨members, hshape, -⟩, -⟩
    cases hshape

/-- Errors that are present end with a failure. -/
theorem isClean_of_checked {w v : World} {value : Json}
    (h : (checked operation).outcome w = (.ok value, v)) : IsClean operation := by
  obtain ⟨errors, u, hrun, h⟩ := exists_of_run_bind_eq_ok h
  obtain ⟨herrors, -⟩ := of_run_ofFault hrun
  apply isClean_of_errors herrors
  cases hpresent : errors.truthy with
  | false => rfl
  | true =>
    exfalso
    rw [if_pos hpresent] at h
    obtain ⟨first, _, -, h⟩ := exists_of_run_bind_eq_ok h
    obtain ⟨name, _, -, h⟩ := exists_of_run_bind_eq_ok h
    split at h
    · obtain ⟨_, _, -, h⟩ := exists_of_run_bind_eq_ok h
      obtain ⟨f, _, -, h⟩ := exists_of_run_bind_eq_ok h
      cases h
    · obtain ⟨f, _, -, h⟩ := exists_of_run_bind_eq_ok h
      cases h

theorem saysDone_iff {done : Bool} (h : isDone operation = .ok done) :
    done = true ↔ SaysDone operation := by
  obtain ⟨status, hstatus, h⟩ := exists_of_bind_eq_ok h
  cases h
  rw [isText_iff, getD_eq_ok hstatus]
  unfold SaysDone
  cases operation.member? "status" with
  | none => exact ⟨fun _ => nofun, fun _ => rfl⟩
  | some found =>
    constructor
    · rintro h status hfound
      cases hfound
      exact h
    · intro h
      exact h found rfl

end Operation

/-! ## §2 What operations list -/

/-- An operation is an object. It may have an error, which may have a list of errors. -/
def Json.IsOperation : Json → Prop :=
  MayHave "error" (MayHave "errors" fun errors =>
    ∃ entries, errors = .arr entries ∧ ∀ entry ∈ entries, ∃ members, entry = .obj members)

namespace Operation

/-- The errors that an operation lists. -/
def listed (operation : Json) : List Json :=
  match (operation.member? "error").bind (member? "errors") with
  | some (.arr entries) => entries
  | _ => []

/-- What is reported of an error: its code as a text, its message, and the name of the operation. -/
def reported (entry name : Json) : Failure :=
  .operation (.str ((entry.member? "code").getD (.str "UNKNOWN")).text)
    ((entry.member? "message").getD (.str "")) name

/-- What an operation is worth: the operation itself, or the first of the errors that it lists. -/
def verdict (operation : Json) : Except Failure Json :=
  match listed operation with
  | [] => .ok operation
  | entry :: _ => .error (reported entry ((operation.member? "name").getD .null))

theorem failureOf_obj (members : List (String × Json)) (name : Json) :
    failureOf (.obj members) name = .ok (reported (.obj members) name) := rfl

variable {operation : Json}

/-- Either no errors are present, or there is a first one. -/
theorem errors_of_isOperation (h : operation.IsOperation) :
    ∃ errors, Operation.errors operation = .ok errors ∧
      (errors.truthy = false ∧ listed operation = [] ∨
        ∃ members entries, errors = .arr (.obj members :: entries) ∧
          listed operation = .obj members :: entries) := by
  -- errors that are not present are listed nowhere
  have hnone {errors : Option Json} (hfound : ∀ found, errors = some found → found.truthy = false) :
      (match errors with
        | some (.arr entries) => entries
        | _ => []) = [] := by
    split
    · rename_i entries
      have hempty := hfound _ rfl
      cases entries with
      | nil => rfl
      | cons => cases hempty
    · rfl
  unfold Operation.errors listed
  rcases MayHave.cases h with
    ⟨error, hmember, hget, hpresent, herror⟩ | ⟨error, hget, hpresent, hmember⟩
  · rw [hget, hmember]
    show ∃ errors, (error.orElse (.obj [])).get "errors" = .ok errors ∧ _
    rw [orElse_of_truthy hpresent]
    rcases herror.cases with
      ⟨errors, hmember, hget, hpresent, entries, rfl, hentries⟩ | ⟨errors, hget, hpresent, hmember⟩
    · cases entries with
      | nil => cases hpresent
      | cons entry entries =>
        obtain ⟨members, rfl⟩ := hentries entry List.mem_cons_self
        refine ⟨_, hget, Or.inr ⟨members, entries, rfl, ?_⟩⟩
        rw [Option.bind_some, hmember]
    · exact ⟨errors, hget, Or.inl ⟨hpresent, hnone hmember⟩⟩
  · rw [hget]
    show ∃ errors, (error.orElse (.obj [])).get "errors" = .ok errors ∧ _
    rw [orElse_of_not_truthy hpresent]
    refine ⟨.null, rfl, Or.inl ⟨rfl, hnone fun found hfound => ?_⟩⟩
    obtain ⟨error, herror, hfound⟩ := Option.bind_eq_some_iff.mp hfound
    rw [member?_of_not_truthy (hmember error herror)] at hfound
    cases hfound

/-- Looking for errors makes remarks at most. -/
theorem checked_remarks (operation : Json) : Within Remarks (checked operation) := by
  have hlog (message : String) : Within Remarks (Call.log .debug message) :=
    .modify fun w => .record rfl w
  refine Within.bind (.ofExcept _) fun errors => ?_
  split
  · refine Within.bind (.ofExcept _) fun first => .bind (.ofExcept _) fun name => ?_
    split
    · exact (hlog _).bind fun _ => .bind (.ofExcept _) fun f => .throw f
    · exact .bind (.ofExcept _) fun f => .throw f
  · exact .pure _

/-- Looking for errors comes back with what the operation is worth. -/
theorem checked_outcome (h : operation.IsOperation) (w : World) :
    ∃ v, w.Remarks v ∧ (checked operation).outcome w = (verdict operation, v) := by
  refine ⟨_, checked_remarks operation w, Prod.ext ?_ rfl⟩
  obtain ⟨errors, herrors, hcases⟩ := errors_of_isOperation h
  have hfound : (checked operation).outcome w = _ := run_bind_of_ok (t := w) (by rw [herrors]; rfl)
  rw [hfound]
  unfold verdict
  rcases hcases with ⟨hnone, hlisted⟩ | ⟨members, entries, rfl, hlisted⟩
  · rw [hnone, hlisted]
    rfl
  · obtain ⟨found, rfl, -⟩ := h
    have hpresent : (arr (.obj members :: entries)).truthy = true := rfl
    rw [hlisted, if_pos hpresent]
    -- the first error and the name are there, and further errors are only remarked
    refine (congrArg Prod.fst
      ((run_bind_of_ok (t := w) rfl).trans (run_bind_of_ok (t := w) rfl))).trans ?_
    split <;> rfl

/-- The wait for an operation goes on after this reply: no errors are listed, and the operation says
that it is not done yet. -/
def GoesOn (reply : Except Failure Json) : Prop :=
  ∃ operation, reply = .ok operation ∧ operation.IsOperation ∧ listed operation = [] ∧
    ¬ SaysDone operation

/-- The end to which a reply brings the wait for an operation. -/
inductive Concludes : Except Failure Json → Except Failure Json → Prop
  | failed (f : Failure) : Concludes (.error f) (.error f)
  /-- further errors and what else the operation says do not matter -/
  | erred {operation entry : Json} {entries : List Json} (hoperation : operation.IsOperation)
      (hlisted : listed operation = entry :: entries) :
      Concludes (.ok operation)
        (.error (reported entry ((operation.member? "name").getD .null)))
  | done {operation : Json} (hoperation : operation.IsOperation) (hlisted : listed operation = [])
      (hdone : SaysDone operation) : Concludes (.ok operation) (.ok operation)

theorem GoesOn.isOperation {reply : Except Failure Json} (h : GoesOn reply)
    (hreply : reply = .ok operation) : operation.IsOperation := by
  obtain ⟨found, hfound, hisOperation, -⟩ := h
  rw [hfound] at hreply
  cases hreply
  exact hisOperation

theorem Concludes.isOperation {reply result : Except Failure Json} (h : Concludes reply result)
    (hreply : reply = .ok operation) : operation.IsOperation := by
  cases h with
  | failed f => cases hreply
  | erred hisOperation | done hisOperation =>
    cases hreply
    exact hisOperation

theorem isDone_eq_ok (h : operation.IsOperation) {done : Bool}
    (hdone : done = true ↔ SaysDone operation) : isDone operation = .ok done := by
  obtain ⟨members, rfl, -⟩ := h
  obtain ⟨said, hsaid⟩ : ∃ said, isDone (.obj members) = .ok said := ⟨_, rfl⟩
  rw [hsaid, Bool.eq_iff_iff.mpr ((saysDone_iff hsaid).trans hdone.symm)]

/-- After every reply the wait goes on or comes to an end. -/
theorem goesOn_or_concludes {reply : Except Failure Json}
    (h : ∀ operation, reply = .ok operation → operation.IsOperation) :
    GoesOn reply ∨ ∃ result, Concludes reply result := by
  cases reply with
  | error f => exact Or.inr ⟨_, .failed f⟩
  | ok operation =>
    have hoperation := h operation rfl
    cases hlisted : listed operation with
    | cons entry entries => exact Or.inr ⟨_, .erred hoperation hlisted⟩
    | nil =>
      by_cases hdone : SaysDone operation
      · exact Or.inr ⟨_, .done hoperation hlisted hdone⟩
      · exact Or.inl ⟨operation, rfl, hoperation, hlisted, hdone⟩

end Operation

end Fleet
