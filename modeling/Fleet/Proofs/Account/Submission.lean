import Fleet.Proofs.Account.Names
import Fleet.Proofs.Cloud.Dealings
import Fleet.Proofs.Cloud.Operations

/-!
# An instance is submitted behind its firewall

An account looks for the firewall of the project first, and creates it if there is none.  Only then
the instance is submitted, and only a reply that tells its id and the operation that creates it
makes it known.  Every failure on the way is the end.

## Main definitions

- `Operation.rejection?`: the failure of a reply that is not accepted
- `Account.Readies`, `Account.Submits`: the dealings by which the firewall is made sure of and the
  instance is submitted, and what they come to
- `Account.Begins`: the two of them, one after the other

## Main statements

- `Account.does_ensureFirewall`, `Account.does_submitInstance`: each part does what it is said to do
- `Account.Begins.exists_parts`: in which order requests can have been made
-/

namespace Fleet

open World Job

/-! ## §1 Replies that are not accepted -/

namespace Operation

/-- The failure of a reply that is not accepted: a setback for the errors that it has, or a fault if
they cannot be told. -/
def rejection? (why : Json → Setback) (operation : Json) : Option Failure :=
  match Operation.errors operation with
  | .error fault => some (.fault fault)
  | .ok errors => if errors.truthy then some (.setback (why errors)) else none

variable {why : Json → Setback} {operation : Json}

theorem rejection?_eq_none_iff : rejection? why operation = none ↔ IsAccepted operation := by
  unfold rejection?
  rcases errors_cases operation with ⟨errors, herrors, haccepted⟩ | ⟨fault, herrors, hrejected⟩
  · rw [herrors, ← haccepted]
    simp
  · rw [herrors]
    simp [hrejected]

/-- The rest of a job is done only if the reply is accepted. -/
theorem does_unless_rejected {β : Type} {token : String} {rest : Job β}
    {Q : List Dealing → Except Halt β → Prop}
    (hrejected : ∀ f, rejection? why operation = some f → Q [] (.error (.failure f)))
    (haccepted : IsAccepted operation → rest.Does token Q) :
    Job.Does token (ofFault (Operation.errors operation) >>= fun errors =>
      if errors.truthy then throw (.failure (.setback (why errors))) else rest) Q := by
  refine does_ofFault_bind _ (fun fault herrors => ?_) fun errors herrors => ?_
  · apply hrejected
    rw [rejection?, herrors]
  · cases hpresent : errors.truthy with
    | true =>
      refine (does_throw _).mono ?_
      rintro _ _ ⟨rfl, rfl⟩
      apply hrejected
      rw [rejection?, herrors]
      exact if_pos hpresent
    | false =>
      have hnone : rejection? why operation = none := by simp [rejection?, herrors, hpresent]
      exact haccepted (rejection?_eq_none_iff.mp hnone)

end Operation

open Operation

/-! ## §2 The firewall -/

namespace Account

variable {account : Account} {project name zone instanceName token : String} {metrics : Bool}

/-- The request that looks for the firewall of a project. -/
def firewallQuery (account : Account) (project : String) : Request :=
  account.client.listFirewalls project managedLabel

/-- The request that creates the firewall of a project. -/
def firewallOrder (account : Account) (project : String) : Request :=
  account.client.createFirewall project firewallData

/-- The answer says that the project has no firewall. -/
def MissesFirewall (account : Account) (project : String) (answer : Answer) : Prop :=
  ∃ members, answer.content (account.firewallQuery project) = .ok (.obj members) ∧
    ¬ (Json.obj members).Has "items"

/-- The dealings of making sure of the firewall. -/
inductive Readies (account : Account) (project : String) :
    List Dealing → Except Halt Unit → Prop
  | unknown {answer : Answer} {f : Failure}
      (h : answer.content (account.firewallQuery project) = .error f) :
      Readies account project [.exchanged ⟨account.firewallQuery project, answer⟩]
        (.error (.failure f))
  /-- what is no object tells nothing -/
  | unclear {answer : Answer} {reply : Json} {fault : Fault}
      (h : answer.content (account.firewallQuery project) = .ok reply)
      (hshape : ∀ members, reply ≠ .obj members) :
      Readies account project [.exchanged ⟨account.firewallQuery project, answer⟩]
        (.error (.failure (.fault fault)))
  | found {answer : Answer} {reply : Json}
      (h : answer.content (account.firewallQuery project) = .ok reply)
      (hitems : reply.Has "items") :
      Readies account project [.exchanged ⟨account.firewallQuery project, answer⟩] (.ok ())
  | refused {answer answer' : Answer} {f : Failure} (h : account.MissesFirewall project answer)
      (h' : answer'.content (account.firewallOrder project) = .error f) :
      Readies account project
        [.exchanged ⟨account.firewallQuery project, answer⟩,
          .exchanged ⟨account.firewallOrder project, answer'⟩] (.error (.failure f))
  | rejected {answer answer' : Answer} {operation : Json} {f : Failure}
      (h : account.MissesFirewall project answer)
      (h' : answer'.content (account.firewallOrder project) = .ok operation)
      (hrejected : rejection? .firewallCreation operation = some f) :
      Readies account project
        [.exchanged ⟨account.firewallQuery project, answer⟩,
          .exchanged ⟨account.firewallOrder project, answer'⟩] (.error (.failure f))
  | created {answer answer' : Answer} {operation : Json}
      (h : account.MissesFirewall project answer)
      (h' : answer'.content (account.firewallOrder project) = .ok operation)
      (haccepted : IsAccepted operation) :
      Readies account project
        [.exchanged ⟨account.firewallQuery project, answer⟩,
          .exchanged ⟨account.firewallOrder project, answer'⟩] (.ok ())

/-- Making sure of the firewall, part by part. -/
theorem ofCall_ensureFirewall (account : Account) (project : String) :
    (ofCall (account.ensureFirewall project) : Job Unit) =
      ofCall (account.client.execute (account.firewallQuery project)) >>= fun reply =>
        ofFault (reply.get "items") >>= fun items =>
          if items.truthy then pure ()
          else Job.log .info s!"Creating firewall {managedLabel} in {project}" >>= fun _ =>
            ofCall (account.client.execute (account.firewallOrder project)) >>= fun operation =>
              ofFault (Operation.errors operation) >>= fun errors =>
                if errors.truthy then throw (.failure (.setback (.firewallCreation errors)))
                else pure () := by
  unfold ensureFirewall
  rw [ofCall_bind]
  congr 1
  funext reply
  rw [ofCall_bind]
  congr 1
  funext items
  cases items.truthy with
  | true => rfl
  | false =>
    show ofCall (Call.log _ _ >>= _) = _
    rw [ofCall_bind]
    congr 1
    funext _
    rw [ofCall_bind]
    congr 1
    funext operation
    rw [ofCall_bind]
    congr 1
    funext errors
    cases errors.truthy <;> rfl

theorem does_ensureFirewall (account : Account) (project : String) :
    (ofCall (account.ensureFirewall project)).Does token (Readies account project) := by
  rw [ofCall_ensureFirewall]
  refine does_execute_bind account.client rfl (fun _ _ => .unknown) fun answer reply hcontent => ?_
  cases reply with
  | obj members =>
    refine (does_ofFault _).bind_exactly ?_
    split
    next hitems =>
      refine (does_pure ()).mono ?_
      rintro _ _ ⟨rfl, rfl⟩
      exact .found hcontent (Json.truthy_member?_iff.mp hitems)
    next hnone =>
      have hmisses : account.MissesFirewall project answer :=
        ⟨members, hcontent, mt Json.truthy_member?_iff.mpr hnone⟩
      refine (does_log _ _).bind_exactly ?_
      refine does_execute_bind account.client rfl (fun _ _ => .refused hmisses)
        fun answer' operation hcontent' => ?_
      refine does_unless_rejected (fun f => .rejected hmisses hcontent') fun haccepted => ?_
      refine (does_pure ()).mono ?_
      rintro _ _ ⟨rfl, rfl⟩
      exact .created hmisses hcontent' haccepted
  | _ =>
    refine (does_ofFault _).bind_error.mono ?_
    rintro _ _ ⟨rfl, rfl⟩
    exact .unclear hcontent nofun

/-! ## §3 The instance -/

/-- The reply to a submission hands an instance over: it has its id, and the name of the operation
that creates it. -/
structure HandsOver (operation target name : Json) : Prop where
  accepted : IsAccepted operation
  target_eq : operation.member? "targetId" = some target
  name_eq : operation.member? "name" = some name

/-- The dealings of submitting an instance. -/
inductive Submits (account : Account) (project name zone : String) (metrics : Bool)
    (instanceName : String) : List Dealing → Except Halt (InstanceLocator × Json) → Prop
  | refused {answer : Answer} {f : Failure}
      (h : answer.content (account.submission project name zone metrics instanceName) =
        .error f) :
      Submits account project name zone metrics instanceName
        [.exchanged ⟨account.submission project name zone metrics instanceName, answer⟩]
        (.error (.failure f))
  | rejected {answer : Answer} {operation : Json} {f : Failure}
      (h : answer.content (account.submission project name zone metrics instanceName) =
        .ok operation)
      (hrejected : rejection? .instanceCreation operation = some f) :
      Submits account project name zone metrics instanceName
        [.exchanged ⟨account.submission project name zone metrics instanceName, answer⟩]
        (.error (.failure f))
  | nameless {answer : Answer} {operation : Json} {fault : Fault}
      (h : answer.content (account.submission project name zone metrics instanceName) =
        .ok operation)
      (hnameless : ∀ target operationName, ¬ HandsOver operation target operationName) :
      Submits account project name zone metrics instanceName
        [.exchanged ⟨account.submission project name zone metrics instanceName, answer⟩]
        (.error (.failure (.fault fault)))
  | submitted {answer : Answer} {operation target operationName : Json}
      (h : answer.content (account.submission project name zone metrics instanceName) =
        .ok operation)
      (hhands : HandsOver operation target operationName) :
      Submits account project name zone metrics instanceName
        [.exchanged ⟨account.submission project name zone metrics instanceName, answer⟩]
        (.ok (⟨project, zone, target.text⟩, operationName))

/-- Submitting an instance, part by part. -/
theorem ofCall_submitInstance (account : Account) (project name zone : String) (metrics : Bool)
    (instanceName : String) :
    (ofCall (account.submitInstance project name zone metrics instanceName) :
        Job (InstanceLocator × Json)) =
      ofCall (account.client.execute
          (account.submission project name zone metrics instanceName)) >>= fun operation =>
        ofFault (Operation.errors operation) >>= fun errors =>
          if errors.truthy then throw (.failure (.setback (.instanceCreation errors)))
          else ofFault (operation.part "targetId") >>= fun target =>
            Job.log .info s!"Submitted instance {instanceName} ({target.text}) in {zone}" >>=
              fun _ => ofFault (operation.part "name") >>= fun operationName =>
                pure (⟨project, zone, target.text⟩, operationName) := by
  unfold submitInstance
  rw [ofCall_bind]
  congr 1
  funext operation
  rw [ofCall_bind]
  congr 1
  funext errors
  cases errors.truthy with
  | true => rfl
  | false =>
    show ofCall (Call.ofFault _ >>= _) = _
    rw [ofCall_bind]
    congr 1
    funext target
    show ofCall (Call.log _ _ >>= _) = _
    rw [ofCall_bind]
    congr 1
    funext _
    rw [ofCall_bind]
    rfl

theorem does_submitInstance (account : Account) (project name zone : String) (metrics : Bool)
    (instanceName : String) :
    (ofCall (account.submitInstance project name zone metrics instanceName)).Does token
      (Submits account project name zone metrics instanceName) := by
  rw [ofCall_submitInstance]
  refine does_execute_bind account.client rfl (fun _ _ => .refused)
    fun answer operation hcontent => ?_
  refine does_unless_rejected (fun f => .rejected hcontent) fun haccepted => ?_
  refine does_ofFault_bind _ (fun fault htarget => ?_) fun target htarget => ?_
  · refine .nameless hcontent fun target _ hhands => ?_
    rw [Json.part_eq_ok_iff.mpr hhands.target_eq] at htarget
    cases htarget
  · refine (does_log _ _).bind_exactly ?_
    refine does_ofFault_bind _ (fun fault hname => ?_) fun operationName hname => ?_
    · refine .nameless hcontent fun _ operationName hhands => ?_
      rw [Json.part_eq_ok_iff.mpr hhands.name_eq] at hname
      cases hname
    · refine (does_pure _).mono ?_
      rintro _ _ ⟨rfl, rfl⟩
      exact .submitted hcontent
        ⟨haccepted, Json.part_eq_ok_iff.mp htarget, Json.part_eq_ok_iff.mp hname⟩

/-! ## §4 One after the other -/

/-- Make sure of the firewall, and submit an instance. -/
def begin (account : Account) (project name zone : String) (metrics : Bool)
    (instanceName : String) : Job (InstanceLocator × Json) := do
  account.ensureFirewall project
  account.submitInstance project name zone metrics instanceName

/-- The dealings of making sure of the firewall and submitting an instance. -/
inductive Begins (account : Account) (project name zone : String) (metrics : Bool)
    (instanceName : String) : List Dealing → Except Halt (InstanceLocator × Json) → Prop
  | unready {dealings : List Dealing} {halt : Halt}
      (h : Readies account project dealings (.error halt)) :
      Begins account project name zone metrics instanceName dealings (.error halt)
  | ready {dealings later : List Dealing} {result : Except Halt (InstanceLocator × Json)}
      (h : Readies account project dealings (.ok ()))
      (hsubmits : Submits account project name zone metrics instanceName later result) :
      Begins account project name zone metrics instanceName (dealings ++ later) result

theorem does_begin (account : Account) (project name zone : String) (metrics : Bool)
    (instanceName : String) :
    (account.begin project name zone metrics instanceName).Does token
      (Begins account project name zone metrics instanceName) := by
  refine (does_ensureFirewall account project).bind (fun _ _ => .unready) fun dealings _ h => ?_
  exact (does_submitInstance account project name zone metrics instanceName).mono
    fun later result => .ready h

/-- The firewall stands: it was found, or it was created and the reply to that accepted. -/
def FirewallStands (account : Account) (project : String) (listed : Answer)
    (between : List Dealing) : Prop :=
  (between = [] ∧ ∃ reply, listed.content (account.firewallQuery project) = .ok reply ∧
    reply.Has "items") ∨
  ∃ made operation, between = [.exchanged ⟨account.firewallOrder project, made⟩] ∧
    made.content (account.firewallOrder project) = .ok operation ∧ IsAccepted operation

/-- The firewall is looked for once, and created once if it is missing and never otherwise. -/
theorem Readies.exists_parts {dealings : List Dealing} {result : Except Halt Unit}
    (h : Readies account project dealings result) :
    ∃ listed between, dealings = .exchanged ⟨account.firewallQuery project, listed⟩ :: between ∧
      (account.MissesFirewall project listed ∧
          (∃ made, between = [.exchanged ⟨account.firewallOrder project, made⟩]) ∨
        ¬ account.MissesFirewall project listed ∧ between = []) ∧
      (result = .ok () ∧ FirewallStands account project listed between ∨
        ∃ f, result = .error (.failure f)) := by
  cases h with
  | unknown h =>
    refine ⟨_, [], rfl, Or.inr ⟨?_, rfl⟩, Or.inr ⟨_, rfl⟩⟩
    rintro ⟨members, hcontent, -⟩
    rw [h] at hcontent
    cases hcontent
  | unclear h hshape =>
    refine ⟨_, [], rfl, Or.inr ⟨?_, rfl⟩, Or.inr ⟨_, rfl⟩⟩
    rintro ⟨members, hcontent, -⟩
    rw [h] at hcontent
    exact hshape members (Except.ok.inj hcontent)
  | found h hitems =>
    refine ⟨_, [], rfl, Or.inr ⟨?_, rfl⟩, Or.inl ⟨rfl, Or.inl ⟨rfl, _, h, hitems⟩⟩⟩
    rintro ⟨members, hcontent, hnone⟩
    rw [h] at hcontent
    exact hnone (Except.ok.inj hcontent ▸ hitems)
  | refused h | rejected h => exact ⟨_, _, rfl, Or.inl ⟨h, _, rfl⟩, Or.inr ⟨_, rfl⟩⟩
  | created h h' haccepted =>
    exact ⟨_, _, rfl, Or.inl ⟨h, _, rfl⟩, Or.inl ⟨rfl, Or.inr ⟨_, _, rfl, h', haccepted⟩⟩⟩

/-- An instance is submitted at most once and only behind a firewall. It is known exactly if the
reply hands it over, and everything else is a failure. -/
theorem Begins.exists_parts {dealings : List Dealing}
    {result : Except Halt (InstanceLocator × Json)}
    (h : Begins account project name zone metrics instanceName dealings result) :
    let submission := account.submission project name zone metrics instanceName
    ∃ listed between later,
      dealings = .exchanged ⟨account.firewallQuery project, listed⟩ :: (between ++ later) ∧
      (account.MissesFirewall project listed ∧
          (∃ made, between = [.exchanged ⟨account.firewallOrder project, made⟩]) ∨
        ¬ account.MissesFirewall project listed ∧ between = []) ∧
      ((later = [] ∧ ∃ f, result = .error (.failure f)) ∨
        FirewallStands account project listed between ∧
        ∃ answer, later = [.exchanged ⟨submission, answer⟩] ∧
          ((∃ f, result = .error (.failure f)) ∧
              (∀ operation target operationName, answer.content submission = .ok operation →
                ¬ HandsOver operation target operationName) ∨
            ∃ operation target operationName, answer.content submission = .ok operation ∧
              HandsOver operation target operationName ∧
              result = .ok (⟨project, zone, target.text⟩, operationName))) := by
  intro submission
  cases h with
  | unready h =>
    obtain ⟨listed, between, rfl, hmade, hresult⟩ := h.exists_parts
    refine ⟨listed, between, [], by rw [List.append_nil], hmade, Or.inl ⟨rfl, ?_⟩⟩
    rcases hresult with ⟨hok, -⟩ | ⟨f, hf⟩
    · cases hok
    · exact ⟨f, by rw [Except.error.inj hf]⟩
  | ready h hsubmits =>
    obtain ⟨listed, between, rfl, hmade, hresult⟩ := h.exists_parts
    refine ⟨listed, between, _, rfl, hmade, Or.inr ⟨?_, ?_⟩⟩
    · rcases hresult with ⟨-, hstands⟩ | ⟨f, hf⟩
      · exact hstands
      · cases hf
    · cases hsubmits with
      | refused h =>
        refine ⟨_, rfl, Or.inl ⟨⟨_, rfl⟩, fun operation _ _ hcontent => ?_⟩⟩
        rw [h] at hcontent
        cases hcontent
      | rejected h hrejected =>
        refine ⟨_, rfl, Or.inl ⟨⟨_, rfl⟩, fun operation _ _ hcontent hhands => ?_⟩⟩
        rw [h] at hcontent
        cases hcontent
        rw [rejection?_eq_none_iff.mpr hhands.accepted] at hrejected
        cases hrejected
      | nameless h hnameless =>
        refine ⟨_, rfl, Or.inl ⟨⟨_, rfl⟩, fun operation _ _ hcontent => ?_⟩⟩
        rw [h] at hcontent
        cases hcontent
        exact hnameless _ _
      | submitted h hhands => exact ⟨_, rfl, Or.inr ⟨_, _, _, h, hhands, rfl⟩⟩

end Account

end Fleet
