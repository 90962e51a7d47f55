import Fleet.Account.Project
import Fleet.Proofs.Cloud.Dealings
import Fleet.Proofs.Cloud.Operations

/-!
# Projects are made step by step

A project is created, linked to a billing account and given its services, and after the first and
the last of these steps the platform has to be polled until it has finished.  Each step is taken
only after the one before it has succeeded, and the first failure is the end.

## Main definitions

- `Operation.Settles`: what a finished operation is worth
- `Client.Polls`: the dealings of polling an operation until it is done
- `Account.Finishes`, `Account.Configures`, `Account.Creates`: the dealings of each step and of the
  steps together, and what they come to
- `Account.HasFinished`: the last dealing has shown an operation done and without an error

## Main statements

- `Client.does_pollUntilDone`: polling pauses before every request and ends with the first reply
  that says that the operation is done
- `Creates.before_linking`, `Creates.before_enabling`, `Creates.hasFinished`: what has happened
  before a step is taken, and before a project comes back
- `Account.projects_are_made_in_order`: what creating a project and repairing one do
-/

namespace Fleet

open Job

/-! ## §1 Polls -/

/-- What a finished operation is worth: itself, or the failure of its error if it has one. -/
inductive Operation.Settles (operation name : Json) : Except Failure Json → Prop
  | done (h : ¬ operation.Has "error") : Settles operation name (.ok operation)
  | erred {error : Json} (h : operation.member? "error" = some error)
      (hshape : ∃ member members, error = .obj (member :: members)) :
      Settles operation name (.error (reported error name))
  /-- nothing can be told of an error of any other shape -/
  | unclear {error : Json} (h : operation.member? "error" = some error)
      (hpresent : error.truthy = true) (hshape : ∀ members, error ≠ .obj members) :
      Settles operation name (.error (.fault (.noOperation error.kind "get")))

namespace Client

variable {token : String} {interval : Seconds} {request : Request} {name : Json}

/-- The dealings of polling an operation at most so many times, and what they come to. -/
inductive Polls (interval : Seconds) (request : Request) (name : Json) :
    Nat → List Dealing → Except Halt Json → Prop
  /-- no reply has said that the operation is done -/
  | unfinished : Polls interval request name 0 [] (.error .unfinished)
  | failed {polls : Nat} {answer : Answer} {f : Failure} (h : answer.content request = .error f) :
      Polls interval request name (polls + 1) [.paused interval, .exchanged ⟨request, answer⟩]
        (.error (.failure f))
  /-- the operation goes on, whether it has an error already or not -/
  | again {polls : Nat} {answer : Answer} {members : List (String × Json)}
      {later : List Dealing} {result : Except Halt Json}
      (h : answer.content request = .ok (.obj members))
      (hgoing : ¬ (Json.obj members).Has "done")
      (hlater : Polls interval request name polls later result) :
      Polls interval request name (polls + 1)
        (.paused interval :: .exchanged ⟨request, answer⟩ :: later) result
  | settled {polls : Nat} {answer : Answer} {members : List (String × Json)}
      {result : Except Failure Json} (h : answer.content request = .ok (.obj members))
      (hdone : (Json.obj members).Has "done")
      (hsettles : Operation.Settles (.obj members) name result) :
      Polls interval request name (polls + 1) [.paused interval, .exchanged ⟨request, answer⟩]
        (result.mapError .failure)
  /-- what is no object is no operation -/
  | unclear {polls : Nat} {answer : Answer} {reply : Json} (h : answer.content request = .ok reply)
      (hshape : ∀ members, reply ≠ .obj members) :
      Polls interval request name (polls + 1) [.paused interval, .exchanged ⟨request, answer⟩]
        (.error (.failure (.fault (.noOperation reply.kind "get"))))

/-- What a finished operation is worth is decided by its error. -/
theorem polled_outcome (members : List (String × Json)) (name : Json) (w : World) :
    let error := ((Json.obj members).member? "error").getD .null
    (polled (.obj members) name).outcome w =
      (if error.truthy then ((Operation.failureOf error name).mapError .fault).bind .error
        else .ok (.obj members), w) := by
  intro error
  refine (run_bind_of_ok (a := error) (t := w) rfl).trans ?_
  split
  · cases Operation.failureOf error name <;> rfl
  · rfl

/-- A finished operation is settled at once. -/
theorem exists_settles (members : List (String × Json)) (name : Json) :
    ∃ result, Operation.Settles (.obj members) name result ∧
      ∀ w, (polled (.obj members) name).outcome w = (result, w) := by
  refine ⟨_, ?_, polled_outcome members name⟩
  by_cases herror : (Json.obj members).Has "error"
  · obtain ⟨error, hmember, hpresent⟩ := herror
    rw [hmember, Option.getD_some, if_pos hpresent]
    cases error with
    | obj errors =>
      cases errors with
      | nil => cases hpresent
      | cons first rest =>
        rw [Operation.failureOf_obj]
        exact .erred hmember ⟨first, rest, rfl⟩
    | _ => exact .unclear hmember hpresent nofun
  · rw [if_neg (mt Json.truthy_member?_iff.mp herror)]
    exact .done herror

/-- Polling pauses before every request and ends with the first reply by which it is done. -/
theorem does_pollUntilDone (client : Client) (hp : request.headers = .null) (polls : Nat) :
    (pollUntilDone (client.execute request) name interval polls).Does token
      (Polls interval request name polls) := by
  induction polls with
  | zero =>
    refine (does_throw .unfinished).mono ?_
    rintro _ _ ⟨rfl, rfl⟩
    exact .unfinished
  | succ polls ih =>
    rw [pollUntilDone]
    refine (does_sleep interval).bind_exactly ?_
    refine does_execute_bind client hp (fun _ _ => .failed) fun answer reply hcontent => ?_
    cases reply with
    | obj members =>
      refine (does_ofFault _).bind_exactly ?_
      split
      next hdone =>
        obtain ⟨result, hsettles, hpolled⟩ := exists_settles members name
        refine (does_ofCall hpolled).mono ?_
        rintro _ _ ⟨rfl, rfl⟩
        exact .settled hcontent (Json.truthy_member?_iff.mp hdone) hsettles
      next hgoing =>
        exact ih.mono fun later result => .again hcontent (mt Json.truthy_member?_iff.mpr hgoing)
    | _ =>
      refine (does_ofFault _).bind_error.mono ?_
      rintro _ _ ⟨rfl, rfl⟩
      exact .unclear hcontent nofun

/-- Whatever is requested while polling is the operation. -/
theorem Polls.request_eq {polls : Nat} {dealings : List Dealing} {result : Except Halt Json}
    (h : Polls interval request name polls dealings result) {e : Exchange}
    (he : .exchanged e ∈ dealings) : e.request = request := by
  induction h with
  | unfinished => cases he
  | failed | settled | unclear =>
    obtain rfl : e = ⟨request, _⟩ := by simpa using he
    rfl
  | again _ _ _ ih =>
    simp only [List.mem_cons, reduceCtorEq, false_or, Dealing.exchanged.injEq] at he
    rcases he with rfl | he
    · rfl
    · exact ih he

/-- Polling comes to an operation only if the last reply has shown it done and without an error. -/
theorem Polls.exists_last {polls : Nat} {dealings : List Dealing} {operation : Json}
    (h : Polls interval request name polls dealings (.ok operation)) :
    ∃ earlier answer, dealings = earlier ++ [.exchanged ⟨request, answer⟩] ∧
      answer.content request = .ok operation ∧ operation.Has "done" ∧ ¬ operation.Has "error" := by
  generalize hresult : Except.ok operation = result at h
  induction h with
  | unfinished | failed | unclear => cases hresult
  | again _ _ _ ih =>
    obtain ⟨earlier, answer, rfl, hlast⟩ := ih hresult
    exact ⟨_ :: _ :: earlier, answer, rfl, hlast⟩
  | settled h hdone hsettles =>
    cases hsettles <;> cases hresult
    exact ⟨[.paused interval], _, rfl, h, hdone, ‹_›⟩

end Client

/-! ## §2 Steps -/

namespace Account

variable {token : String}

/-- The dealings of waiting until the operation that a reply names is done. -/
inductive Finishes (polls : Nat) (fetch : String → Request) (reply : Json) :
    List Dealing → Except Halt Unit → Prop
  | nameless {fault : Fault} (h : reply.part "name" = .error fault) :
      Finishes polls fetch reply [] (.error (.failure (.fault fault)))
  | polled {name : Json} {dealings : List Dealing} {result : Except Halt Json}
      (h : reply.member? "name" = some name)
      (hpolls : Client.Polls operationPollInterval (fetch name.text) name polls dealings result) :
      Finishes polls fetch reply dealings (result.map fun _ => ())

/-- The request that switches the services of a project on. -/
def enabling (project : String) : Request :=
  Client.enableServices project (.obj [("serviceIds", .arr (requiredServices.map .str))])

/-- The request that links a project to a billing account. -/
def linking (project billing : String) : Request :=
  Client.updateBillingInfo project (billingData project billing)

/-- The dealings of configuring a project. -/
inductive Configures (polls : Nat) (project billing : String) :
    List Dealing → Except Halt Unit → Prop
  | unlinked {answer : Answer} {f : Failure}
      (h : answer.content (linking project billing) = .error f) :
      Configures polls project billing [.exchanged ⟨linking project billing, answer⟩]
        (.error (.failure f))
  | refused {answer answer' : Answer} {reply : Json} {f : Failure}
      (h : answer.content (linking project billing) = .ok reply)
      (h' : answer'.content (enabling project) = .error f) :
      Configures polls project billing
        [.exchanged ⟨linking project billing, answer⟩, .exchanged ⟨enabling project, answer'⟩]
        (.error (.failure f))
  | enabled {answer answer' : Answer} {reply operation : Json} {dealings : List Dealing}
      {result : Except Halt Unit}
      (h : answer.content (linking project billing) = .ok reply)
      (h' : answer'.content (enabling project) = .ok operation)
      (hfinishes : Finishes polls Client.getServiceOperation operation dealings result) :
      Configures polls project billing
        (.exchanged ⟨linking project billing, answer⟩ ::
          .exchanged ⟨enabling project, answer'⟩ :: dealings) result

/-- The dealings of creating a project. -/
inductive Creates (polls : Nat) (project billing : String) :
    List Dealing → Except Halt Project → Prop
  | refused {answer : Answer} {f : Failure}
      (h : answer.content (Client.createProject (projectData project)) = .error f) :
      Creates polls project billing
        [.exchanged ⟨Client.createProject (projectData project), answer⟩] (.error (.failure f))
  | unfinished {answer : Answer} {operation : Json} {dealings : List Dealing} {halt : Halt}
      (h : answer.content (Client.createProject (projectData project)) = .ok operation)
      (hfinishes :
        Finishes polls Client.getProjectOperation operation dealings (.error halt)) :
      Creates polls project billing
        (.exchanged ⟨Client.createProject (projectData project), answer⟩ :: dealings) (.error halt)
  | created {answer : Answer} {operation : Json} {dealings later : List Dealing}
      {result : Except Halt Unit}
      (h : answer.content (Client.createProject (projectData project)) = .ok operation)
      (hfinishes : Finishes polls Client.getProjectOperation operation dealings (.ok ()))
      (hconfigures : Configures polls project billing later result) :
      Creates polls project billing
        (.exchanged ⟨Client.createProject (projectData project), answer⟩ :: (dealings ++ later))
        (result.map fun _ => { id := .str project, name := .str projectName })

/-! ## §3 The order of the steps -/

/-- The last dealing has shown an operation that is done and has no error. -/
def HasFinished (fetch : String → Request) (dealings : List Dealing) : Prop :=
  ∃ earlier name answer operation, dealings = earlier ++ [.exchanged ⟨fetch name, answer⟩] ∧
    answer.content (fetch name) = .ok operation ∧ operation.Has "done" ∧ ¬ operation.Has "error"

variable {polls : Nat} {fetch : String → Request} {request : Request} {reply : Json}
  {project billing : String} {dealings earlier later : List Dealing} {answer : Answer}

theorem HasFinished.append (h : HasFinished fetch later) (earlier : List Dealing) :
    HasFinished fetch (earlier ++ later) := by
  obtain ⟨between, name, answer, operation, rfl, hlast⟩ := h
  exact ⟨earlier ++ between, name, answer, operation, (List.append_assoc ..).symm, hlast⟩

/-- Nothing but what the operation is fetched with is requested until it is done. -/
theorem Finishes.lacks {result : Except Halt Unit} (h : Finishes polls fetch reply dealings result)
    (hfetch : ∀ name, (fetch name).method = "GET") (hrequest : request.method ≠ "GET") :
    Lacks request dealings := by
  intro answer hmem
  cases h with
  | nameless => cases hmem
  | polled _ hpolls =>
    have hequal : request = fetch _ := hpolls.request_eq hmem
    exact hrequest (hequal ▸ hfetch _)

theorem Finishes.hasFinished (h : Finishes polls fetch reply dealings (.ok ())) :
    HasFinished fetch dealings := by
  generalize hresult : Except.ok () = result at h
  cases h with
  | nameless => cases hresult
  | @polled name _ result _ hpolls =>
    cases result with
    | error halt => cases hresult
    | ok operation =>
      obtain ⟨earlier, answer, hdealings, hlast⟩ := hpolls.exists_last
      exact ⟨earlier, name.text, answer, operation, hdealings, hlast⟩

theorem method_linking_ne : (linking project billing).method ≠ "GET" :=
  show "PUT" ≠ "GET" by decide

theorem method_enabling_ne : (enabling project).method ≠ "GET" :=
  show "POST" ≠ "GET" by decide

theorem linking_ne_enabling : linking project billing ≠ enabling project :=
  mt (congrArg Request.method) (show "PUT" ≠ "POST" by decide)

theorem createProject_ne_linking :
    Client.createProject (projectData project) ≠ linking project billing :=
  mt (congrArg Request.method) (show "POST" ≠ "PUT" by decide)

/-- Both are sent with the same method, but only one of them lists services. -/
theorem createProject_ne_enabling :
    Client.createProject (projectData project) ≠ enabling project := by
  intro h
  have hservices : none = some (Json.arr (requiredServices.map .str)) :=
    congrArg (fun q => q.body.member? "serviceIds") h
  cases hservices

/-- The first request of a configuration is that of the link, and it is not made again. -/
theorem Configures.before_linking {result : Except Halt Unit}
    (h : Configures polls project billing dealings result)
    (heq : dealings = earlier ++ .exchanged ⟨linking project billing, answer⟩ :: later) :
    earlier = [] := by
  obtain ⟨answer', rest, hfirst, hlacks⟩ : ∃ answer' rest,
      dealings = .exchanged ⟨linking project billing, answer'⟩ :: rest ∧
        Lacks (linking project billing) rest := by
    cases h with
    | unlinked => exact ⟨_, _, rfl, .nil⟩
    | refused => exact ⟨_, _, rfl, .cons linking_ne_enabling.symm .nil⟩
    | enabled _ _ hfinishes =>
      have hpolls : Lacks (linking project billing) _ :=
        hfinishes.lacks (fun _ => rfl) method_linking_ne
      exact ⟨_, _, rfl, .cons linking_ne_enabling.symm hpolls⟩
  rw [hfirst] at heq
  exact ((List.append_cons_inj_of_notMem List.not_mem_nil (hlacks answer)).mp heq).1.symm

/-- The services are enabled right after the link has succeeded. -/
theorem Configures.before_enabling {result : Except Halt Unit}
    (h : Configures polls project billing dealings result)
    (heq : dealings = earlier ++ .exchanged ⟨enabling project, answer⟩ :: later) :
    ∃ answer reply, earlier = [.exchanged ⟨linking project billing, answer⟩] ∧
      answer.content (linking project billing) = .ok reply := by
  have hlink (answer' : Answer) :
      Lacks (enabling project) [.exchanged ⟨linking project billing, answer'⟩] :=
    .cons linking_ne_enabling .nil
  have hmem : Dealing.exchanged ⟨enabling project, answer⟩ ∈ dealings :=
    heq ▸ List.mem_append_right _ List.mem_cons_self
  obtain ⟨answer', reply, answer'', rest, hsecond, hlinked, hlacks⟩ : ∃ answer' reply answer'' rest,
      dealings = [.exchanged ⟨linking project billing, answer'⟩] ++
        .exchanged ⟨enabling project, answer''⟩ :: rest ∧
      answer'.content (linking project billing) = .ok reply ∧ Lacks (enabling project) rest := by
    cases h with
    | unlinked => exact absurd hmem (hlink _ answer)
    | refused hlinked => exact ⟨_, _, _, _, rfl, hlinked, .nil⟩
    | enabled hlinked _ hfinishes =>
      exact ⟨_, _, _, _, rfl, hlinked, hfinishes.lacks (fun _ => rfl) method_enabling_ne⟩
  rw [hsecond] at heq
  obtain ⟨hearlier, -⟩ :=
    (List.append_cons_inj_of_notMem (hlink answer' answer) (hlacks answer)).mp heq
  exact ⟨answer', reply, hearlier.symm, hlinked⟩

theorem Configures.hasFinished (h : Configures polls project billing dealings (.ok ())) :
    HasFinished Client.getServiceOperation dealings := by
  cases h with
  | @enabled answer answer' _ _ dealings _ _ _ hfinishes =>
    exact hfinishes.hasFinished.append
      [.exchanged ⟨linking project billing, answer⟩, .exchanged ⟨enabling project, answer'⟩]

/-- The dealings of creating a project are those up to the end of its creation and, if it has been
created, those of its configuration. -/
theorem Creates.exists_parts {result : Except Halt Project}
    (h : Creates polls project billing dealings result) :
    ∃ creating configuring, dealings = creating ++ configuring ∧
      (∀ request, Client.createProject (projectData project) ≠ request →
        request.method ≠ "GET" → Lacks request creating) ∧
      (configuring = [] ∨ HasFinished Client.getProjectOperation creating ∧
        ∃ came, Configures polls project billing configuring came) := by
  cases h with
  | refused =>
    exact ⟨_, [], (List.append_nil _).symm, fun _ hother _ => .cons hother .nil, Or.inl rfl⟩
  | unfinished _ hfinishes =>
    exact ⟨_, [], (List.append_nil _).symm,
      fun _ hother hmethod => .cons hother (hfinishes.lacks (fun _ => rfl) hmethod), Or.inl rfl⟩
  | @created answer _ creating configuring _ _ hfinishes hconfigures =>
    exact ⟨.exchanged ⟨_, answer⟩ :: creating, configuring, rfl,
      fun _ hother hmethod => .cons hother (hfinishes.lacks (fun _ => rfl) hmethod),
      Or.inr ⟨hfinishes.hasFinished.append [_], _, hconfigures⟩⟩

/-- A project is linked only after it has been created. -/
theorem Creates.before_linking {result : Except Halt Project}
    (h : Creates polls project billing dealings result)
    (heq : dealings = earlier ++ .exchanged ⟨linking project billing, answer⟩ :: later) :
    HasFinished Client.getProjectOperation earlier := by
  obtain ⟨creating, configuring, rfl, hlacks, hparts⟩ := h.exists_parts
  obtain ⟨between, rfl, hlater⟩ :=
    (hlacks _ createProject_ne_linking method_linking_ne).exists_of_append_eq heq
  rcases hparts with rfl | ⟨hfinished, came, hconfigures⟩
  · cases (List.nil_eq_append_iff.mp hlater).2
  · rw [hconfigures.before_linking hlater, List.append_nil]
    exact hfinished

/-- Its services are enabled only after it has been linked. -/
theorem Creates.before_enabling {result : Except Halt Project}
    (h : Creates polls project billing dealings result)
    (heq : dealings = earlier ++ .exchanged ⟨enabling project, answer⟩ :: later) :
    ∃ before answer reply, earlier = before ++ [.exchanged ⟨linking project billing, answer⟩] ∧
      answer.content (linking project billing) = .ok reply := by
  obtain ⟨creating, configuring, rfl, hlacks, hparts⟩ := h.exists_parts
  obtain ⟨between, rfl, hlater⟩ :=
    (hlacks _ createProject_ne_enabling method_enabling_ne).exists_of_append_eq heq
  rcases hparts with rfl | ⟨-, came, hconfigures⟩
  · cases (List.nil_eq_append_iff.mp hlater).2
  · obtain ⟨answer, reply, rfl, hlinked⟩ := hconfigures.before_enabling hlater
    exact ⟨creating, answer, reply, rfl, hlinked⟩

/-- A project comes back only after its services have been enabled. -/
theorem Creates.hasFinished {made : Project}
    (h : Creates polls project billing dealings (.ok made)) :
    HasFinished Client.getServiceOperation dealings := by
  generalize hresult : Except.ok made = result at h
  cases h with
  | refused | unfinished => cases hresult
  | @created answer _ dealings _ result _ _ hconfigures =>
    cases result with
    | error halt => cases hresult
    | ok => exact hconfigures.hasFinished.append (.exchanged ⟨_, answer⟩ :: dealings)

/-! ## §4 Creating and repairing -/

theorem does_finishOperation (account : Account) (polls : Nat) {fetch : String → Request}
    (hp : ∀ name, (fetch name).headers = .null) (reply : Json) :
    (account.finishOperation polls fetch reply).Does token (Finishes polls fetch reply) := by
  unfold finishOperation
  refine does_ofFault_bind _ (fun fault => .nameless) fun name hname => ?_
  refine (Client.does_pollUntilDone account.client (hp _) polls).discard.mono ?_
  rintro dealings _ ⟨result, hpolls, rfl⟩
  exact .polled (Json.part_eq_ok_iff.mp hname) hpolls

theorem does_configureProject (account : Account) (polls : Nat) (project billing : String) :
    (account.configureProject polls project billing).Does token
      (Configures polls project billing) := by
  unfold configureProject
  rw [discard_bind]
  refine does_execute_bind account.client rfl (fun _ _ => .unlinked) fun answer reply hlinked => ?_
  refine does_execute_bind account.client rfl (fun _ _ => .refused hlinked)
    fun answer' operation henabled => ?_
  refine ((does_finishOperation account polls (fun _ => rfl) operation).bind_nothing
    fun _ => does_log _ _).mono ?_
  rintro dealings _ ⟨result, hfinishes, rfl⟩
  rw [show result.map _ = result by cases result <;> rfl]
  exact .enabled hlinked henabled hfinishes

/-- Without a token nothing is configured. -/
theorem configureProject_of_no_token (account : Account) (polls : Nat) (project billing : String)
    {w : World} {f : Failure} (h : w.tokens.getToken.1 = .error f) :
    let outcome := (account.configureProject polls project billing).outcome w
    outcome.1 = .error (.failure f) ∧ w.dealingsSince outcome.2 = [] := by
  unfold configureProject
  rw [discard_bind]
  exact execute_bind_of_no_token h account.client (linking project billing) _

theorem does_createProject (account : Account) (polls : Nat) (project billing : String) :
    (account.createProject polls project billing).Does token
      (Creates polls project billing) := by
  unfold createProject
  refine does_execute_bind account.client rfl (fun _ _ => .refused)
    fun answer operation hanswer => ?_
  refine (does_finishOperation account polls (fun _ => rfl) operation).bind ?_ ?_
  · intro dealings halt hfinishes
    exact .unfinished hanswer hfinishes
  · intro dealings _ hfinishes
    refine (does_log _ _).bind_exactly ?_
    refine ((does_configureProject account polls project billing).bind_nothing
      fun _ => does_pure _).mono ?_
    rintro later _ ⟨result, hconfigures, rfl⟩
    exact .created hanswer hfinishes hconfigures

/-- What creating a project and repairing one do, whatever the network answers. -/
theorem projects_are_made_in_order (account : Account) (polls : Nat) (project billing : String)
    (w : World) :
    let created := (account.createProject polls project billing).outcome w
    let creating := w.dealingsSince created.2
    let repaired := (account.repairProject polls project billing).outcome w
    let repairing := w.dealingsSince repaired.2
    (∀ f, w.tokens.getToken.1 = .error f →
      created.1 = .error (.failure f) ∧ creating = [] ∧
      repaired.1 = .error (.failure f) ∧ repairing = []) ∧
    ∀ token, w.tokens.getToken.1 = .ok token →
      Creates polls project billing creating created.1 ∧ StopsAtFailure creating created.1 ∧
      -- billing is linked after the project has been created without an error
      (∀ earlier answer later,
        creating = earlier ++ .exchanged ⟨linking project billing, answer⟩ :: later →
        HasFinished Client.getProjectOperation earlier) ∧
      -- the services are enabled after the link has succeeded
      (∀ earlier answer later,
        creating = earlier ++ .exchanged ⟨enabling project, answer⟩ :: later →
        ∃ before answer reply, earlier = before ++ [.exchanged ⟨linking project billing, answer⟩] ∧
          answer.content (linking project billing) = .ok reply) ∧
      -- the project comes back after they have been enabled without an error
      (∀ made, created.1 = .ok made → HasFinished Client.getServiceOperation creating) ∧
      Configures polls project billing repairing repaired.1 ∧
      StopsAtFailure repairing repaired.1 := by
  intro created creating repaired repairing
  constructor
  · intro f htoken
    obtain ⟨hcreated, hnone⟩ := execute_bind_of_no_token htoken account.client
      (Client.createProject (projectData project)) _
    obtain ⟨hrepaired, hnone'⟩ := configureProject_of_no_token account polls project billing htoken
    exact ⟨hcreated, hnone, hrepaired, hnone'⟩
  · intro token htoken
    obtain ⟨-, hcreates, hstops, -⟩ := does_createProject account polls project billing w htoken
    obtain ⟨-, hconfigures, hstops', -⟩ :=
      does_configureProject account polls project billing w htoken
    refine ⟨hcreates, hstops, ?_, ?_, ?_, hconfigures, hstops'⟩
    · exact fun _ _ _ => hcreates.before_linking
    · exact fun _ _ _ => hcreates.before_enabling
    · intro made hmade
      rw [hmade] at hcreates
      exact hcreates.hasFinished

-- an error does not count before the operation is done, and afterwards it ends everything
example :
    let rule (urlPart : String) (bodies : List String) : Rule :=
      { urlPart, responses := bodies.map fun body => { answer := .reply { body } } }
    let w : World :=
      { network :=
          [rule "operations/p" ["\x7b\"error\": \x7b\"code\": 9\x7d\x7d", "\x7b\"done\": true\x7d"],
            rule "operations/s" ["\x7b\"done\": true, \"error\": \x7b\"code\": 7\x7d\x7d"],
            rule "batchEnable" ["\x7b\"name\": \"operations/s\"\x7d"],
            rule "projects" ["\x7b\"name\": \"operations/p\"\x7d"]]
        tokens := .make (some "token") none none none }
    let account : Account := { id := "account" }
    let outcome := (account.createProject 10 "project" "billing").outcome w
    let message : Option String :=
      match outcome.1 with
      | .error (.failure f) => some f.message
      | _ => none
    let methods := (w.requestsSince outcome.2).map Request.method
    message = some "Operation operations/s failed with 7: " ∧
      methods = ["POST", "GET", "GET", "PUT", "POST", "GET"] := by
  decide +kernel

end Account

end Fleet
