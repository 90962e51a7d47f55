import Fleet.Proofs.Cloud.Exchanges

/-!
# What jobs do

To the outside a job pauses and exchanges requests for answers.  These dealings are read off the
journal and the network, and a property of them and of what the job comes to says in which order
they may follow each other.  Such properties are put together along the parts of a job: a part that
fails is the last one, and after any other the next part goes on with the same token.

## Main definitions

- `Dealing`, `World.dealingsSince`: a pause or an exchange, and those between two worlds
- `Lacks`: a request is not among some dealings
- `StopsAtFailure`: there are no dealings after an answer of failure
- `Job.Does token job P`: with the token, the dealings of the job and what it comes to have the
  property, and they stop at failures

## Main statements

- `Job.Does.bind`: a job fails with its first part, or it goes on with the second one
- `Job.does_execute_bind`: a job that begins with a request fails with the answer or goes on
-/

namespace Fleet

open World

/-! ## §1 Dealings -/

/-- What a job has to do with the outside: a pause, or a request and the answer to it. -/
inductive Dealing where
  | paused (time : Seconds)
  | exchanged (exchange : Exchange)

/-- The dealings of some events, given the network before them. -/
def Network.dealings : Network → List Event → List Dealing
  | _, [] => []
  | n, .requested sent :: events =>
    .exchanged ⟨sent.request, (n.respond sent.request.method sent.request.url).1.answer⟩ ::
      dealings (n.respond sent.request.method sent.request.url).2 events
  | n, .slept time :: events => .paused time :: dealings n events
  | n, .waited time :: events => .paused time :: dealings n events
  | n, _ :: events => dealings n events

/-- The dealings between two worlds, the oldest first. -/
def World.dealingsSince (w v : World) : List Dealing :=
  w.network.dealings (w.since v)

/-- Later dealings meet the network that the earlier requests have left. -/
theorem Network.dealings_append (n : Network) (events events' : List Event) :
    n.dealings (events ++ events') =
      n.dealings events ++ (n.after (events.filterMap Event.request?)).dealings events' := by
  induction events generalizing n with
  | nil => rfl
  | cons e events ih =>
    cases e with
    | requested sent =>
      calc n.dealings (.requested sent :: (events ++ events'))
        _ = .exchanged _ :: dealings _ (events ++ events') := rfl
        _ = _ := by
          rw [ih]
          rfl
    | slept time | waited time => exact congrArg (Dealing.paused time :: ·) (ih n)
    | entered state | reported state | logged level message => exact ih n

/-- Carrying out a request is no other dealing than its exchange. -/
theorem Network.dealings_of_serves {request : Request} {events : List Event}
    (hserves : ∀ e ∈ events, e.Serves (some request)) (n : Network) :
    n.dealings events = List.zipWith (fun q response => .exchanged ⟨q, response.answer⟩)
      (events.filterMap Event.request?) (n.responses (events.filterMap Event.request?)) := by
  induction events generalizing n with
  | nil => rfl
  | cons e events ih =>
    obtain ⟨he, hevents⟩ := List.forall_mem_cons.mp hserves
    cases e with
    | requested sent => exact congrArg (Dealing.exchanged _ :: ·) (ih hevents _)
    | logged level message => exact ih hevents n
    | _ => exact he.elim

namespace World

variable {token : String} {requests : List Request} {Q : Event → Prop} {u v w : World}

theorem dealingsSince_self (w : World) : w.dealingsSince w = [] := by
  rw [dealingsSince, since_self]
  rfl

/-- Later dealings follow, if the network has responded to the earlier requests and to no others. -/
theorem dealingsSince_append {P : Event → Prop} (h : w.Extends P v)
    (hnetwork : v.network = w.network.after (w.requestsSince v)) (h' : v.Extends Q u) :
    w.dealingsSince u = w.dealingsSince v ++ v.dealingsSince u := by
  rw [dealingsSince, since_trans h h', Network.dealings_append]
  show _ ++ Network.dealings (w.network.after (w.requestsSince v)) _ = _
  rw [← hnetwork]
  rfl

/-- After requests that were answered with success, the later dealings follow. -/
theorem dealingsSince_trans (h : w.Answered token requests v) (h' : v.Extends Q u) :
    w.dealingsSince u = w.dealingsSince v ++ v.dealingsSince u :=
  dealingsSince_append h.grows (h.requests_eq.symm ▸ h.network_eq) h'

/-- A request that is carried out is exchanged if there is a token for it. -/
theorem dealingsSince_execute (client : Client) {request : Request}
    (hp : request.headers = .null) (w : World) :
    w.dealingsSince ((client.execute request).outcome w).2 =
      (w.exchange? request).toList.map .exchanged := by
  have hserves : w.Extends (Event.Serves (some request)) ((client.execute request).outcome w).2 :=
    client.execute_extends request w
  have hsent : (w.since ((client.execute request).outcome w).2).filterMap Event.request? =
      (w.exchange? request).toList.map (·.request) := (client.execute_exchange hp w).1
  rw [dealingsSince, Network.dealings_of_serves fun _ => hserves.mem_since, hsent]
  unfold exchange? response?
  cases w.tokens.getToken.1 <;> rfl

end World

/-- The request is not among the dealings. -/
def Lacks (request : Request) (dealings : List Dealing) : Prop :=
  ∀ answer, Dealing.exchanged ⟨request, answer⟩ ∉ dealings

namespace Lacks

variable {request : Request} {dealings earlier later : List Dealing} {answer : Answer}

theorem nil : Lacks request [] :=
  fun _ => List.not_mem_nil

theorem cons {e : Exchange} (he : e.request ≠ request) (h : Lacks request dealings) :
    Lacks request (.exchanged e :: dealings) := by
  intro answer hmem
  rcases List.mem_cons.mp hmem with heq | hmem
  · cases heq
    exact he rfl
  · exact h answer hmem

/-- A request that the earlier dealings lack is among the later ones. -/
theorem exists_of_append_eq {rest : List Dealing} (h : Lacks request dealings)
    (heq : dealings ++ later = earlier ++ .exchanged ⟨request, answer⟩ :: rest) :
    ∃ between, earlier = dealings ++ between ∧
      later = between ++ .exchanged ⟨request, answer⟩ :: rest := by
  rcases List.append_eq_append_iff.mp heq with hlater | ⟨between, hdealings, hrest⟩
  · exact hlater
  · cases between with
    | nil =>
      refine ⟨[], ?_, hrest.symm⟩
      rw [hdealings, List.append_nil, List.append_nil]
    | cons first between =>
      obtain ⟨rfl, -⟩ := List.cons.inj hrest
      exact absurd (hdealings ▸ List.mem_append_right _ List.mem_cons_self) (h answer)

end Lacks

/-! ## §2 Stopping at failures -/

/-- An answer of failure is the last dealing, and its failure is what it all comes to. -/
def StopsAtFailure {α : Type} (dealings : List Dealing) (result : Except Halt α) : Prop :=
  ∀ earlier e later, dealings = earlier ++ .exchanged e :: later →
    ∀ f, e.content = .error f → later = [] ∧ result = .error (.failure f)

namespace StopsAtFailure

variable {α β : Type} {dealings later : List Dealing}

theorem nil (result : Except Halt α) : StopsAtFailure [] result := by
  intro earlier e later h
  cases (List.nil_eq_append_iff.mp h).2

theorem paused (time : Seconds) (result : Except Halt α) :
    StopsAtFailure [.paused time] result := by
  intro earlier e later h
  obtain ⟨-, h⟩ | ⟨-, h⟩ := List.singleton_eq_append_iff.mp h <;> cases h

theorem exchanged (e : Exchange) :
    StopsAtFailure [.exchanged e] (e.content.mapError .failure) := by
  intro earlier e' later h f hf
  obtain ⟨-, h⟩ | ⟨-, h⟩ := List.singleton_eq_append_iff.mp h <;> cases h
  rw [hf]
  exact ⟨rfl, rfl⟩

/-- A failure stops whatever would have been made of a value. -/
theorem of_error {halt : Halt} (h : StopsAtFailure dealings (.error halt : Except Halt α)) :
    StopsAtFailure dealings (.error halt : Except Halt β) := by
  intro earlier e later heq f hf
  obtain ⟨hlater, hresult⟩ := h earlier e later heq f hf
  cases hresult
  exact ⟨hlater, rfl⟩

/-- What follows on a value stops at failures if both parts do. -/
theorem append {a : α} {result : Except Halt β} (h : StopsAtFailure dealings (.ok a))
    (h' : StopsAtFailure later result) : StopsAtFailure (dealings ++ later) result := by
  intro earlier e rest heq f hf
  rcases List.append_eq_append_iff.mp heq with ⟨between, -, hlater⟩ | ⟨between, hdealings, hrest⟩
  · exact h' between e rest hlater f hf
  · cases between with
    | nil => exact h' [] e rest hrest.symm f hf
    | cons dealing between =>
      -- the first dealings have led to a value, so there is no answer of failure among them
      obtain ⟨rfl, -⟩ := List.cons.inj hrest
      obtain ⟨-, hresult⟩ := h earlier e between hdealings f hf
      cases hresult

end StopsAtFailure

/-! ## §3 What a job does -/

/-- The dealings between two worlds and what they came to have the property and stop at failures. If
they came to a value, the requests were answered with success. -/
structure Job.Doing {α : Type} (token : String) (w v : World) (result : Except Halt α)
    (P : List Dealing → Except Halt α → Prop) : Prop where
  grows : w.Extends (fun _ => True) v
  fits : P (w.dealingsSince v) result
  stops : StopsAtFailure (w.dealingsSince v) result
  answered : ∀ a, result = .ok a → ∃ requests, w.Answered token requests v

/-- With the token, the dealings of the job and what it comes to have the property, and they stop at
failures. -/
def Job.Does {α : Type} (token : String) (job : Job α) (P : List Dealing → Except Halt α → Prop) :
    Prop :=
  ∀ w : World, w.tokens.getToken.1 = .ok token →
    Doing token w (job.outcome w).2 (job.outcome w).1 P

/-- Exactly these dealings, and exactly this result. -/
def Exactly {α : Type} (dealings : List Dealing) (result : Except Halt α) (found : List Dealing)
    (came : Except Halt α) : Prop :=
  found = dealings ∧ came = result

namespace Job

variable {α β : Type} {token : String} {job : Job α} {P : List Dealing → Except Halt α → Prop}
  {a : α} {f : α → Job β} {Q : List Dealing → Except Halt β → Prop}

theorem Does.mono {P' : List Dealing → Except Halt α → Prop} (h : job.Does token P)
    (hP : ∀ dealings result, P dealings result → P' dealings result) : job.Does token P' :=
  fun w htoken => { h w htoken with fits := hP _ _ (h w htoken).fits }

/-- A job stops with the failure of its first part, or the dealings of its rest follow. -/
theorem Does.bind (h : job.Does token P)
    (herror : ∀ dealings halt, P dealings (.error halt) → Q dealings (.error halt))
    (hok : ∀ dealings a, P dealings (.ok a) →
      (f a).Does token fun later result => Q (dealings ++ later) result) :
    Does token (job >>= f) Q := by
  intro w htoken
  have hfirst := h w htoken
  rcases hx : job.outcome w with ⟨halt | a, v⟩
  all_goals rw [hx] at hfirst
  · have houtcome : outcome (job >>= f) w = (.error halt, v) := run_bind_of_error hx
    rw [houtcome]
    exact
      { grows := hfirst.grows
        fits := herror _ halt hfirst.fits
        stops := hfirst.stops.of_error
        answered := nofun }
  · have houtcome : outcome (job >>= f) w = (f a).outcome v := run_bind_of_ok hx
    obtain ⟨requests, hanswered⟩ := hfirst.answered a rfl
    have hrest := hok _ a hfirst.fits v hanswered.token_eq
    rw [houtcome]
    have hdealings := dealingsSince_trans hanswered hrest.grows
    refine ⟨hfirst.grows.trans hrest.grows, ?_, ?_, fun b hb => ?_⟩
    · rw [hdealings]
      exact hrest.fits
    · rw [hdealings]
      exact hfirst.stops.append hrest.stops
    · obtain ⟨requests', hanswered'⟩ := hrest.answered b hb
      exact ⟨_, hanswered.trans hanswered'⟩

/-- After a part of which everything is known, the rest of the job follows. -/
theorem Does.bind_exactly {dealings : List Dealing} (h : job.Does token (Exactly dealings (.ok a)))
    (hrest : (f a).Does token fun later result => Q (dealings ++ later) result) :
    Does token (job >>= f) Q := by
  refine h.bind ?_ ?_
  · rintro _ halt ⟨-, hresult⟩
    cases hresult
  · rintro _ a' ⟨rfl, hresult⟩
    cases hresult
    exact hrest

/-- A part that fails is the last one. -/
theorem Does.bind_error {dealings : List Dealing} {halt : Halt}
    (h : job.Does token (Exactly dealings (.error halt))) :
    Does token (job >>= f) (Exactly dealings (.error halt)) := by
  refine h.bind ?_ ?_
  · rintro _ _ ⟨rfl, hresult⟩
    cases hresult
    exact ⟨rfl, rfl⟩
  · rintro _ a' ⟨-, hresult⟩
    cases hresult

/-- A job that leaves everything as it is has no dealings. -/
theorem does_nothing {result : Except Halt α} (h : ∀ w, job.outcome w = (result, w)) :
    job.Does token (Exactly [] result) := by
  intro w htoken
  have hnone : w.dealingsSince w = [] := dealingsSince_self w
  rw [h]
  exact
    { grows := .refl w
      fits := ⟨hnone, rfl⟩
      stops := hnone ▸ .nil _
      answered := fun _ _ => ⟨[], .refl htoken⟩ }

theorem does_pure (a : α) : Does token (pure a) (Exactly [] (.ok a)) :=
  does_nothing fun _ => rfl

theorem does_throw (halt : Halt) : Does token (throw halt : Job α) (Exactly [] (.error halt)) :=
  does_nothing fun _ => rfl

theorem does_ofCall {call : Call α} {x : Except Failure α} (h : ∀ w, call.outcome w = (x, w)) :
    (ofCall call).Does token (Exactly [] (x.mapError .failure)) :=
  does_nothing fun w => by rw [outcome_ofCall, h]

theorem does_ofFault (x : Except Fault α) :
    (ofFault x).Does token (Exactly [] ((x.mapError .fault).mapError .failure)) :=
  does_ofCall fun w => run_ofExcept _ w

/-- A job that begins with a possible fault fails with it, or goes on with the value. -/
theorem does_ofFault_bind (x : Except Fault α)
    (hfault : ∀ fault, x = .error fault → Q [] (.error (.failure (.fault fault))))
    (hok : ∀ a, x = .ok a → (f a).Does token Q) : Does token (ofFault x >>= f) Q := by
  cases x with
  | error fault =>
    refine (does_ofFault _).bind_error.mono ?_
    rintro _ _ ⟨rfl, rfl⟩
    exact hfault fault rfl
  | ok a => exact (does_ofFault _).bind_exactly (hok a rfl)

/-- The parts of a call are the parts of the job. -/
theorem ofCall_bind (x : Call α) (g : α → Call β) :
    ofCall (x >>= g) = ofCall x >>= fun a => ofCall (g a) := by
  funext w
  show (ofCall (x >>= g)).outcome w = (ofCall x >>= fun a => ofCall (g a)).outcome w
  rw [outcome_ofCall]
  rcases hx : x.outcome w with ⟨failure | a, v⟩
  · have hcall : Call.outcome (x >>= g) w = (.error failure, v) := run_bind_of_error hx
    rw [hcall]
    exact (run_bind_of_error (run_ofCall_of_error hx)).symm
  · have hcall : Call.outcome (x >>= g) w = (g a).outcome v := run_bind_of_ok hx
    have hjob : (ofCall x >>= fun a => ofCall (g a)).outcome w = (ofCall (g a)).outcome v :=
      run_bind_of_ok (run_ofCall_of_ok hx)
    rw [hcall, hjob, outcome_ofCall]

/-- What follows without dealings only makes something else of the value. -/
theorem Does.bind_nothing {g : α → β} (h : job.Does token P)
    (hf : ∀ a, (f a).Does token (Exactly [] (.ok (g a)))) :
    Does token (job >>= f) fun dealings result =>
      ∃ came, P dealings came ∧ result = came.map g := by
  refine h.bind (fun _ halt hP => ⟨.error halt, hP, rfl⟩) fun dealings a hP => ?_
  refine (hf a).mono ?_
  rintro _ _ ⟨rfl, rfl⟩
  exact ⟨.ok a, by rwa [List.append_nil], rfl⟩

theorem Does.discard (h : job.Does token P) :
    Does token (discard job) fun dealings result =>
      ∃ came, P dealings came ∧ result = came.map fun _ => () :=
  h.bind_nothing fun _ => does_pure ()

/-- An event that is no request is entered in the journal. -/
theorem does_record {e : Event} {dealings : List Dealing} (hrequest : e.request? = none)
    (hdealings : ∀ n : Network, n.dealings [e] = dealings)
    (hstops : StopsAtFailure dealings (.ok () : Except Halt Unit)) :
    Does token (modify (·.record e)) (Exactly dealings (.ok ())) := by
  intro w htoken
  have hremarks : w.Remarks (w.record e) := .record hrequest w
  have hsince : w.dealingsSince (w.record e) = dealings := by
    rw [dealingsSince, since_eq [e] rfl]
    exact hdealings _
  exact
    { grows := hremarks.grows.mono fun _ _ => trivial
      fits := ⟨hsince, rfl⟩
      stops := hsince.symm ▸ hstops
      answered := fun _ _ => ⟨[], (Answered.refl htoken).trans_remarks hremarks⟩ }

theorem does_sleep (time : Seconds) :
    Does token (modify (·.sleep time)) (Exactly [.paused time] (.ok ())) :=
  does_record rfl (fun _ => rfl) (.paused time _)

theorem does_log (level : Level) (message : String) :
    (log level message).Does token (Exactly [] (.ok ())) :=
  does_record rfl (fun _ => rfl) (.nil _)

/-- A request is exchanged for an answer, and what the answer says is what it comes to. -/
theorem does_execute (client : Client) {request : Request} (hp : request.headers = .null) :
    (ofCall (client.execute request)).Does token fun dealings result =>
      ∃ answer, Exactly [.exchanged ⟨request, answer⟩]
        ((answer.content request).mapError .failure) dealings result := by
  intro w htoken
  obtain ⟨hresult, -, hanswered⟩ := client.execute_reply hp htoken
  have hserves : w.Extends (Event.Serves (some request)) ((client.execute request).outcome w).2 :=
    client.execute_extends request w
  have hdealings := dealingsSince_execute client hp w
  let e : Exchange := ⟨request, (w.network.respond request.method request.url).1.answer⟩
  have he : w.exchange? request = some e := by
    unfold exchange? response?
    rw [htoken]
    rfl
  rw [he] at hdealings
  rw [outcome_ofCall]
  generalize (client.execute request).outcome w = outcome at *
  replace hdealings : w.dealingsSince outcome.2 = [.exchanged e] := hdealings
  have hcontent : outcome.1 = e.content := hresult
  refine ⟨hserves.mono fun _ _ => trivial, ⟨_, hdealings, ?_⟩, ?_, fun value hvalue => ?_⟩
  · rw [hcontent]
    rfl
  · rw [hdealings, hcontent]
    exact .exchanged e
  · refine ⟨[request], hanswered value ?_⟩
    cases hreply : outcome.1 <;> rw [hreply] at hvalue <;> cases hvalue
    rfl

/-- A job that begins with a request fails with its answer, or goes on with what the answer says. -/
theorem does_execute_bind (client : Client) {request : Request} (hp : request.headers = .null)
    {f : Json → Job β}
    (hfailed : ∀ answer failure, answer.content request = .error failure →
      Q [.exchanged ⟨request, answer⟩] (.error (.failure failure)))
    (hanswered : ∀ answer reply, answer.content request = .ok reply →
      (f reply).Does token fun later result => Q (.exchanged ⟨request, answer⟩ :: later) result) :
    Does token (ofCall (client.execute request) >>= f) Q := by
  refine (does_execute client hp).bind ?_ ?_
  · rintro _ halt ⟨answer, rfl, hresult⟩
    cases hcontent : answer.content request <;> rw [hcontent] at hresult <;> cases hresult
    exact hfailed answer _ hcontent
  · rintro _ reply ⟨answer, rfl, hresult⟩
    cases hcontent : answer.content request <;> rw [hcontent] at hresult <;> cases hresult
    exact hanswered answer reply hcontent

/-- Without a token it fails with that, and there are no dealings. -/
theorem execute_bind_of_no_token {w : World} {failure : Failure}
    (h : w.tokens.getToken.1 = .error failure) (client : Client) (request : Request)
    (f : Json → Job β) :
    let outcome := outcome (ofCall (client.execute request) >>= f) w
    outcome.1 = .error (.failure failure) ∧ w.dealingsSince outcome.2 = [] := by
  intro outcome
  let v := (Client.accessToken.outcome w).2
  have hexecute : (client.execute request).outcome w = (.error failure, v) :=
    client.execute_of_no_token request h
  have houtcome : outcome = (.error (.failure failure), v) :=
    run_bind_of_error (run_ofCall_of_error hexecute)
  have hserves : w.Extends (Event.Serves (some request)) v := Client.accessToken_extends _ w
  have hnone : (w.since v).filterMap Event.request? = [] :=
    requestsSince_of_serves_none (Client.accessToken_extends none w)
  rw [houtcome]
  refine ⟨rfl, ?_⟩
  rw [dealingsSince, Network.dealings_of_serves fun _ => hserves.mem_since, hnone]
  rfl

end Job

end Fleet
