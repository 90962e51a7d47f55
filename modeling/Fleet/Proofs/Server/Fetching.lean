import Fleet.Proofs.Cloud.Exchanges
import Fleet.Proofs.Install.Attributes
import Fleet.Proofs.Server.Stages

/-!
# Fetching a snapshot

A poll sends one request, and what becomes of it is decided by the token that can be had for it and
by the response.  The response is read as a snapshot, and the state that the snapshot signals is
proposed; what was not found is an empty snapshot, and every failure proposes the failed state.

## Main definitions

- `World.snapshot`: the snapshot in the response to a fetch
- `polledState?`: the state that a poll proposes

## Main statements

- `Run.fetchSnapshot_result`: a fetch comes back with the snapshot in the response
- `Run.exists_step_of_polling`: a poll proposes the state that it has seen, and nothing else
-/

namespace Fleet

open Run World Stage

/-! ## §1 Responses -/

/-- The snapshot in an answer: it is empty if nothing was found. -/
def Answer.snapshot (request : Request) : Answer → Except Failure Json
  | .broken reason => .error (.unanswered request.method request.url reason)
  | .reply r =>
    match r.tooDeep? with
    | some container => .error (.fault (.nestedTooDeep container))
    | none =>
      if r.status == 404 then .ok (.obj [])
      else if Client.isSuccess r.status then
        (Client.content request r).bind fun resource =>
          (snapshotOfResource resource).mapError .fault
      else .error (Client.refusal r (Json.read? r.body))

namespace World

/-- The snapshot that a request for the guest attributes comes back with. -/
def snapshot (w : World) (request : Request) : Except Failure Json :=
  w.tokens.getToken.1.bind fun _ =>
    (w.network.respond request.method request.url).1.answer.snapshot request

end World

/-- The snapshot in an answer is that of its content, and empty if nothing was found. -/
theorem Answer.snapshot_eq (request : Request) (a : Answer) :
    a.snapshot request =
      match a.content request with
      | .ok resource => (snapshotOfResource resource).mapError .fault
      | .error f => if f.isNotFound then .ok (.obj []) else .error f := by
  cases a with
  | broken reason => rfl
  | reply r =>
    simp only [Answer.snapshot, Answer.content]
    cases r.tooDeep? with
    | some container => rfl
    | none =>
      cases hsuccess : Client.isSuccess r.status with
      | true =>
        simp only [Client.not_notFound_of_isSuccess hsuccess, Bool.false_eq_true, if_false, if_true]
        unfold Client.content
        cases r.body.isEmpty with
        | true => rfl
        | false => cases Json.read? r.body <;> rfl
      | false =>
        simp only [Bool.false_eq_true, if_false, Client.isNotFound_refusal]

namespace Run

variable {r : Run} {request : Request}

theorem response?_eq (hp : request.headers = .null) (r : Run) :
    r.response? request = r.world.response? request := by
  unfold Run.response? World.response?
  rcases hd : (r.server.client.dispatch request).outcome r.world with ⟨x, v⟩
  rcases r.server.client.dispatch_cases hp r.world with ⟨f, htoken, hx, -⟩ | ⟨token, htoken, hx, -⟩
  all_goals
    rw [hd] at hx
    cases hx
    rw [htoken]
    rfl

/-- What an exchange comes back with is decided by the token and the response. -/
theorem exchange_result (hp : request.headers = .null) (r : Run) :
    ((exchange request).outcome r).1 = r.world.tokens.getToken.1.bind fun _ =>
      (r.world.network.respond request.method request.url).1.answer.content request := by
  have hcases := r.server.client.dispatch_cases hp r.world
  rcases hd : (r.server.client.dispatch request).outcome r.world with ⟨x, v⟩
  rw [hd] at hcases
  have hsent : (ofCall (r.server.client.dispatch request)).outcome r =
      (x, { r with world := v }) := by
    rw [ofCall_outcome, hd]
  rw [exchange, outcome_server_bind]
  rcases hcases with ⟨f, htoken, rfl, -⟩ | ⟨token, htoken, rfl, -⟩ <;> rw [htoken]
  · rw [show Stage.outcome (_ >>= _) r = _ from run_bind_of_error hsent]
    rfl
  · rw [show Stage.outcome (_ >>= _) r = _ from run_bind_of_ok hsent]
    -- the installation may be called off in between, which does not change the response
    split <;> exact Client.read_result _ _

/-- The resource that an exchange comes back with is read as a snapshot, and what was not found is
an empty one. -/
theorem fetchSnapshot_of_exchange (r : Run) :
    (fetchSnapshot.outcome r).1 =
      match ((exchange r.server.attributesRequest).outcome r).1 with
      | .ok resource => (snapshotOfResource resource).mapError .fault
      | .error f => if f.isNotFound then .ok (.obj []) else .error f := by
  let lookUp : Stage Json := tryCatch (exchange r.server.attributesRequest) fun f =>
    if f.isNotFound then pure .null else throw f
  let read (resource : Json) : Stage Json := ofFault (snapshotOfResource resource)
  rw [fetchSnapshot, outcome_server_bind]
  show (Stage.outcome (lookUp >>= read) r).1 = _
  have hread {resource : Json} {m : Run} (h : lookUp.outcome r = (.ok resource, m)) :
      (Stage.outcome (lookUp >>= read) r).1 = (snapshotOfResource resource).mapError .fault := by
    have hbind : Stage.outcome (lookUp >>= read) r = (read resource).outcome m := run_bind_of_ok h
    rw [hbind]
    exact congrArg Prod.fst (run_ofExcept _ m)
  rcases hx : (exchange r.server.attributesRequest).outcome r with ⟨f | resource, m⟩
  · have hcaught : lookUp.outcome r =
        Stage.outcome (if f.isNotFound then pure .null else throw f) m := run_tryCatch_of_error hx
    cases hf : f.isNotFound with
    | true =>
      rw [hf] at hcaught
      rw [hread hcaught]
      simp only [hf]
      rfl
    | false =>
      rw [hf] at hcaught
      have hbind : Stage.outcome (lookUp >>= read) r = (.error f, m) := run_bind_of_error hcaught
      rw [hbind]
      simp only [hf]
      rfl
  · exact hread (run_tryCatch_of_ok hx)

theorem fetchSnapshot_result (r : Run) :
    (fetchSnapshot.outcome r).1 = r.world.snapshot r.server.attributesRequest := by
  rw [fetchSnapshot_of_exchange, exchange_result rfl, World.snapshot]
  cases htoken : r.world.tokens.getToken.1 with
  | error f =>
    -- a failure to obtain a token does not say that nothing was found
    simp only [Except.bind, TokenStore.not_notFound_of_getToken htoken]
    rfl
  | ok token => exact (Answer.snapshot_eq _ _).symm

end Run

/-! ## §2 Polls -/

/-- The state that a poll proposes: the one that the snapshot signals, or the failed one if there is
no snapshot or its endpoint cannot be made. -/
def polledState? : Except Failure Json → Option InstallState
  | .error _ => some .failed
  | .ok snapshot =>
    match signalledState snapshot with
    | .error _ => some .failed
    | .ok (some .completed) =>
      match ManagementEndpoint.ofSnapshot snapshot with
      | .error _ => some .failed
      | .ok _ => some .completed
    | .ok signalled => signalled

/-- The states that a poll can propose. -/
theorem polledState?_cases {result : Except Failure Json} {state : InstallState}
    (h : polledState? result = some state) :
    state = .completed ∨ state = .failed ∨ state = .certificateCreated ∨
      state = .instanceRunning := by
  unfold polledState? at h
  cases result with
  | error f =>
    cases h
    simp
  | ok snapshot =>
    simp only at h
    split at h
    · cases h
      simp
    · split at h <;> cases h <;> simp
    · rename_i signalled hsignalled
      rw [h] at hsignalled
      exact signalledState_cases hsignalled

namespace Run

variable {r : Run}

/-- The run after a state has been proposed, if there is one. -/
def enterIfAny (r : Run) (next : Option InstallState) (endpoint : Option ManagementEndpoint) :
    Run :=
  next.elim r fun next => (r.enter next endpoint).2

theorem enterIfAny_extends (r : Run) (next : Option InstallState)
    (endpoint : Option ManagementEndpoint) :
    r.world.Extends Event.Announces (r.enterIfAny next endpoint).world := by
  cases next with
  | none => exact .refl _
  | some next => exact enter_extends r next endpoint

/-- Entering a snapshot proposes the state that it signals, or fails. -/
theorem applySnapshot_polled (snapshot : Json) (m : Run) :
    let polled := polledState? (.ok snapshot)
    (∃ f, (applySnapshot snapshot).outcome m = (.error f, m) ∧ polled = some .failed) ∨
    ∃ endpoint, (applySnapshot snapshot).outcome m =
      (.ok (polled.any (·.isFinal)), m.enterIfAny polled endpoint) := by
  simp only [applySnapshot_outcome, polledState?]
  cases signalledState snapshot with
  | error fault => exact Or.inl ⟨_, rfl, rfl⟩
  | ok signalled =>
    cases signalled with
    | none => exact Or.inr ⟨none, rfl⟩
    | some state =>
      cases state with
      | completed =>
        -- a complete snapshot without an endpoint is a failure
        cases ManagementEndpoint.ofSnapshot snapshot with
        | error f => exact Or.inl ⟨f, rfl, rfl⟩
        | ok endpoint => exact Or.inr ⟨some endpoint, rfl⟩
      | _ => exact Or.inr ⟨none, rfl⟩

/-- A poll proposes the state that it has seen, and nothing else happens after the delivery of the
response. -/
theorem exists_step_of_polling {deadline : Option Float}
    (hphase : r.server.phase = .polling deadline) (hopen : r.server.install.closed = false) :
    let polled := polledState? (r.world.snapshot r.server.attributesRequest)
    ∃ m endpoint, Quiet (r.delivered r.server.attributesRequest) m ∧
      r.step = (m.enterIfAny polled endpoint).goTo
        (if polled.any (·.isFinal) then .finished else .pausing deadline) := by
  have hquiet := fetchSnapshot_quiet r
  have hresult : (fetchSnapshot.outcome r).1 = _ := fetchSnapshot_result r
  have hpoll := poll_outcome r
  rcases hfetch : fetchSnapshot.outcome r with ⟨result, m⟩
  rw [hfetch] at hquiet hresult hpoll
  obtain rfl : result = r.world.snapshot r.server.attributesRequest := hresult
  -- a poll that fails is logged and proposes the failed state
  have hfailed {f : Failure} (h : poll.outcome r = (.error f, m)) :
      ∃ m', Quiet (r.delivered r.server.attributesRequest) m' ∧
        r.step = ((m'.enter .failed none).2).goTo .finished := by
    refine ⟨_, trans_of Quiet hquiet (quiet_log m .error
      s!"Polling install state of server {m.server.id} failed: {f.message}"), ?_⟩
    simp only [step, hphase, pollOnce, hopen, h]
    rfl
  cases hsnapshot : r.world.snapshot r.server.attributesRequest with
  | error f =>
    rw [hsnapshot] at hpoll
    obtain ⟨m', hm', hstep⟩ := hfailed hpoll
    exact ⟨m', none, hm', hstep⟩
  | ok snapshot =>
    rw [hsnapshot] at hpoll
    rcases applySnapshot_polled snapshot m with ⟨f, houtcome, hpolled⟩ | ⟨endpoint, houtcome⟩
    · obtain ⟨m', hm', hstep⟩ := hfailed (hpoll.trans houtcome)
      rw [hpolled]
      exact ⟨m', none, hm', hstep⟩
    · refine ⟨m, endpoint, hquiet, ?_⟩
      simp only [step, hphase, pollOnce, hopen, hpoll.trans houtcome]
      cases (polledState? (.ok snapshot)).any (·.isFinal) <;> rfl

end Run

end Fleet
