import Fleet.Proofs.Server.Changes

/-!
# The stages of provisioning

A phase sends at most one request, and before and after it only changes happen.  So every stage is
described by the way from the moment at which the response to its request is delivered; what the
deletion of the server at this moment means for the stage follows from that for all stages at once.

## Main definitions

- `Run.delivered`: the run at the moment at which a response is delivered
- `Run.Quiet r m`: from `r` to `m` nothing happens but log lines
- `Run.Receives request r m`: the way from `r` to `m` is the delivery of the response to a request
- `Run.Conveys q r m`: the way from `r` to `m` goes by way of the request `q`, if there is one
- `Run.request?`: the request that the next phase makes

## Main statements

- `Phase.setup?_conveys`, `poll_conveys`: the stages make the requests of their phases
-/

namespace Fleet

open Run World

/-! ## §1 Delivery -/

/-- The request for the guest attributes of a server. -/
def Server.attributesRequest (s : Server) : Request :=
  s.client.getGuestAttributes s.locator attributesNamespace

/-- The response that is on its way after a request has been sent from a run. -/
def Run.response? (r : Run) (request : Request) : Option Response :=
  match (r.server.client.dispatch request).outcome r.world with
  | (.ok delivery, _) => some delivery.response
  | (.error _, _) => none

/-- The run at the moment at which the response to a request is delivered. -/
def Run.delivered (r : Run) (request : Request) : Run :=
  let m := { r with world := ((r.server.client.dispatch request).outcome r.world).2 }
  if (r.response? request).any (·.cancels) then m.cancel else m

namespace Run

theorem evolves_log {P : Event → Prop} (hP : ∀ level message, P (.logged level message)) (r : Run)
    (level : Level) (message : String) : Evolves P r (r.log level message) :=
  evolves_world ⟨[.logged level message], rfl, by simp [hP, Event.state?]⟩

/-- Nothing happens but log lines. -/
def Quiet (r m : Run) : Prop :=
  m.server = r.server ∧ r.world.Extends (Event.Serves none) m.world

instance : IsPreorder Run Quiet where
  refl r := ⟨rfl, .refl r.world⟩
  trans _ _ _ h h' := ⟨h'.1.trans h.1, h.2.trans h'.2⟩

theorem Quiet.evolves {r m : Run} (h : Quiet r m) : Evolves (Event.Serves none) r m := by
  have hm : m = { r with world := m.world } := by rw [← h.1]
  rw [hm]
  exact evolves_world (h.2.mono fun _ he => ⟨he, he.state?_eq⟩)

theorem quiet_log (r : Run) (level : Level) (message : String) :
    Quiet r (r.log level message) :=
  ⟨rfl, .record trivial _⟩

/-- Until the response is delivered, the request is sent and perhaps the installation called
off. -/
theorem evolves_delivered (r : Run) (request : Request) :
    Evolves (Event.Serves (some request)) r (r.delivered request) := by
  have hsent : Evolves (Event.Serves (some request)) r
      { r with world := ((r.server.client.dispatch request).outcome r.world).2 } :=
    evolves_world ((r.server.client.dispatch_extends request r.world).mono fun _ he =>
      ⟨he, he.state?_eq⟩)
  unfold delivered
  split
  · exact hsent.trans (evolves_proceed _ .canceled)
  · exact hsent

/-- The way from a run to another one is the delivery of the response to a request: before it at
most a log line is written, and after it nothing happens but log lines. -/
def Receives (request : Request) (r m : Run) : Prop :=
  ∃ n, (n = r ∨ ∃ level message, n = r.log level message) ∧ Quiet (n.delivered request) m

/-- The way from a run to another one goes by way of a request, if one is given: at most a log
line is written before it is sent, and none is sent after it. -/
def Conveys (q : Option Request) (r m : Run) : Prop :=
  match q with
  | none => Evolves (Event.Serves none) r m
  | some request => ∃ n, (n = r ∨ ∃ level message, n = r.log level message) ∧
      Evolves (Event.Serves none) (n.delivered request) m

variable {q : Option Request} {r m m' : Run}

theorem Receives.conveys {request : Request} (h : Receives request r m) :
    Conveys (some request) r m := by
  obtain ⟨n, hn, hrest⟩ := h
  exact ⟨n, hn, hrest.evolves⟩

theorem Conveys.trans (h : Conveys q r m) (h' : Evolves (Event.Serves none) m m') :
    Conveys q r m' := by
  cases q with
  | none => exact Evolves.trans h h'
  | some request =>
    obtain ⟨n, hn, hrest⟩ := h
    exact ⟨n, hn, hrest.trans h'⟩

theorem Conveys.evolves (h : Conveys q r m) : Evolves (Event.Serves q) r m := by
  cases q with
  | none => exact h
  | some request =>
    obtain ⟨n, hn, hrest⟩ := h
    have hstart : Evolves (Event.Serves (some request)) r n := by
      rcases hn with rfl | ⟨level, message, rfl⟩
      · exact .refl _
      · exact evolves_log (fun _ _ => trivial) r level message
    exact (hstart.trans (evolves_delivered n request)).trans (hrest.mono fun _ he => he.weaken)

end Run

namespace Stage

variable {α β : Type}

/-- A stage begins with a look at the server of the run. -/
theorem outcome_server_bind (k : Server → Stage α) (r : Run) :
    (server >>= k).outcome r = (k r.server).outcome r := rfl

theorem outcome_log_bind (level : Level) (message : String) (k : Unit → Stage α) (r : Run) :
    (log level message >>= k).outcome r = (k ()).outcome (r.log level message) := rfl

theorem ofCall_outcome (call : Call α) (r : Run) :
    (ofCall call).outcome r =
      ((call.outcome r.world).1, { r with world := (call.outcome r.world).2 }) := rfl

theorem ofCall_quiet {call : Call α} (h : Within (Extends (Event.Serves none)) call) :
    Within Quiet (ofCall call) :=
  fun r => ⟨rfl, h r.world⟩

theorem log_quiet (level : Level) (message : String) : Within Quiet (log level message) :=
  .modify fun r => quiet_log r level message

theorem proceed_evolves (next : InstallState) :
    Within (Evolves (Event.Serves none)) (modify (·.proceed next) : Stage PUnit) :=
  .modify fun r => evolves_proceed r next

/-- After a response has been delivered it is only read. -/
theorem exchange_quiet (request : Request) (r : Run) :
    Quiet (r.delivered request) ((exchange request).outcome r).2 := by
  rw [exchange, outcome_server_bind]
  unfold delivered Run.response?
  rcases hd : (r.server.client.dispatch request).outcome r.world with ⟨f | delivery, w⟩
  · -- the request was not sent, so there is no response to read
    have hfail : (ofCall (r.server.client.dispatch request)).outcome r =
        (.error f, { r with world := w }) := by
      rw [ofCall_outcome, hd]
    rw [show Stage.outcome (_ >>= _) r = _ from run_bind_of_error hfail]
    exact refl_of Quiet _
  · have hsent : (ofCall (r.server.client.dispatch request)).outcome r =
        (.ok delivery, { r with world := w }) := by
      rw [ofCall_outcome, hd]
    rw [show Stage.outcome (_ >>= _) r = _ from run_bind_of_ok hsent]
    have hread := ofCall_quiet (Client.read_extends none delivery)
    -- the delivery may call the installation off; reading goes on from there
    by_cases hc : delivery.response.cancels = true
    · simp only [Option.any_some, hc, if_true]
      exact hread (cancel { r with world := w })
    · simp only [Option.any_some, hc]
      exact hread _

/-- What follows an exchange makes no further request. -/
theorem exchange_bind_receives {request : Request} {k : Json → Stage α}
    (hk : ∀ value, Within Quiet (k value)) (r : Run) :
    r.Receives request ((exchange request >>= k).outcome r).2 :=
  ⟨r, .inl rfl, Within.bind_from (exchange_quiet request r) hk⟩

end Stage

open Stage

/-! ## §2 The stages -/

theorem awaitInstance_outcome (r : Run) :
    awaitInstance.outcome r =
      match r.server.creation with
      | .error f => (.error f, r)
      | .ok () =>
        if r.server.install.closed then (.ok .settling, r)
        else (.ok .consultingAddress, r.proceed .instanceCreated) := by
  rw [awaitInstance, outcome_server_bind]
  cases hcreation : r.server.creation with
  | error f => exact run_bind_of_error rfl
  | ok created =>
    refine (run_bind_of_ok (s := r) (t := r) (a := ()) rfl).trans ?_
    split <;> rfl

theorem consultAddress_outcome (r : Run) :
    consultAddress.outcome r =
      match r.server.addressCheck with
      | .error f => (.error f, r)
      | .ok isStatic =>
        (.ok (if isStatic then .confirmingAddress else .describingInstance), r) := by
  rw [consultAddress, outcome_server_bind]
  cases hcheck : r.server.addressCheck with
  | error f => exact run_bind_of_error rfl
  | ok isStatic => exact (run_bind_of_ok (run_ofExcept _ _)).trans rfl

theorem confirmAddress_outcome (r : Run) :
    confirmAddress.outcome r =
      (.ok .settling, if r.server.install.closed then r else r.proceed .ipAllocated) := by
  rw [confirmAddress, outcome_server_bind]
  cases r.server.install.closed <;> rfl

theorem awaitInstance_conveys (r : Run) : r.Conveys none (awaitInstance.outcome r).2 := by
  rw [awaitInstance_outcome]
  split
  · exact Evolves.refl r
  · split
    · exact Evolves.refl r
    · exact evolves_proceed r _

theorem consultAddress_conveys (r : Run) : r.Conveys none (consultAddress.outcome r).2 := by
  rw [consultAddress_outcome]
  split <;> exact Evolves.refl r

theorem confirmAddress_conveys (r : Run) : r.Conveys none (confirmAddress.outcome r).2 := by
  rw [confirmAddress_outcome]
  split
  · exact Evolves.refl r
  · exact evolves_proceed r _

theorem describeInstance_receives (r : Run) :
    r.Receives (r.server.client.getInstance r.server.locator) (describeInstance.outcome r).2 := by
  rw [describeInstance, outcome_server_bind]
  apply exchange_bind_receives
  intro data
  split
  · exact .throw _
  · exact (Within.ofExcept _).bind fun region => (log_quiet _ _).bind fun _ =>
      (Within.ofExcept _).bind fun resource => .pure _

theorem reserveAddress_receives (region : RegionLocator) (resource : Json) (r : Run) :
    r.Receives (r.server.client.createAddress region resource)
      ((reserveAddress region resource).outcome r).2 := by
  rw [reserveAddress, outcome_server_bind]
  apply exchange_bind_receives
  intro operation
  refine Within.bind (.ofExcept _) fun errors => ?_
  split
  · exact .throw _
  · exact (Within.ofExcept _).bind fun name => .pure _

theorem awaitAddress_receives (region : RegionLocator) (name : Json) (r : Run) :
    r.Receives (r.server.client.waitRegionOperation region name.text)
      ((awaitAddress region name).outcome r).2 := by
  rw [awaitAddress, outcome_server_bind, outcome_log_bind]
  -- the wait is announced by a log line before the request is made
  refine ⟨_, .inr ⟨_, _, rfl⟩, Within.bind_from (exchange_quiet _ _) fun operation => ?_⟩
  refine (ofCall_quiet (Operation.checked_extends _ _)).discard.bind fun _ =>
    (Within.ofExcept _).bind fun done => ?_
  split
  · exact .pure _
  · exact (log_quiet _ _).bind fun _ => .pure _

theorem applySnapshot_evolves (attributes : Json) :
    Within (Evolves (Event.Serves none)) (applySnapshot attributes) := by
  refine Within.bind (.ofExcept _) fun signalled => ?_
  split
  · exact .pure _
  · exact (Within.ofExcept _).bind fun endpoint =>
      (Within.modify fun r => evolves_enter r _ _ fun _ => rfl).bind fun _ => .pure _
  · exact (proceed_evolves _).bind fun _ => .pure _

/-- After the response to a fetch has been delivered it is only read. -/
theorem fetchSnapshot_quiet (r : Run) :
    Quiet (r.delivered r.server.attributesRequest) (fetchSnapshot.outcome r).2 := by
  rw [fetchSnapshot, outcome_server_bind]
  refine Within.bind_from (Within.tryCatch_from (exchange_quiet _ r) fun f => ?_)
    fun resource => .ofExcept _
  -- nothing published yet is no failure
  split
  · exact .pure _
  · exact .throw _

theorem fetchSnapshot_receives (r : Run) :
    r.Receives r.server.attributesRequest (fetchSnapshot.outcome r).2 :=
  ⟨r, .inl rfl, fetchSnapshot_quiet r⟩

/-- The outcome of a poll: the snapshot is fetched and then entered. -/
theorem poll_outcome (r : Run) :
    poll.outcome r =
      match fetchSnapshot.outcome r with
      | (.ok attributes, m) => (applySnapshot attributes).outcome m
      | (.error f, m) => (.error f, m) := by
  rcases h : fetchSnapshot.outcome r with ⟨f | attributes, m⟩
  · exact run_bind_of_error h
  · exact run_bind_of_ok h

theorem poll_conveys (r : Run) :
    r.Conveys (some r.server.attributesRequest) (poll.outcome r).2 := by
  have hfetch := (fetchSnapshot_receives r).conveys
  rw [poll_outcome]
  rcases h : fetchSnapshot.outcome r with ⟨f | attributes, m⟩
  · rw [h] at hfetch
    exact hfetch
  · rw [h] at hfetch
    exact hfetch.trans (applySnapshot_evolves attributes m)

/-! ## §3 Phases -/

/-- The stage of a phase of the setup. -/
def Phase.setup? : Phase → Option (Stage Phase)
  | .awaitingInstance => some awaitInstance
  | .consultingAddress => some consultAddress
  | .describingInstance => some describeInstance
  | .reservingAddress region resource => some (reserveAddress region resource)
  | .awaitingAddress region operation => some (awaitAddress region operation)
  | .confirmingAddress => some confirmAddress
  | _ => none

/-- Whether a phase comes before the setup is settled. -/
def Phase.isSetup : Phase → Bool
  | .polling _ | .pausing _ | .finished => false
  | _ => true

/-- The request that the next phase may send. -/
def Run.request? (r : Run) : Option Request :=
  let s := r.server
  match s.phase with
  | .describingInstance => some (s.client.getInstance s.locator)
  | .reservingAddress region resource => some (s.client.createAddress region resource)
  | .awaitingAddress region operation => some (s.client.waitRegionOperation region operation.text)
  | .polling _ => if s.install.closed then none else some s.attributesRequest
  | _ => none

theorem Phase.isSetup_of_setup? {phase : Phase} {stage : Stage Phase}
    (h : phase.setup? = some stage) : phase.isSetup = true := by
  cases phase <;> first | rfl | cases h

/-- A stage of the setup leads to further phases of the setup only. -/
theorem Phase.setup?_returns {phase : Phase} {stage : Stage Phase} (h : phase.setup? = some stage) :
    Returns (fun next : Phase => next.isSetup = true) stage := by
  -- one case for every stage, in the order of the phases
  cases phase <;> cases h
  · refine Returns.bind fun s => .bind fun _ => ?_
    split
    · exact .pure rfl
    · exact .bind fun _ => .pure rfl
  · refine Returns.bind fun s => .bind fun isStatic => .pure ?_
    split <;> rfl
  · refine Returns.bind fun s => .bind fun data => ?_
    split
    · exact .throw _
    · exact .bind fun _ => .bind fun _ => .bind fun _ => .pure rfl
  · refine Returns.bind fun s => .bind fun operation => .bind fun errors => ?_
    split
    · exact .throw _
    · refine .bind fun name => .pure ?_
      split <;> rfl
  · refine Returns.bind fun s => .bind fun _ => .bind fun operation => .bind fun _ =>
      .bind fun done => ?_
    split
    · exact .pure rfl
    · exact .bind fun _ => .pure rfl
  · refine Returns.bind fun s => ?_
    split
    · exact .bind fun _ => .pure rfl
    · exact .pure rfl

/-- A stage of the setup makes the request of its phase. -/
theorem Phase.setup?_conveys {r : Run} {stage : Stage Phase}
    (h : r.server.phase.setup? = some stage) :
    r.Conveys r.request? (stage.outcome r).2 := by
  cases hp : r.server.phase <;> rw [hp] at h <;> cases h <;> simp only [Run.request?, hp]
  · exact awaitInstance_conveys r
  · exact consultAddress_conveys r
  · exact (describeInstance_receives r).conveys
  · exact (reserveAddress_receives _ _ r).conveys
  · exact (awaitAddress_receives _ _ r).conveys
  · exact confirmAddress_conveys r

/-! ## §4 Ends of installations -/

theorem applySnapshot_outcome (attributes : Json) (r : Run) :
    (applySnapshot attributes).outcome r =
      match signalledState attributes with
      | .error f => (.error (.fault f), r)
      | .ok none => (.ok false, r)
      | .ok (some .completed) =>
        match ManagementEndpoint.ofSnapshot attributes with
        | .error f => (.error f, r)
        | .ok endpoint => (.ok true, (r.enter .completed (some endpoint)).2)
      | .ok (some state) => (.ok state.isFinal, r.proceed state) := by
  unfold applySnapshot Stage.ofFault
  rcases hs : signalledState attributes with f | none | state
  · exact run_bind_of_error rfl
  · exact (run_bind_of_ok (run_ofExcept _ _)).trans rfl
  · refine (run_bind_of_ok (run_ofExcept _ _)).trans ?_
    cases state <;> try rfl
    simp only
    cases he : ManagementEndpoint.ofSnapshot attributes with
    | error f => exact run_bind_of_error (run_ofExcept _ _)
    | ok endpoint => exact (run_bind_of_ok (run_ofExcept _ _)).trans rfl

/-- A snapshot that ends the polls leaves the installation ended. -/
theorem applySnapshot_closed {attributes : Json} {r m : Run} (hr : r.Coherent)
    (h : (applySnapshot attributes).outcome r = (.ok true, m)) :
    m.server.install.closed = true := by
  rw [applySnapshot_outcome] at h
  split at h
  · cases h
  · cases h
  · -- the snapshot of a completed installation has to have an endpoint
    split at h
    · cases h
    · cases h
      exact closed_enter_of_isFinal hr rfl _
  · -- any other state ends the polls exactly if it is final
    rename_i state _ _
    obtain ⟨hfinal, rfl⟩ := Prod.mk.inj h
    exact closed_enter_of_isFinal hr (Except.ok.inj hfinal) _

end Fleet
