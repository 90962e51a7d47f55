import Fleet.Proofs.Cloud.Waiting
import Fleet.Proofs.Server.Polling
import Fleet.Proofs.Server.Setup

/-!
# Two waits with one law

The creation of an instance and the reservation of its address are waited for in two different
places, the one by the account and the other by the setup of the server.  Both send the same request
again and again as long as the operation goes on, and both end with the first reply by which it does
not; what the operation is worth is the result of the one wait and decides how the setup goes on
after the other.

## Main statements

- `Run.awaitAddress_of_goesOn`, `Run.awaitAddress_of_concludes`: one wait of the setup
- `Run.amid_of_goesOn`: the setup waits as long as the operation goes on
- `waits_end_with_first_conclusion`: what both waits request and how they end
-/

namespace Fleet

open Run World Stage Operation

/-- The move is one of provisioning. -/
def Move.isProvision : Move → Bool
  | .provision => true
  | _ => false

theorem Move.isProvision_iff {m : Move} : m.isProvision = true ↔ m = .provision := by
  cases m <;> simp [isProvision]

namespace Run

variable {r : Run} {region : RegionLocator} {name : Json}

/-! ## §1 One wait of the setup -/

/-- One wait of the setup is decided by what the operation is worth, and by its status. -/
theorem awaitAddress_result (region : RegionLocator) (name : Json) (r : Run) :
    let reply := r.world.reply (r.server.client.waitRegionOperation region name.text)
    (∀ operation, reply = .ok operation → operation.IsOperation) →
    ((awaitAddress region name).outcome r).1 =
      reply.bind fun operation => (verdict operation).bind fun _ =>
        ((isDone operation).mapError .fault).map fun done =>
          if done then .confirmingAddress else .awaitingAddress region name := by
  intro reply hreply
  let request := r.server.client.waitRegionOperation region name.text
  let n := r.log .debug s!"Waiting on region operation {name.text} in {region.region}"
  -- the wait is announced by a log line, which makes no difference to the reply
  have hresult : ((exchange request).outcome n).1 = reply := exchange_result rfl n
  rw [awaitAddress, outcome_server_bind, outcome_log_bind]
  rcases hx : (exchange request).outcome n with ⟨x, m⟩
  rw [hx] at hresult
  obtain rfl : x = reply := hresult
  cases hreply' : reply with
  | error f =>
    rw [hreply'] at hx
    exact congrArg Prod.fst (run_bind_of_error hx)
  | ok operation =>
    rw [hreply'] at hx
    refine (congrArg Prod.fst (run_bind_of_ok hx)).trans ?_
    obtain ⟨v, -, hchecked⟩ := checked_outcome (hreply operation hreply') m.world
    have hcall : (ofCall (checked operation)).outcome m =
        (verdict operation, { m with world := v }) := by
      rw [ofCall_outcome, hchecked]
    show _ = (verdict operation).bind _
    cases hverdict : verdict operation with
    | error f =>
      rw [hverdict] at hcall
      exact congrArg Prod.fst (run_bind_of_error (run_bind_of_error hcall))
    | ok value =>
      rw [hverdict] at hcall
      have hdiscard : (ExceptT.run (discard (ofCall (checked operation)) : Stage PUnit)).run m =
          (.ok ⟨⟩, { m with world := v }) := run_bind_of_ok hcall
      refine (congrArg Prod.fst (run_bind_of_ok hdiscard)).trans ?_
      simp only [Except.bind]
      cases isDone operation with
      | error fault => rfl
      | ok done => cases done <;> rfl

/-- After a reply by which the operation goes on, the setup waits again. -/
theorem awaitAddress_of_goesOn
    (h : GoesOn (r.world.reply (r.server.client.waitRegionOperation region name.text))) :
    ((awaitAddress region name).outcome r).1 = .ok (.awaitingAddress region name) := by
  rw [awaitAddress_result region name r fun _ => h.isOperation]
  obtain ⟨operation, hreply, hisOperation, hlisted, hgoing⟩ := h
  have hdone : isDone operation = .ok false := isDone_eq_ok hisOperation (by simp [hgoing])
  rw [hreply]
  simp only [Except.bind, verdict, hlisted, hdone]
  rfl

/-- Any other reply decides how the setup goes on. -/
theorem awaitAddress_of_concludes {result : Except Failure Json}
    (h : Concludes (r.world.reply (r.server.client.waitRegionOperation region name.text)) result) :
    ((awaitAddress region name).outcome r).1 = result.map fun _ => .confirmingAddress := by
  rw [awaitAddress_result region name r fun _ => h.isOperation]
  generalize r.world.reply (r.server.client.waitRegionOperation region name.text) = reply at h
  cases h with
  | failed f => rfl
  | erred _ hlisted =>
    simp only [Except.bind, verdict, hlisted]
    rfl
  | @done operation hisOperation hlisted hfinal =>
    have hdone : isDone operation = .ok true := isDone_eq_ok hisOperation (by simp [hfinal])
    simp only [Except.bind, verdict, hlisted, hdone]
    rfl

/-! ## §2 One step of the setup -/

/-- With a token, a wait of the setup sends its request and nothing else. -/
theorem requestsSince_step_of_awaiting {token : String}
    (hphase : r.server.phase = .awaitingAddress region name)
    (htoken : r.world.tokens.getToken.1 = .ok token) :
    r.world.requestsSince r.step.world =
      [r.server.client.waitRegionOperation region name.text] := by
  have hrequest : r.request? = some (r.server.client.waitRegionOperation region name.text) := by
    simp only [request?, hphase]
  rw [requestsSince_step, exchange?_of_request? hrequest, World.exchange?, World.response?, htoken]
  rfl

/-- The setup waits again after a reply by which the operation goes on. -/
theorem step_of_goesOn (hphase : r.server.phase = .awaitingAddress region name)
    (h : GoesOn (r.world.reply (r.server.client.waitRegionOperation region name.text))) :
    r.step.server.phase = .awaitingAddress region name ∧
      r.world.requestsSince r.step.world =
        [r.server.client.waitRegionOperation region name.text] := by
  have hstage := awaitAddress_of_goesOn h
  obtain ⟨operation, hreply, -⟩ := h
  constructor
  · rcases hx : (awaitAddress region name).outcome r with ⟨x, m⟩
    rw [hx] at hstage
    obtain rfl : x = .ok (.awaitingAddress region name) := hstage
    rw [step_of_setup? (by rw [hphase]; rfl), setUp, hx]
    rfl
  · -- what has come back was sent with a token
    cases htoken : r.world.tokens.getToken.1 with
    | error f =>
      rw [World.reply, htoken] at hreply
      cases hreply
    | ok token => exact requestsSince_step_of_awaiting hphase htoken

/-- A reply without errors by which the operation is done brings the setup to its next phase. -/
theorem step_of_done {operation : Json} (hphase : r.server.phase = .awaitingAddress region name)
    (h : Concludes (r.world.reply (r.server.client.waitRegionOperation region name.text))
      (.ok operation)) : r.step.server.phase = .confirmingAddress := by
  have hstage := awaitAddress_of_concludes h
  rcases hx : (awaitAddress region name).outcome r with ⟨x, m⟩
  rw [hx] at hstage
  obtain rfl : x = .ok .confirmingAddress := hstage
  rw [step_of_setup? (by rw [hphase]; rfl), setUp, hx]
  rfl

/-- Any other reply makes the setup fail, and with it the installation, unless that has ended. -/
theorem step_of_failed {f : Failure} (hr : r.Sound)
    (hphase : r.server.phase = .awaitingAddress region name)
    (h : Concludes (r.world.reply (r.server.client.waitRegionOperation region name.text))
      (.error f)) :
    r.step.server.readiness = .failed f ∧ r.step.server.phase = .finished ∧
      r.step.server.state.isFinal = true ∧
      (r.server.state.isFinal = false →
        ((r.world.response? (r.server.client.waitRegionOperation region name.text)).any
          (·.cancels)) = false → r.step.server.state = .failed) := by
  let request := r.server.client.waitRegionOperation region name.text
  have hstage := awaitAddress_of_concludes h
  rcases hx : (awaitAddress region name).outcome r with ⟨x, m⟩
  rw [hx] at hstage
  obtain rfl : x = .error f := hstage
  have hfailure : r.setupFailure? = some (f, m) := by
    simp only [setupFailure?, hphase, Phase.setup?, hx]
  rw [step_of_setupFailure? hfailure,
    state_abandon (coherent_of_setupFailure? hr.toCoherent hfailure)]
  refine ⟨rfl, rfl, ?_, fun hopen hgoing => ?_⟩
  · split
    · assumption
    · rfl
  · -- the installation is as it was when the response was delivered
    obtain ⟨n, hn, hrest⟩ := awaitAddress_receives region name r
    rw [hx] at hrest
    have hn' : n.Coherent ∧ n.server = r.server ∧ n.world.response? request =
        r.world.response? request := by
      rcases hn with rfl | ⟨level, message, rfl⟩
      · exact ⟨hr.toCoherent, rfl, rfl⟩
      · exact ⟨⟨hr.closed_eq, hr.completed_of_endpoint⟩, rfl, rfl⟩
    obtain ⟨hcoherent, hserver, hresponse⟩ := hn'
    have hstate : m.server.state = r.server.state := by
      rw [hrest.1, state_delivered hcoherent (by rw [hserver]; exact hopen) rfl, hresponse, hgoing,
        hserver]
      rfl
    rw [hstate, hopen]
    rfl

/-- Before the setup is settled, only provisioning sends requests. -/
theorem requestsSince_move_of_isSetup (hr : r.Sound) (hsetup : r.server.phase.isSetup = true)
    {m : Move} (hm : m.isProvision = false) : r.world.requestsSince (r.move m).world = [] := by
  apply List.eq_nil_iff_forall_not_mem.mpr
  intro request hrequest
  obtain ⟨sent, hsent, -⟩ := mem_requestsSince.mp hrequest
  have hpermits := (move_onward r m).journal.mem_since hsent
  cases m with
  | provision => cases hm
  | tearDown =>
    rcases hpermits with hserves | ⟨hsettled, -⟩
    · cases hserves
    · rw [hr.isSettled_eq_false hsetup] at hsettled
      cases hsettled
  | propose | apply | tell => exact hpermits

/-! ## §3 Both waits -/

/-- The setup waits as long as the operation goes on, whatever happens in between. -/
theorem amid_of_goesOn {client : Client} (hr : r.Sound)
    (hphase : r.server.phase = .awaitingAddress region name) (hclient : r.server.client = client)
    {moves : List (World × Move)}
    (h : ∀ u, (u, Move.provision) ∈ moves →
      GoesOn (u.reply (client.waitRegionOperation region name.text))) :
    (r.amid moves).server.phase = .awaitingAddress region name ∧
      r.world.requestsSince (r.amid moves).world =
        List.replicate (moves.countP (·.2.isProvision))
          (client.waitRegionOperation region name.text) := by
  induction moves generalizing r with
  | nil => exact ⟨hphase, requestsSince_self _⟩
  | cons move moves ih =>
    obtain ⟨u, m⟩ := move
    let p := r.within u
    have hp : p.Sound := within_sound hr u
    have hgrows := (move_onward p m).journal
    have hclient' : (p.move m).server.client = client :=
      (move_onward p m).resources_eq.1.trans hclient
    have hfirst : (p.move m).server.phase = .awaitingAddress region name ∧
        p.world.requestsSince (p.move m).world =
          List.replicate (if m.isProvision then 1 else 0)
            (client.waitRegionOperation region name.text) := by
      cases hprovision : m.isProvision with
      | true =>
        obtain rfl := Move.isProvision_iff.mp hprovision
        have hreply := h u List.mem_cons_self
        rw [← hclient] at hreply ⊢
        exact step_of_goesOn (r := p) hphase hreply
      | false =>
        have hm : m ≠ .provision := by
          rintro rfl
          cases hprovision
        have hsetup : p.server.phase.isSetup = true := by
          rw [show p.server.phase = _ from hphase]
          rfl
        exact ⟨(phase_move p hm).trans hphase, requestsSince_move_of_isSetup hp hsetup hprovision⟩
    obtain ⟨hphase', hrest⟩ := ih (move_sound hp m) hfirst.1 hclient' fun u hu =>
      h u (List.mem_cons_of_mem _ hu)
    refine ⟨hphase', ?_⟩
    -- the surroundings do not touch the journal
    show p.world.requestsSince ((p.move m).amid moves).world = _
    rw [requestsSince_trans hgrows (amid_onward (p.move m) moves).journal, hfirst.2, hrest,
      List.countP_cons, List.replicate_append_replicate, Nat.add_comm]

end Run

/-- What the account and the setup request while they wait for an operation, and how they end. -/
theorem waits_end_with_first_conclusion :
    -- the creation of an instance is waited for until the first reply that concludes the wait
    (∀ (account : Account) (zone : ZoneLocator) (name : Json) (w : World) (token : String) (k : Nat),
      let request := account.client.waitZoneOperation zone name.text
      let waiting (waits : Nat) := (account.awaitCreation waits zone name).outcome w
      w.tokens.getToken.1 = .ok token → (∀ i < k, GoesOn (w.network.reply request i)) →
      ((waiting k).1 = .error .unfinished ∧
        w.requestsSince (waiting k).2 = List.replicate k request) ∧
      ∀ result, Concludes (w.network.reply request k) result → ∀ waits > k,
        (waiting waits).1 = result.mapError .failure ∧
        w.requestsSince (waiting waits).2 = List.replicate (k + 1) request) ∧
    -- and so is the reservation of an address, at any point of the course of any server
    ∀ (l : Launch) (course : List (World × Move)) (region : RegionLocator) (name : Json),
      let r := l.start.amid course
      let request := l.client.waitRegionOperation region name.text
      r.server.phase = .awaitingAddress region name →
      ∀ moves, (∀ u, (u, Move.provision) ∈ moves → GoesOn (u.reply request)) →
        let k := moves.countP (·.2.isProvision)
        let m := r.amid moves
        (m.server.phase = .awaitingAddress region name ∧
          r.world.requestsSince m.world = List.replicate k request) ∧
        ∀ u token result, u.tokens.getToken.1 = .ok token →
          Concludes (u.network.reply request 0) result →
          let next := r.amid (moves ++ [(u, .provision)])
          r.world.requestsSince next.world = List.replicate (k + 1) request ∧
          (∀ operation, result = .ok operation → next.server.phase = .confirmingAddress) ∧
          -- an error makes the setup fail, and the installation unless that has ended
          ∀ f, result = .error f →
            next.server.readiness = .failed f ∧ next.server.phase = .finished ∧
            next.server.state.isFinal = true ∧
            (m.server.state.isFinal = false →
              (u.network.respond request.method request.url).1.cancels = false →
              next.server.state = .failed) := by
  constructor
  · intro account zone name w token k request waiting htoken hreplies
    have hnote : Client.Notes fun current => Call.log .info
        s!"Instance creation {name.text} still {Operation.statusText current}, waiting again" :=
      fun _ w => ⟨_, .record rfl w, rfl⟩
    exact Client.awaitZone_of_replies hnote htoken hreplies
  · intro l course region name r request hphase moves hmoves k m
    have hr : r.Sound := amid_sound l.start_sound course
    have hclient : r.server.client = l.client := (amid_onward l.start course).resources_eq.1
    obtain ⟨hwaiting, hrequests⟩ := amid_of_goesOn hr hphase hclient hmoves
    refine ⟨⟨hwaiting, hrequests⟩, ?_⟩
    intro u token result htoken hlast next
    -- the last wait takes place in the surroundings that the others leave for it
    let p := m.within u
    have hp : p.Sound := within_sound (amid_sound hr moves) u
    have hnext : next = p.step := amid_append r moves [(u, .provision)]
    have hrequest : p.server.client.waitRegionOperation region name.text = request := by
      rw [show p.server.client = r.server.client from (amid_onward r moves).resources_eq.1, hclient]
    have hreply : Concludes
        (p.world.reply (p.server.client.waitRegionOperation region name.text)) result := by
      rw [hrequest, World.reply_of_token (w := p.world) htoken]
      exact hlast
    rw [hnext]
    refine ⟨?_, ?_, ?_⟩
    · have hsent := requestsSince_step_of_awaiting (r := p) hwaiting htoken
      rw [hrequest] at hsent
      have hlater : m.world.requestsSince p.step.world = [request] := hsent
      have hgrows : m.world.Extends (fun _ => True) p.step.world :=
        ((m.within_onward u).trans ((step_onward p).mono fun _ _ => trivial)).journal
      rw [requestsSince_trans (amid_onward r moves).journal hgrows, hrequests, hlater,
        List.replicate_succ']
    · rintro operation rfl
      exact step_of_done hwaiting hreply
    · rintro f rfl
      obtain ⟨hreadiness, hfinished, hfinal, hfailed⟩ := step_of_failed hp hwaiting hreply
      refine ⟨hreadiness, hfinished, hfinal, fun hopen hgoing => hfailed hopen ?_⟩
      rw [hrequest, World.response?, show p.world.tokens.getToken.1 = _ from htoken]
      exact hgoing

-- a status that is null or unknown keeps one waiting, and an error counts whatever the status is
example :
    let reply (members : String) : Response :=
      { answer := .reply { body := "\x7b\"name\": \"op\", \"status\": " ++ members ++ "\x7d" } }
    let w : World :=
      { network :=
          [{ responses :=
              [reply "\"RUNNING\"", reply "null",
                reply "\"RUNNING\", \"error\": \x7b\"errors\": [\x7b\"code\": 7\x7d, \x7b\x7d]\x7d"] }]
        tokens := .make (some "token") none none none }
    let account : Account := { id := "account" }
    let outcome := (account.awaitCreation 10 ⟨"project", "zone"⟩ (.str "op")).outcome w
    let message : Option String :=
      match outcome.1 with
      | .error (.failure f) => some f.message
      | _ => none
    message = some "Operation op failed with 7: " ∧ (w.requestsSince outcome.2).length = 3 := by
  decide +kernel

end Fleet
