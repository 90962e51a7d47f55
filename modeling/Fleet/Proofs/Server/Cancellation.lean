import Mathlib.Logic.Function.Iterate
import Fleet.Proofs.Server.Acts

/-!
# Calling an installation off

The installation is called off by whoever deletes the server, also while a response is under way to
provisioning.  If it had not ended before, it is canceled at once and for good: nothing that
provisioning does afterwards counts, followers end with that failure, and nothing is polled or
waited for any more.  If it had ended, calling it off changes nothing.

## Main definitions

- `Run.incoming?`: the response that is delivered in the next phase
- `Event.Polls`: the events of polling a server

## Main statements

- `Run.not_polls_of_closed`: after the end of an installation nothing is polled
- `Run.step_isFinished_of_closed`: and provisioning ends with the setup
- `Run.followFrom_of_canceled`: how followers of a canceled installation end
- `Run.step_of_cancels`: calling the installation off before a response wins over the phase
- `Launch.cancellation_wins`: the above for every course of a server
-/

namespace Fleet

open Run World

/-! ## §1 Polling -/

/-- The events of polling a server: fetching its guest attributes, and the wait between two
polls. -/
def Event.Polls (s : Server) : Event → Prop
  | .requested sent => sent.request = s.attributesRequest
  | .waited _ => True
  | _ => False

/-- The guest attributes are asked for in polls only, while the installation goes on. -/
theorem Run.request?_eq_attributesRequest {r : Run}
    (h : r.request? = some r.server.attributesRequest) :
    r.server.install.closed = false ∧ ∃ deadline, r.server.phase = .polling deadline := by
  unfold request? at h
  dsimp only at h
  split at h
  · -- the instance itself is described without parameters
    have hparams := congrArg Request.params (Option.some.inj h)
    cases hparams
  · -- the address is reserved and waited for by another method
    have hmethod := congrArg Request.method (Option.some.inj h)
    exact absurd hmethod (by simp [Client.createAddress, Server.attributesRequest,
      Client.getGuestAttributes])
  · have hmethod := congrArg Request.method (Option.some.inj h)
    exact absurd hmethod (by simp [Client.waitRegionOperation, Server.attributesRequest,
      Client.getGuestAttributes])
  · rename_i deadline hphase
    cases hc : r.server.install.closed with
    | false => exact ⟨rfl, deadline, hphase⟩
    | true =>
      rw [hc] at h
      cases h
  · cases h

/-- Only provisioning polls, and only while the installation goes on. -/
theorem Run.open_of_polls {r : Run} {m : Move} {e : Event} (h : r.Permits m e)
    (hpolls : e.Polls r.server) : m = .provision ∧ r.server.install.closed = false := by
  cases e with
  | requested sent =>
    cases m with
    | provision =>
      have hq : r.request? = some r.server.attributesRequest := by
        rw [← show sent.request = r.server.attributesRequest from hpolls]
        exact h
      exact ⟨rfl, (request?_eq_attributesRequest hq).1⟩
    | tearDown =>
      rcases h with hnone | ⟨-, request, hrequest, hserves⟩
      · cases hnone
      · -- a teardown only deletes
        obtain rfl : request = sent.request := Option.some.inj hserves
        have hdelete : sent.request.method = "DELETE" := Server.method_of_mem_removals hrequest
        rw [show sent.request = r.server.attributesRequest from hpolls] at hdelete
        exact absurd hdelete (by simp [Server.attributesRequest, Client.getGuestAttributes])
    | _ => exact h.elim
  | waited time =>
    cases m with
    | provision => exact ⟨rfl, h⟩
    | tearDown =>
      rcases h with hnone | ⟨-, request, -, hserves⟩
      · exact hnone.elim
      · exact hserves.elim
    | _ => exact h.elim
  | _ => exact hpolls.elim

namespace Run

variable {P : Event → Prop} {r r' : Run}

theorem Onward.attributesRequest_eq (h : Onward P r r') :
    r'.server.attributesRequest = r.server.attributesRequest := by
  rw [h.frame]
  rfl

theorem Onward.polls_iff (h : Onward P r r') (e : Event) :
    e.Polls r'.server ↔ e.Polls r.server := by
  cases e with
  | requested sent => simp only [Event.Polls, h.attributesRequest_eq]
  | _ => exact Iff.rfl

/-- After the end of an installation nothing is polled. -/
theorem not_polls_of_closed (hr : r.server.install.closed = true) {moves : List Move} {e : Event}
    (he : e ∈ r.world.since (r.after moves).world) : ¬ e.Polls r.server := by
  intro hpolls
  obtain ⟨before, m, rest, -, -, hpermits⟩ := mem_since_after he
  have honward := after_onward r before
  have hclosed : (r.after before).server.install.closed = true := by
    rw [(honward.closed hr).1]
    exact hr
  obtain ⟨-, hopen⟩ := open_of_polls hpermits ((honward.polls_iff e).mpr hpolls)
  rw [hclosed] at hopen
  cases hopen

/-- Once the setup is settled and the installation has ended, provisioning ends with the next
phase, whichever it is. -/
theorem step_isFinished_of_closed (hr : r.Sound) (hc : r.server.install.closed = true)
    (hs : r.server.readiness.isSettled = true) : r.step.server.isFinished = true := by
  have hphase := hr.isSetup_eq_false hs
  cases hp : r.server.phase with
  | polling deadline =>
    simp only [step, hp, pollOnce, hc, if_true]
    rfl
  | pausing deadline =>
    -- the deadline makes no difference: the wait would have ended at once as well
    simp only [step, hp, pause, hc, if_true]
    split <;> rfl
  | finished =>
    have hfin : r.server.isFinished = true := by rw [Server.isFinished, hp]
    rw [step_of_isFinished hfin]
    exact hfin
  | _ =>
    -- the other phases belong to the setup
    rw [hp] at hphase
    cases hphase

/-! ## §2 Followers -/

/-- A follower of a canceled installation ends with that failure and is told of nothing more,
whatever it has seen before. -/
theorem followFrom_of_canceled (hc : r.server.install.closed = true)
    (hs : r.server.state = .canceled) (tell : InstallState → World → World) (steps rounds : Nat)
    {wanted : Option Nat} (hw : wanted ≠ some 0) (watcher : Watcher)
    (states : List InstallState) :
    r.followFrom tell steps (rounds + 1) wanted watcher states =
      (r.toEnd steps).map fun run =>
        { states := states.reverse
          finish := .ended (.error (.canceled r.server.id))
          run } := by
  have hend : r.endFollowing steps states = (r.toEnd steps).map fun run =>
      { states := states.reverse
        finish := .ended (.error (.canceled r.server.id))
        run } := by
    rw [endFollowing, Server.followOutcome, hs]
  have hvalue : r.server.install.value = .canceled := hs
  rw [followFrom, if_neg hw]
  -- either the canceled state is new to the follower, which stays silent about it, or nothing is
  cases watcher with
  | following seen =>
    by_cases hseen : seen = some r.server.install.version
    · simp [Watcher.next, hseen, hc, hend]
    · simp [Watcher.next, hseen, hc, hend, hvalue, InstallState.isSilent]
  | finishing | ended => simpa [Watcher.next] using hend

/-! ## §3 Calling off before a response -/

/-- The response that is delivered in the next phase, if it makes a request that can be sent. -/
def incoming? (r : Run) : Option Response :=
  r.request?.bind r.response?

/-- The requests of phases have no headers of their own. -/
theorem headers_of_request? {request : Request} (h : r.request? = some request) :
    request.headers = .null := by
  unfold request? at h
  dsimp only at h
  split at h
  · cases h
    rfl
  · cases h
    rfl
  · cases h
    rfl
  · split at h
    · cases h
    · cases h
      rfl
  · cases h

theorem response?_log (request : Request) (level : Level) (message : String) :
    (r.log level message).response? request = r.response? request := by
  have hfst := r.server.client.dispatch_congr request (w := r.world)
    (v := (r.log level message).world) rfl rfl
  unfold response?
  rcases hv : (r.server.client.dispatch request).outcome r.world with ⟨x, v⟩
  rcases hw : (r.server.client.dispatch request).outcome (r.log level message).world with ⟨y, w⟩
  rw [hv, hw] at hfst
  obtain rfl : y = x := hfst
  simp only [show (r.log level message).server = r.server from rfl, hw]
  cases y <;> rfl

/-- If the installation is called off while a response is under way, then the request has been
sent, and the installation is canceled when the response is delivered. -/
theorem delivered_of_cancels (hr : r.Coherent) (hs : r.server.state.isFinal = false)
    {request : Request} (hp : request.headers = .null) {response : Response}
    (hin : r.response? request = some response) (hc : response.cancels = true) :
    (r.delivered request).server.state = .canceled ∧
      (r.delivered request).server.install.closed = true ∧
      r.world.Extends (fun e => e.Serves (some request) ∨ e.Announces)
        (r.delivered request).world ∧
      r.world.requestsSince (r.delivered request).world = [request] ∧
      r.world.transitionsSince (r.delivered request).world = [.canceled] := by
  have hcases := r.server.client.dispatch_cases hp r.world
  have hdelivered : r.delivered request =
      cancel { r with world := ((r.server.client.dispatch request).outcome r.world).2 } := by
    unfold delivered
    simp [hin, hc]
  rw [hdelivered]
  unfold response? at hin
  rcases hd : (r.server.client.dispatch request).outcome r.world with ⟨f | delivery, w⟩
  all_goals
    rw [hd] at hin hcases
  · -- without a token there is no response to wait for
    cases hin
  · -- first the request is sent, and then the state is entered
    have hext : r.world.Extends (Event.Serves (some request)) w :=
      (r.server.client.dispatch_extends request).of_run hd
    have hsent : r.world.requestsSince w = [request] := by
      rcases hcases with ⟨f, -, hf, -⟩ | ⟨token, -, -, hsent⟩
      · cases hf
      · exact hsent
    have hcoherent : Coherent { r with world := w } := ⟨hr.closed_eq, hr.completed_of_endpoint⟩
    obtain ⟨hstate, hclosed, htransitions⟩ := cancel_of_open hcoherent hs
    have hjournal : w.Extends Event.Announces (cancel { r with world := w }).world :=
      enter_extends _ _ _
    refine ⟨hstate, hclosed, ?_, ?_, ?_⟩
    · exact (hext.mono fun _ => Or.inl).trans (hjournal.mono fun _ => Or.inr)
    · rw [requestsSince_trans hext hjournal, hsent, requestsSince_eq_nil]
      · rfl
      · exact hjournal.mono fun _ he => he.request?_eq
    · rw [transitionsSince_trans hext hjournal, htransitions, transitionsSince_eq_nil]
      · rfl
      · exact hext.mono fun _ he => he.state?_eq

/-- Calling the installation off before a response wins over the phase: the installation is
canceled and enters no other state, and apart from the request that was under way nothing is
requested or waited for. -/
theorem step_of_cancels (hr : r.Coherent) (hs : r.server.state.isFinal = false)
    {response : Response} (hin : r.incoming? = some response) (hc : response.cancels = true) :
    r.step.server.state = .canceled ∧ r.step.server.install.closed = true ∧
      r.world.transitionsSince r.step.world = [.canceled] ∧
      r.world.requestsSince r.step.world = r.request?.toList ∧
      ∀ e ∈ r.world.since r.step.world, ∀ time, e ≠ .waited time := by
  obtain ⟨request, hq, hresponse⟩ := Option.bind_eq_some_iff.mp hin
  obtain ⟨n, hn, hrest⟩ := step_delivered hq
  -- up to the request nothing happens but a log line
  obtain ⟨hserver, hstart, hresponse⟩ : n.server = r.server ∧
      r.world.Extends (Event.Serves none) n.world ∧ n.response? request = some response := by
    rcases hn with rfl | ⟨level, message, rfl⟩
    · exact ⟨rfl, .refl _, hresponse⟩
    · exact ⟨rfl, .record trivial _, by rw [response?_log, hresponse]⟩
  have hcoherent : n.Coherent := by
    constructor <;> rw [hserver]
    · exact hr.closed_eq
    · exact hr.completed_of_endpoint
  have hopen : n.server.state.isFinal = false := by
    rw [hserver]
    exact hs
  obtain ⟨hstate, hclosed, hsent, hrequests, htransitions⟩ :=
    delivered_of_cancels hcoherent hopen (headers_of_request? hq) hresponse hc
  -- after the delivery nothing is requested, and the ended installation stays so
  have hafter : (n.delivered request).world.Extends Event.Announces r.step.world :=
    hrest.journal.mono fun _ he => he.elim Event.Serves.announces id
  have hlater : n.world.Extends (fun e => e.Serves (some request) ∨ e.Announces) r.step.world :=
    hsent.trans (hafter.mono fun _ => Or.inr)
  have hinstall := (hrest.closed hclosed).1
  have hquiet : (n.delivered request).world.requestsSince r.step.world = [] := by
    apply requestsSince_eq_nil
    exact hafter.mono fun _ he => he.request?_eq
  have hended : (n.delivered request).world.transitionsSince r.step.world = [] := by
    have hascent := hrest.ascent ((evolves_delivered n request).onward.coherent hcoherent)
    rw [hstate] at hascent
    exact (hascent.eq_nil_of_isFinal rfl).1
  refine ⟨?_, ?_, ?_, ?_, ?_⟩
  · rw [Server.state, hinstall]
    exact hstate
  · rw [hinstall]
    exact hclosed
  · rw [transitionsSince_trans hstart hlater, transitionsSince_trans hsent hafter, htransitions,
      hended, transitionsSince_eq_nil (hstart.mono fun _ he => he.state?_eq)]
    rfl
  · rw [requestsSince_trans hstart hlater, requestsSince_trans hsent hafter, hrequests, hquiet,
      requestsSince_of_serves_none hstart, hq]
    rfl
  · intro e he time hwaited
    subst hwaited
    have hjourney := (hstart.mono fun _ he => Or.inl he.weaken).trans hlater
    rcases hjourney.mem_since he with hserves | hannounces
    · exact hserves
    · exact hannounces

end Run

/-! ## §4 The course of a server -/

/-- The ways in which the installation is called off, and the run after it: by itself, or before
the response that is delivered in the next phase. -/
inductive Run.CalledOff (r : Run) : Run → Prop
  | directly : CalledOff r r.cancel
  | beforeResponse {response : Response} (hin : r.incoming? = some response)
      (hc : response.cancels = true) : CalledOff r r.step

namespace Run

variable {r c : Run}

theorem CalledOff.onward (h : r.CalledOff c) : Onward (fun _ => True) r c := by
  cases h with
  | directly => exact (onward_enter r (by simp)).mono fun _ _ => trivial
  | beforeResponse => exact (step_onward r).mono fun _ _ => trivial

theorem CalledOff.sound (h : r.CalledOff c) (hr : r.Sound) : c.Sound := by
  cases h with
  | directly => exact move_sound hr (.propose .canceled)
  | beforeResponse => exact step_sound hr

/-- An installation that goes on is canceled by being called off, and apart from a request that
was under way nothing is requested or waited for. -/
theorem CalledOff.canceled (h : r.CalledOff c) (hr : r.Coherent)
    (hs : r.server.state.isFinal = false) :
    c.server.state = .canceled ∧ r.world.transitionsSince c.world = [.canceled] ∧
      (r.world.requestsSince c.world).Sublist r.request?.toList ∧
      ∀ e ∈ r.world.since c.world, ∀ time, e ≠ .waited time := by
  cases h with
  | directly =>
    obtain ⟨hstate, -, htransitions⟩ := cancel_of_open hr hs
    have hjournal : r.world.Extends Event.Announces r.cancel.world := enter_extends r _ _
    refine ⟨hstate, htransitions, ?_, ?_⟩
    · rw [requestsSince_eq_nil]
      · exact List.nil_sublist _
      · exact hjournal.mono fun _ he => he.request?_eq
    · intro e he time hwaited
      subst hwaited
      exact hjournal.mem_since he
  | beforeResponse hin hc =>
    obtain ⟨hstate, -, htransitions, hrequests, hwaited⟩ := step_of_cancels hr hs hin hc
    exact ⟨hstate, htransitions, hrequests ▸ List.Sublist.refl _, hwaited⟩

/-- Calling off an installation that has ended changes nothing, however often it is done. -/
theorem cancel_iterate_of_closed (hr : r.server.install.closed = true) (n : Nat) :
    cancel^[n] r = r := by
  have hfixed : r.cancel = r := by rw [cancel, proceed, enter_of_closed hr]
  exact Function.iterate_fixed hfixed n

end Run

namespace Launch

/-- Wherever in the course of a server the installation is called off. If it has not ended, it is
canceled at once, entering no other state, and only a request under way is still seen through; from
then on it stays canceled and never has an endpoint, nothing is polled, provisioning is over as soon
as the setup is, and every follower ends with that failure. If it has ended, it is left exactly as
it was. Deleting the server is calling the installation off, followed by other moves. -/
theorem cancellation_wins (l : Launch) (moves : List Move) {c : Run}
    (h : (l.start.after moves).CalledOff c) :
    let r := l.start.after moves
    (r.server.state.isFinal = false →
      (c.server.state = .canceled ∧ r.world.transitionsSince c.world = [.canceled] ∧
        (r.world.requestsSince c.world).Sublist r.request?.toList ∧
        ∀ e ∈ r.world.since c.world, ∀ time, e ≠ .waited time) ∧
      ∀ moves',
        let r' := c.after moves'
        r'.server.state = .canceled ∧ r'.server.endpoint = none ∧
        (∀ e ∈ c.world.since r'.world, ¬ e.Polls r.server) ∧
        (r'.server.readiness.isSettled = true → r'.step.server.isFinished = true) ∧
        ∀ tell steps rounds wanted watcher states, wanted ≠ some 0 →
          r'.followFrom tell steps (rounds + 1) wanted watcher states =
            (r'.toEnd steps).map fun run =>
              { states := states.reverse
                finish := .ended (.error (.canceled r.server.id))
                run }) ∧
    (r.server.state.isFinal = true →
      (∀ n, cancel^[n] r = r) ∧
      ∀ moves', (c.after moves').server.install = r.server.install ∧
        (c.after moves').server.endpoint = r.server.endpoint) ∧
    ∀ steps o r', r.delete steps = some (o, r') → ∃ moves', r' = r.cancel.after moves' := by
  intro r
  have hsound : r.Sound := after_sound l.start_sound moves
  have hc : Onward (fun _ => True) r c := h.onward
  refine ⟨fun hs => ?_, fun hs => ?_, ?_⟩
  · have hcanceled := h.canceled hsound.toCoherent hs
    have hcsound : c.Sound := h.sound hsound
    have hclosed : c.server.install.closed = true := by
      rw [hcsound.closed_eq, hcanceled.1]
      rfl
    refine ⟨hcanceled, fun moves' => ?_⟩
    intro r'
    have hsound' : r'.Sound := after_sound hcsound moves'
    have honward : Onward (fun _ => True) c r' := after_onward c moves'
    obtain ⟨hinstall, -⟩ := honward.closed hclosed
    have hstate : r'.server.state = .canceled := by
      rw [Server.state, hinstall]
      exact hcanceled.1
    have hclosed' : r'.server.install.closed = true := by
      rw [hinstall]
      exact hclosed
    refine ⟨hstate, ?_, ?_, ?_, ?_⟩
    · cases hendpoint : r'.server.endpoint with
      | none => rfl
      | some endpoint =>
        -- an endpoint would belong to a completed installation
        have hcompleted := hsound'.completed_of_endpoint (by rw [hendpoint]; rfl)
        rw [hstate] at hcompleted
        cases hcompleted
    · intro e he hpolls
      exact not_polls_of_closed hclosed he ((hc.polls_iff e).mpr hpolls)
    · intro hsettled
      exact step_isFinished_of_closed hsound' hclosed' hsettled
    · intro tell steps rounds wanted watcher states hw
      have hid : r'.server.id = r.server.id := by
        rw [(hc.trans honward).frame]
      rw [followFrom_of_canceled hclosed' hstate tell steps rounds hw watcher states, hid]
  · have hclosed : r.server.install.closed = true := by
      rw [hsound.closed_eq]
      exact hs
    refine ⟨cancel_iterate_of_closed hclosed, fun moves' => ?_⟩
    exact (hc.trans (after_onward c moves')).closed hclosed
  · intro steps o r' hdelete
    obtain ⟨phases, hr'⟩ := delete_after hsound hdelete
    exact ⟨_, hr'⟩

theorem cancellation_wins_before_response :
    let rule : Rule :=
      { urlPart := "/instances/", responses := [{ answer := .broken "", cancels := true }] }
    let r := (against [rule]).start.after [.provision, .provision]
    r.server.state = .instanceCreated ∧
      r.incoming? = some { answer := .broken "", cancels := true } ∧
      r.step.server.state = .canceled := by
  intro rule r
  have hin : r.incoming? = some { answer := .broken "", cancels := true } := by decide +kernel
  have hstate : r.server.state = .instanceCreated := by decide +kernel
  have hcanceled := cancellation_wins _ [.provision, .provision] (.beforeResponse hin rfl)
  exact ⟨hstate, hin, (hcanceled.1 (by decide +kernel)).1.1⟩

end Launch

end Fleet
