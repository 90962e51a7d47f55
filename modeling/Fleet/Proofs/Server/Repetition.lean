import Fleet.Proofs.Cloud.Repetition
import Fleet.Proofs.Server.Settlement
import Fleet.Server.Progress
import Fleet.Server.Teardown

/-!
# Servers in another world

Without a deadline nothing that happens to a server depends on the clock.  What is left are its own
record, the tokens and the responses to its requests, so all that can be done with the server is
uniform: in every world that gives the same answers it comes back with the same, leaves the same
server behind and enters the same events.

## Main definitions

- `Server.Untimed`: a server without a deadline
- `Comparison.runs`: runs are alike if they have the same server, and worlds that are alike

## Main statements

- `Uniform.of_server`: a function may look at the server
- `Stage.exchange_uniform`: an exchange is uniform, also if the server is deleted in its middle
- `Run.step_uniform`: a phase of provisioning is uniform
- `Run.toEnd_uniform`, `Run.followFrom_uniform`, `Run.delete_uniform`: and so is what is made of
  phases
-/

namespace Fleet

open Run Stage World

/-! ## §1 Runs that are alike -/

/-- The deadline of a phase. -/
def Phase.deadline? : Phase → Option Float
  | .polling deadline | .pausing deadline => deadline
  | _ => none

theorem Phase.deadline?_of_isSetup {phase : Phase} (h : phase.isSetup = true) :
    phase.deadline? = none := by
  cases phase <;> first | rfl | cases h

/-- No deadline is set, and none is going to be. -/
structure Server.Untimed (s : Server) : Prop where
  installTimeout_eq : s.installTimeout = none
  deadline?_eq : s.phase.deadline? = none

/-- Runs compared by their server and by what their worlds answer. -/
def Comparison.runs (asked : Request → Prop) : Comparison Run where
  world := Run.world
  asked := asked
  Fits r := r.server.Untimed
  Alike r t := t.server = r.server ∧ r.world.Alike asked t.world
  fits_of_alike := by
    rintro r t hr ⟨hserver, -⟩
    rw [hserver]
    exact hr

variable {R : World → World → Prop} {asked : Request → Prop} {α β : Type}

namespace Uniform

/-- A function may look at the server: it is enough that it does the same as some uniform function
as long as the server is the same. -/
theorem of_server {f : Run → Option (β × Run)}
    (h : ∀ s : Server, s.Untimed → ∃ g, Uniform R (.runs asked) g ∧ ∀ w, f ⟨s, w⟩ = g ⟨s, w⟩) :
    Uniform R (.runs asked) f where
  onward := by
    rintro ⟨s, w⟩ b r' hs hf
    obtain ⟨g, hg, heq⟩ := h s hs
    exact hg.onward hs ((heq w).symm.trans hf)
  again := by
    intro r t b r' hr halike hf hasks
    obtain ⟨g, hg, heq⟩ := h r.server hr
    obtain ⟨t', ht', hsame⟩ := hg.again hr halike ((heq r.world).symm.trans hf) hasks
    have ht : f t = g t := by
      have hserver := heq t.world
      rw [← halike.1] at hserver
      exact hserver
    exact ⟨t', ht.trans ht', hsame⟩

/-- What is uniform on worlds is so on the worlds of runs. -/
theorem inWorld {f : World → Option (β × World)} (h : Uniform R (.worlds asked) f) :
    Uniform R (.runs asked) fun r =>
      (f r.world).map fun p => (p.1, { r with world := p.2 }) where
  onward := by
    intro r b r' hr hf
    obtain ⟨⟨_, w⟩, hw, heq⟩ := Option.map_eq_some_iff.mp hf
    cases heq
    exact ⟨hr, (h.onward trivial hw).2⟩
  again := by
    intro r t b r' _ halike hf hasks
    obtain ⟨⟨_, w⟩, hw, heq⟩ := Option.map_eq_some_iff.mp hf
    cases heq
    obtain ⟨v, hv, hbetween, halike'⟩ := h.again trivial halike.2 hw hasks
    exact ⟨{ t with world := v }, by rw [hv]; rfl, hbetween, halike.1, halike'⟩

theorem of_notes [World.Growth R] {f : World → World} {e : Event} (h : Notes f e) :
    Uniform R (.runs asked) (silent fun r => some (r.inWorld f)) :=
  (inWorld h.uniform).of_eq fun _ => rfl

/-- What is done with the server alone is uniform. -/
theorem onServer [World.Growth R] (f : Server → Server) (hf : ∀ s, s.Untimed → (f s).Untimed) :
    Uniform R (.runs asked) (silent fun r => some { r with server := f r.server }) where
  onward := by
    intro r b r' hr h
    cases h
    exact ⟨hf _ hr, refl_of R r.world⟩
  again := by
    rintro ⟨s, w⟩ ⟨_, v⟩ b r' _ ⟨rfl, halike⟩ h _
    cases h
    exact ⟨_, rfl, (since_self v).trans (since_self w).symm, rfl, halike⟩

end Uniform

/-! ## §2 Proposals and exchanges -/

namespace Run

/-- A log line may tell of the server. -/
theorem log_uniform [World.Growth R] (level : Level) (message : Server → String) :
    Uniform R (.runs asked) (silent fun r => some (r.log level (message r.server))) :=
  Uniform.of_server fun s _ => ⟨_, Uniform.of_notes (.of_log level (message s)), fun _ => rfl⟩

theorem goTo_uniform [World.Growth R] (phase : Phase) (h : phase.deadline? = none) :
    Uniform R (.runs asked) (silent fun r => some (r.goTo phase)) :=
  Uniform.onServer (fun s => { s with phase }) fun _ hs => ⟨hs.installTimeout_eq, h⟩

/-- What becomes of a proposed state depends on the server only. -/
theorem enter_uniform [World.Growth R] (next : InstallState)
    (endpoint : Option ManagementEndpoint) :
    Uniform R (.runs asked) fun r => some (r.enter next endpoint) := by
  refine Uniform.of_server fun s _ => ?_
  cases hv : s.verdict next with
  | accepted =>
    -- the log line, the event, and the change of the server
    have hline : Uniform R (.runs asked) (silent fun r =>
        some (r.log .info s!"Server {s.id} install state: {next.name}")) :=
      log_uniform .info fun _ => s!"Server {s.id} install state: {next.name}"
    have hentered : Uniform R (.runs asked) (silent fun r =>
        some (r.inWorld (·.record (.entered next)))) := Uniform.of_notes (.of_record rfl)
    let accept (s' : Server) : Server := { s' with
      endpoint := endpoint.or s.endpoint
      install := s.install.advance next }
    have hserver : Uniform R (.runs asked) (silent fun r =>
        some { r with server := accept r.server }) :=
      Uniform.onServer accept fun _ hs => ⟨hs.installTimeout_eq, hs.deadline?_eq⟩
    refine ⟨_, hline.comp (hentered.comp (hserver.bind fun _ => .pure true)), fun w => ?_⟩
    simp only [enter, hv]
    rfl
  | behind =>
    have hline : Uniform R (.runs asked) (silent fun r =>
        some (r.log .debug s!"Server {s.id}: ignoring {next.name}, already {s.state.name}")) :=
      log_uniform .debug fun _ => s!"Server {s.id}: ignoring {next.name}, already {s.state.name}"
    refine ⟨_, hline.comp (.pure false), fun w => ?_⟩
    simp only [enter, hv]
  | closed | unchanged =>
    exact ⟨_, Uniform.pure false, fun w => by simp only [enter, hv]⟩

theorem proceed_uniform [World.Growth R] (next : InstallState) :
    Uniform R (.runs asked) (silent fun r => some (r.proceed next)) :=
  ((enter_uniform next none).bind fun _ => .pure ()).of_eq fun _ => rfl

/-- A proposed state is no request. -/
theorem enter_remarks (r : Run) (next : InstallState) (endpoint : Option ManagementEndpoint) :
    r.world.Remarks (r.enter next endpoint).2.world := by
  unfold enter
  simp only
  split
  · exact (Remarks.record rfl _).trans (.record rfl _)
  · exact .record rfl _
  · exact .refl _
  · exact .refl _

theorem cancel_remarks (r : Run) : r.world.Remarks r.cancel.world :=
  r.enter_remarks .canceled none

end Run

namespace Stage

theorem ofCall_uniform {call : Call α} (h : UniformAction R (.worlds asked) call) :
    UniformAction R (.runs asked) (ofCall call) :=
  (Uniform.inWorld h).of_eq fun _ => rfl

/-- A stage may look at the server. -/
theorem server_bind_uniform {k : Server → Stage α} (h : ∀ s, UniformAction R (.runs asked) (k s)) :
    UniformAction R (.runs asked) (server >>= k) :=
  Uniform.of_server fun s _ => ⟨total (k s), h s, fun _ => rfl⟩

variable [World.Growth R]

/-- A change as a stage. -/
theorem modify_uniform {f : Run → Run} (h : Uniform R (.runs asked) (silent fun r => some (f r))) :
    UniformAction R (.runs asked) (modify f : Stage PUnit) :=
  (h.bind fun _ => Uniform.pure (Except.ok ⟨⟩)).of_eq fun _ => rfl

theorem log_uniform (level : Level) (message : String) :
    UniformAction R (.runs asked) (log level message) :=
  modify_uniform (Run.log_uniform level fun _ => message)

theorem proceed_uniform (next : InstallState) :
    UniformAction R (.runs asked) (modify (·.proceed next) : Stage PUnit) :=
  modify_uniform (Run.proceed_uniform next)

/-- In an exchange the network responds to the request, whatever happens before the response is
read. -/
theorem exchange_plays (request : Request) (r : Run) :
    r.world.Plays ((exchange request).outcome r).2.world := by
  rw [exchange, outcome_server_bind]
  rcases hd : (r.server.client.dispatch request).outcome r.world with ⟨f | delivery, w⟩
  · have hfail : (ofCall (r.server.client.dispatch request)).outcome r =
        (.error f, { r with world := w }) := by
      rw [ofCall_outcome, hd]
    rw [show Stage.outcome (_ >>= _) r = _ from run_bind_of_error hfail]
    exact (r.server.client.dispatch_plays request).of_run hd
  · have hsent : (ofCall (r.server.client.dispatch request)).outcome r =
        (.ok delivery, { r with world := w }) := by
      rw [ofCall_outcome, hd]
    rw [show Stage.outcome (_ >>= _) r = _ from run_bind_of_ok hsent]
    split
    · exact Client.read_plays hd (cancel_remarks { r with world := w })
    · exact Client.read_plays hd (.refl w)

/-- An exchange is uniform, also if the server is deleted in the middle of it. -/
theorem exchange_uniform (request : Request) :
    UniformAction Plays (.runs asked) (exchange request) := by
  have hexchange : UniformAction (Extends fun _ => True) (.runs asked) (exchange request) := by
    refine server_bind_uniform fun s =>
      (ofCall_uniform (s.client.dispatch_uniform request)).bind fun delivery => ?_
    have hread : UniformAction (Extends fun _ => True) (.runs asked)
        (ofCall (Client.read delivery)) := ofCall_uniform (Client.read_uniform delivery)
    split
    · exact (proceed_uniform .canceled).bind fun _ => hread
    · exact hread
  refine Uniform.strengthen hexchange fun {r o m} h => ?_
  have hm : ((exchange request).outcome r).2 = m := congrArg Prod.snd (Option.some.inj h)
  rw [← hm]
  exact exchange_plays request r

/-! ## §3 Stages -/

theorem awaitInstance_uniform : UniformAction Plays (.runs asked) awaitInstance := by
  refine server_bind_uniform fun s => (UniformAction.ofExcept _).discard.bind fun _ => ?_
  split
  · exact .pure _
  · exact (proceed_uniform _).bind fun _ => .pure _

theorem consultAddress_uniform : UniformAction Plays (.runs asked) consultAddress :=
  server_bind_uniform fun _ => (UniformAction.ofExcept _).bind fun _ => .pure _

theorem describeInstance_uniform : UniformAction Plays (.runs asked) describeInstance := by
  refine server_bind_uniform fun s => (exchange_uniform _).bind fun data => ?_
  split
  · exact .throw _
  · exact (UniformAction.ofExcept _).bind fun region => (log_uniform _ _).bind fun _ =>
      (UniformAction.ofExcept _).bind fun resource => .pure _

theorem reserveAddress_uniform (region : RegionLocator) (resource : Json) :
    UniformAction Plays (.runs asked) (reserveAddress region resource) := by
  refine server_bind_uniform fun s => (exchange_uniform _).bind fun operation =>
    (UniformAction.ofExcept _).bind fun errors => ?_
  split
  · exact .throw _
  · exact (UniformAction.ofExcept _).bind fun name => .pure _

theorem awaitAddress_uniform (region : RegionLocator) (name : Json) :
    UniformAction Plays (.runs asked) (awaitAddress region name) := by
  refine server_bind_uniform fun s => (log_uniform _ _).bind fun _ =>
    (exchange_uniform _).bind fun operation =>
      (ofCall_uniform (Operation.checked_uniform operation)).discard.bind fun _ =>
        (UniformAction.ofExcept _).bind fun done => ?_
  split
  · exact .pure _
  · exact (log_uniform _ _).bind fun _ => .pure _

theorem confirmAddress_uniform : UniformAction Plays (.runs asked) confirmAddress := by
  refine server_bind_uniform fun s => ?_
  split
  · exact (proceed_uniform _).bind fun _ => .pure _
  · exact .pure _

theorem applySnapshot_uniform (snapshot : Json) :
    UniformAction R (.runs asked) (applySnapshot snapshot) := by
  refine (UniformAction.ofExcept _).bind fun signalled => ?_
  split
  · exact .pure _
  · refine (UniformAction.ofExcept _).bind fun endpoint => ?_
    have hentered : Uniform R (.runs asked) (silent fun r =>
        some (r.enter .completed (some endpoint)).2) :=
      ((enter_uniform .completed (some endpoint)).bind fun _ => .pure ()).of_eq fun _ => rfl
    exact (modify_uniform hentered).bind fun _ => .pure _
  · exact (proceed_uniform _).bind fun _ => .pure _

theorem fetchSnapshot_uniform : UniformAction Plays (.runs asked) fetchSnapshot := by
  refine server_bind_uniform fun s =>
    ((exchange_uniform _).tryCatch fun f => ?_).bind fun resource => .ofExcept _
  split
  · exact .pure _
  · exact .throw _

theorem poll_uniform : UniformAction Plays (.runs asked) poll :=
  fetchSnapshot_uniform.bind fun snapshot => applySnapshot_uniform snapshot

end Stage

/-- Every stage of the setup is uniform. -/
theorem Phase.setup?_uniform {phase : Phase} {stage : Stage Phase}
    (h : phase.setup? = some stage) : UniformAction Plays (.runs asked) stage := by
  cases phase <;> cases h
  · exact awaitInstance_uniform
  · exact consultAddress_uniform
  · exact describeInstance_uniform
  · exact reserveAddress_uniform _ _
  · exact awaitAddress_uniform _ _
  · exact confirmAddress_uniform

/-! ## §4 Phases -/

namespace Run

theorem abandon_uniform (f : Failure) :
    Uniform Plays (.runs asked) (silent fun r => some (r.abandon f)) := by
  let settleWith (s : Server) : Server := { s with readiness := .failed f, phase := .finished }
  have hsettled : Uniform Plays (.runs asked) (silent fun r =>
      some { r with server := settleWith r.server }) :=
    Uniform.onServer settleWith fun _ hs => ⟨hs.installTimeout_eq, rfl⟩
  let line (s : Server) : String := s!"Setup of server {s.id} failed: {f.message}"
  exact (Uniform.comp (log_uniform .error line) ((proceed_uniform .failed).comp hsettled)).of_eq
    fun _ => rfl

/-- Where the setup goes on after a stage. -/
def afterStage (r : Run) : Except Failure Phase → Run
  | .ok phase => r.goTo phase
  | .error f => r.abandon f

theorem setUp_eq (r : Run) (stage : Stage Phase) :
    r.setUp stage = (stage.outcome r).2.afterStage (stage.outcome r).1 := by
  unfold setUp
  rcases stage.outcome r with ⟨f | phase, m⟩ <;> rfl

theorem setUp_uniform {stage : Stage Phase} (hstage : UniformAction Plays (.runs asked) stage)
    (hreturns : Returns (fun next : Phase => next.isSetup = true) stage) :
    Uniform Plays (.runs asked) (silent fun r => some (r.setUp stage)) := by
  have hafter : ∀ o : Except Failure Phase, (∀ phase, o = .ok phase → phase.isSetup = true) →
      Uniform Plays (.runs asked) (silent fun r => some (r.afterStage o)) := by
    intro o ho
    cases o with
    | ok phase => exact goTo_uniform phase (Phase.deadline?_of_isSetup (ho phase rfl))
    | error f => exact abandon_uniform f
  refine (Uniform.bind_of hstage ?_ hafter).of_eq fun r => ?_
  · rintro r o r' - h phase rfl
    exact hreturns r phase (congrArg Prod.fst (Option.some.inj h))
  · simp only [silent, setUp_eq]
    rfl

/-- Without a deadline to fix, settling depends on the server only. -/
theorem settle_uniform : Uniform Plays (.runs asked) (silent fun r => some r.settle) := by
  refine Uniform.of_server fun s hs => ?_
  let settled (s' : Server) : Server := { s' with
    readiness := .ready
    phase := if s'.install.closed then .finished else .polling none }
  refine ⟨_, Uniform.onServer settled fun s' hs' => ⟨hs'.installTimeout_eq, ?_⟩, fun w => ?_⟩
  · show (if s'.install.closed then Phase.finished else Phase.polling none).deadline? = none
    split <;> rfl
  · simp only [silent, settle, settled, hs.installTimeout_eq, Option.map_none]

/-- Where a server without a deadline goes on after a poll. -/
def afterPoll (r : Run) : Except Failure Bool → Run
  | .ok true => r.goTo .finished
  | .ok false => r.goTo (.pausing none)
  | .error f =>
    let r := r.log .error s!"Polling install state of server {r.server.id} failed: {f.message}"
    (r.proceed .failed).goTo .finished

theorem pollOnce_eq {r : Run} (h : r.server.install.closed = false) :
    r.pollOnce none = (poll.outcome r).2.afterPoll (poll.outcome r).1 := by
  simp only [pollOnce, h]
  rcases poll.outcome r with ⟨f | - | -, m⟩ <;> rfl

theorem pollOnce_uniform :
    Uniform Plays (.runs asked) (silent fun r => some (r.pollOnce none)) := by
  have hafter : ∀ o : Except Failure Bool,
      Uniform Plays (.runs asked) (silent fun r => some (r.afterPoll o)) := by
    intro o
    rcases o with f | - | -
    · let line (s : Server) : String :=
        s!"Polling install state of server {s.id} failed: {f.message}"
      have hline : Uniform Plays (.runs asked) (silent fun r =>
          some (r.log .error (line r.server))) := log_uniform .error line
      exact hline.comp ((proceed_uniform .failed).comp (goTo_uniform .finished rfl))
    · exact goTo_uniform (.pausing none) rfl
    · exact goTo_uniform .finished rfl
  refine Uniform.of_server fun s _ => ?_
  cases hclosed : s.install.closed with
  | true =>
    refine ⟨_, goTo_uniform .finished rfl, fun w => ?_⟩
    simp only [silent, pollOnce, hclosed, if_true]
  | false =>
    refine ⟨_, Uniform.bind poll_uniform hafter, fun w => ?_⟩
    simp only [silent, pollOnce_eq (r := ⟨s, w⟩) hclosed]
    rfl

/-- Without a deadline a pause is a wait, unless the installation has ended. -/
theorem pause_uniform : Uniform Plays (.runs asked) (silent fun r => some (r.pause none)) := by
  refine Uniform.of_server fun s _ => ?_
  have hover (clock : Float) : isOver none clock = false := rfl
  cases hclosed : s.install.closed with
  | true =>
    refine ⟨_, goTo_uniform .finished rfl, fun w => ?_⟩
    simp only [silent, pause, hover, hclosed]
    rfl
  | false =>
    have hwait : Uniform Plays (.runs asked) (silent fun r =>
        some (r.inWorld (·.wait s.pollInterval))) := Uniform.of_notes (.of_wait _)
    refine ⟨_, hwait.comp (goTo_uniform (.polling none) rfl), fun w => ?_⟩
    simp only [silent, pause, hover, hclosed]
    rfl

/-- A phase of provisioning is uniform. -/
theorem step_uniform : Uniform Plays (.runs asked) (silent fun r => some r.step) := by
  refine Uniform.of_server fun s hs => ?_
  cases hsetup : s.phase.setup? with
  | some stage =>
    refine ⟨_, setUp_uniform (Phase.setup?_uniform hsetup) (Phase.setup?_returns hsetup),
      fun w => ?_⟩
    simp only [silent, step_of_setup? (r := ⟨s, w⟩) hsetup]
  | none =>
    cases hphase : s.phase with
    | settling => exact ⟨_, settle_uniform, fun w => by simp only [silent, step, hphase]⟩
    | polling deadline =>
      obtain rfl : deadline = none := by
        simpa only [hphase, Phase.deadline?] using hs.deadline?_eq
      exact ⟨_, pollOnce_uniform, fun w => by simp only [silent, step, hphase]⟩
    | pausing deadline =>
      obtain rfl : deadline = none := by
        simpa only [hphase, Phase.deadline?] using hs.deadline?_eq
      exact ⟨_, pause_uniform, fun w => by simp only [silent, step, hphase]⟩
    | finished =>
      exact ⟨_, Uniform.pure (), fun w => by simp only [silent, step, hphase, Option.map_some]⟩
    | _ =>
      -- the other phases have a stage
      rw [hphase] at hsetup
      cases hsetup

/-! ## §5 What is made of phases -/

theorem toEnd_uniform (steps : Nat) : Uniform Plays (.runs asked) (silent (toEnd steps)) := by
  induction steps with
  | zero =>
    refine Uniform.of_server fun s _ => ?_
    cases hfin : s.isFinished with
    | true => exact ⟨_, Uniform.pure (), fun w => by simp only [silent, toEnd, hfin]; rfl⟩
    | false => exact ⟨_, Uniform.none, fun w => by simp only [silent, toEnd, hfin]; rfl⟩
  | succ steps ih =>
    refine Uniform.of_server fun s _ => ?_
    cases hfin : s.isFinished with
    | true => exact ⟨_, Uniform.pure (), fun w => by simp only [silent, toEnd, hfin]; rfl⟩
    | false => exact ⟨_, step_uniform.comp ih, fun w => by simp only [silent, toEnd, hfin]; rfl⟩

theorem toTransition_uniform (steps : Nat) :
    Uniform Plays (.runs asked) (silent (toTransition steps)) := by
  induction steps with
  | zero =>
    refine Uniform.of_server fun s _ => ?_
    cases hfin : s.isFinished with
    | true => exact ⟨_, Uniform.pure (), fun w => by simp only [silent, toTransition, hfin]; rfl⟩
    | false => exact ⟨_, Uniform.none, fun w => by simp only [silent, toTransition, hfin]; rfl⟩
  | succ steps ih =>
    refine Uniform.of_server fun s _ => ?_
    cases hfin : s.isFinished with
    | true => exact ⟨_, Uniform.pure (), fun w => by simp only [silent, toTransition, hfin]; rfl⟩
    | false =>
      -- whether there is a new state shows in the version of the stream
      have hnext : Uniform Plays (.runs asked) (silent fun r =>
          if r.server.install.version = s.install.version then toTransition steps r
          else some r) := by
        refine Uniform.of_server fun s' _ => ?_
        by_cases hversion : s'.install.version = s.install.version
        · exact ⟨_, ih, fun w => by simp only [silent, if_pos hversion]⟩
        · exact ⟨_, Uniform.pure (), fun w => by simp only [silent, if_neg hversion]; rfl⟩
      exact ⟨_, step_uniform.comp hnext, fun w => by simp only [silent, toTransition, hfin]; rfl⟩

/-- What following comes back with, and the run after it. -/
def shown (f : Run → Option Followed) (r : Run) : Option ((List InstallState × FollowEnd) × Run) :=
  (f r).map fun followed => ((followed.states, followed.finish), followed.run)

theorem endFollowing_uniform (steps : Nat) (states : List InstallState) :
    Uniform Plays (.runs asked) (shown (endFollowing · steps states)) := by
  refine Uniform.of_server fun s _ => ?_
  refine ⟨_, (toEnd_uniform steps).bind fun _ =>
    Uniform.pure (states.reverse, FollowEnd.ended s.followOutcome), fun w => ?_⟩
  simp only [shown, endFollowing, silent]
  cases toEnd steps ⟨s, w⟩ <;> rfl

/-- Following is uniform if being told of a state is only noted. -/
theorem followFrom_uniform {tell : InstallState → World → World}
    (htell : ∀ state, ∃ e, Notes (tell state) e) (steps rounds : Nat) (wanted : Option Nat)
    (watcher : Watcher) (states : List InstallState) :
    Uniform Plays (.runs asked)
      (shown (followFrom tell steps rounds wanted watcher states)) := by
  induction rounds generalizing wanted watcher states with
  | zero => exact Uniform.none
  | succ rounds ih =>
    refine Uniform.of_server fun s _ => ?_
    by_cases hwanted : wanted = some 0
    · refine ⟨_, Uniform.pure (states.reverse, FollowEnd.dropped), fun w => ?_⟩
      simp only [shown, followFrom, if_pos hwanted, Option.map_some]
    · -- what the watcher sees depends on the server only
      rcases hnext : watcher.next s.install with ⟨state | - | -, watcher'⟩
      · cases hsilent : state.isSilent with
        | true =>
          refine ⟨_, endFollowing_uniform steps states, fun w => ?_⟩
          simp only [shown, followFrom, if_neg hwanted, hnext, hsilent, if_true]
        | false =>
          obtain ⟨e, he⟩ := htell state
          have hlater := ih (wanted.map (· - 1)) watcher' (state :: states)
          refine ⟨_, (Uniform.of_notes he).comp hlater, fun w => ?_⟩
          simp only [shown, followFrom, if_neg hwanted, hnext, hsilent]
          rfl
      · refine ⟨_, endFollowing_uniform steps states, fun w => ?_⟩
        simp only [shown, followFrom, if_neg hwanted, hnext]
      · refine ⟨_, (toTransition_uniform steps).bind fun _ => ih wanted watcher' states,
          fun w => ?_⟩
        simp only [shown, followFrom, if_neg hwanted, hnext, silent]
        cases toTransition steps ⟨s, w⟩ <;> rfl

/-! ## §6 Deleting a server -/

theorem tearDown_uniform : Uniform Plays (.runs asked) fun r => some r.tearDown := by
  refine Uniform.of_server fun s _ => ?_
  have hremoved : UniformAction Plays (.runs asked) (ofCall s.removeResources) :=
    ofCall_uniform s.removeResources_uniform
  cases hreadiness : s.readiness with
  | failed f =>
    have hline : Uniform Plays (.runs asked) (silent fun r => some (r.log .warning
        s!"Attempting deletion of server that failed setup: {f.message}")) :=
      log_uniform .warning fun _ => s!"Attempting deletion of server that failed setup: {f.message}"
    refine ⟨_, hline.comp hremoved, fun w => ?_⟩
    simp only [tearDown, hreadiness]
    rfl
  | _ =>
    refine ⟨_, hremoved, fun w => ?_⟩
    simp only [tearDown, hreadiness]
    rfl

theorem awaitSettled_uniform (steps : Nat) :
    Uniform Plays (.runs asked) (silent (awaitSettled · steps)) := by
  refine Uniform.of_server fun s _ => ?_
  cases hsettled : s.readiness.isSettled with
  | true =>
    exact ⟨_, Uniform.pure (), fun w => by simp only [silent, awaitSettled, hsettled]; rfl⟩
  | false =>
    exact ⟨_, toEnd_uniform steps, fun w => by simp only [silent, awaitSettled, hsettled]; rfl⟩

theorem delete_uniform (steps : Nat) : Uniform Plays (.runs asked) fun r => r.delete steps := by
  refine ((proceed_uniform .canceled).comp
    ((awaitSettled_uniform steps).bind fun _ => tearDown_uniform)).of_eq fun r => ?_
  simp only [delete, silent, cancel]
  cases (r.proceed .canceled).awaitSettled steps <;> rfl

end Run

end Fleet
