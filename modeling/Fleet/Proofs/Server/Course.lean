import Fleet.Proofs.Server.Phases
import Fleet.Server.Progress

/-!
# The course of a server

From its launch on, a server is moved by whoever works with it, in any order: its provisioning goes
on by a phase, somebody proposes a state or enters a snapshot, a follower is told of a state, and
the resources are removed once the setup is settled.  The operations of a server are made of these
moves, so what every move keeps holds after every sequence of operations.

## Main definitions

- `Launch`: what a server is made of, and the world it is made in
- `Move`, `Run.after`: the moves of a run, and the run after a list of them

## Main statements

- `Run.after_sound`, `Run.after_onward`: what every course of moves keeps
- `Run.mem_since_after`: every event belongs to a move that was permitted to bring it about
-/

namespace Fleet

open Run World

/-! ## §1 Launches -/

/-- What a server is made of, and the world in which it is made. -/
structure Launch where
  client : Client
  id : String
  locator : InstanceLocator
  name : Json
  creation : Except Failure Unit
  pollInterval : Option Seconds
  installTimeout : Option Seconds
  world : World

namespace Launch

/-- A launch against the given network, with a token at hand and the instance created. -/
def against (network : Network) : Launch where
  client := {}
  id := "account:1"
  locator := ⟨"project", "region-a", "1"⟩
  name := .str "outline"
  creation := .ok ()
  pollInterval := none
  installTimeout := none
  world := { network, tokens := .make (some "token") none none none }

/-- The run with which the course of a server begins. -/
def start (l : Launch) : Run :=
  let (server, world) :=
    (Server.make l.client l.id l.locator l.name l.creation l.pollInterval l.installTimeout).run
      l.world
  { server, world }

/-- The events of a launch: log lines, and the question for an address of the given name. -/
def Asks (l : Launch) : Event → Prop
  | .logged .. => True
  | .requested sent => ∃ region, sent.request = l.client.getAddress region l.name.text
  | _ => False

theorem start_world (l : Launch) :
    l.start.world = ((Server.checkAddress l.client l.locator l.name).outcome l.world).2 := rfl

theorem start_extends (l : Launch) : l.world.Extends l.Asks l.start.world := by
  rw [start_world]
  refine Within.tryCatch (Within.bind (.ofExcept _) fun region => .bind (.discard ?_) fun _ =>
    .pure _) (fun f => ?_) l.world
  · refine Within.mono (l.client.execute_extends _) fun w v h => h.mono fun e he => ?_
    cases e with
    | requested sent => exact ⟨region, (Option.some.inj he).symm⟩
    | _ => exact he
  · split
    · exact .pure _
    · exact .throw _

/-- Provisioning has not begun, and nothing is known of the installation. -/
theorem start_sound (l : Launch) : l.start.Sound where
  closed_eq := rfl
  completed_of_endpoint h := by cases h
  settled_eq := rfl
  closed_of_finished h := by cases h
  finished_of_failed f h := by cases h

/-- The launch enters no state. -/
theorem transitionsSince_start (l : Launch) : l.world.transitionsSince l.start.world = [] := by
  apply transitionsSince_eq_nil
  apply l.start_extends.mono
  intro e he
  cases e with
  | entered => exact he.elim
  | _ => rfl

end Launch

/-! ## §2 Moves -/

/-- The events of telling a follower of a state. -/
def Event.Tells : Event → Prop
  | .reported _ | .logged .. => True
  | _ => False

/-- Whoever follows an installation: being told of a state is reported or logged. -/
structure Follower where
  tell : InstallState → World → World
  extends_tell : ∀ (state : InstallState) (w : World), w.Extends Event.Tells (tell state w)

/-- What may happen to a run next. -/
inductive Move where
  /-- provisioning goes on by one phase -/
  | provision
  /-- somebody proposes a state -/
  | propose (next : InstallState)
  /-- somebody enters a snapshot -/
  | apply (snapshot : Json)
  /-- a follower is told of a state -/
  | tell (follower : Follower) (state : InstallState)
  /-- somebody who has waited for the setup removes the resources -/
  | tearDown

namespace Run

/-- The run after one move. The resources are not removed before the setup is settled. -/
def move (r : Run) : Move → Run
  | .provision => r.step
  | .propose next => r.proceed next
  | .apply snapshot => ((applySnapshot snapshot).outcome r).2
  | .tell follower state => r.inWorld (follower.tell state)
  | .tearDown => if r.server.readiness.isSettled then r.tearDown.2 else r

/-- The run after some moves, one after the other. -/
def after (r : Run) (moves : List Move) : Run :=
  moves.foldl move r

@[simp] theorem after_nil (r : Run) : r.after [] = r := rfl

@[simp] theorem after_cons (r : Run) (m : Move) (moves : List Move) :
    r.after (m :: moves) = (r.move m).after moves := rfl

theorem after_append (r : Run) (moves moves' : List Move) :
    r.after (moves ++ moves') = (r.after moves).after moves' :=
  List.foldl_append

end Run

/-! ## §3 What every course keeps -/

/-- Tearing down is a teardown of the resources after at most a log line, which leaves the tokens
and the network as they were. -/
theorem Run.tearDown_eq (r : Run) : ∃ w, w.tokens = r.world.tokens ∧
    w.network = r.world.network ∧ r.world.Extends (Event.Serves none) w ∧
    r.tearDown = ((r.server.removeResources.outcome w).1,
      { r with world := (r.server.removeResources.outcome w).2 }) := by
  cases hr : r.server.readiness with
  | failed f =>
    -- a setup that failed is no obstacle, but worth a warning
    refine ⟨r.world.log .warning
      s!"Attempting deletion of server that failed setup: {f.message}", rfl, rfl,
      .record trivial _, ?_⟩
    simp only [tearDown, hr]
    rfl
  | _ =>
    refine ⟨r.world, rfl, rfl, .refl _, ?_⟩
    simp only [tearDown, hr]
    rfl

namespace Run

/-- The events that a move may bring about: provisioning and the teardown make requests, and the
other moves do not. -/
def Permits (r : Run) : Move → Event → Prop
  | .provision, e => r.Brings e
  | .propose _, e | .apply _, e => e.Announces
  | .tell .., e => e.Tells
  | .tearDown, e => e.Serves none ∨ (r.server.readiness.isSettled = true ∧
      ∃ request ∈ r.server.removals, e.Serves (some request))

theorem tearDown_onward (r : Run) :
    Onward (fun e => e.Serves none ∨ ∃ request ∈ r.server.removals, e.Serves (some request)) r
      r.tearDown.2 := by
  obtain ⟨w, -, -, hw, heq⟩ := r.tearDown_eq
  have hremoved : r.world.Extends
      (fun e => (e.Serves none ∨ ∃ request ∈ r.server.removals, e.Serves (some request)) ∧
        e.state? = none) (r.server.removeResources.outcome w).2 := by
    refine (hw.mono fun e he => ⟨Or.inl he, he.state?_eq⟩).trans ?_
    refine (Server.removeResources_extends r.server w).mono fun e he => ⟨Or.inr he, ?_⟩
    obtain ⟨request, -, hserves⟩ := he
    exact hserves.state?_eq
  rw [heq]
  exact onward_world hremoved

/-- Every move keeps a run sound. -/
theorem move_sound {r : Run} (hr : r.Sound) (m : Move) : (r.move m).Sound := by
  cases m with
  | provision => exact step_sound hr
  | propose next =>
    have h : Evolves (Event.Serves none) r (r.proceed next) := evolves_proceed r next
    exact h.sound hr
  | apply snapshot => exact (applySnapshot_evolves snapshot r).sound hr
  | tell follower state => exact hr.of_world _
  | tearDown =>
    simp only [move]
    split
    · obtain ⟨w, -, -, -, heq⟩ := r.tearDown_eq
      rw [heq]
      exact hr.of_world _
    · exact hr

/-- Every move brings about permitted events only. -/
theorem move_onward (r : Run) (m : Move) : Onward (r.Permits m) r (r.move m) := by
  cases m with
  | provision => exact step_onward r
  | propose next => exact onward_enter r (by simp)
  | apply snapshot =>
    -- a snapshot is entered without any request
    exact (applySnapshot_evolves snapshot r).onward.mono fun e he =>
      he.elim Event.Serves.announces id
  | tell follower state =>
    refine onward_world ((follower.extends_tell state r.world).mono fun e he => ⟨he, ?_⟩)
    cases e with
    | entered => exact he.elim
    | _ => rfl
  | tearDown =>
    simp only [move]
    split
    · rename_i hs
      exact r.tearDown_onward.mono fun e he => he.imp_right fun h => ⟨hs, h⟩
    · exact .refl r

/-- A course keeps a run sound, since each of its moves does. -/
theorem after_sound {r : Run} (hr : r.Sound) (moves : List Move) : (r.after moves).Sound := by
  induction moves generalizing r with
  | nil => exact hr
  | cons m moves ih => exact ih (move_sound hr m)

theorem after_onward (r : Run) (moves : List Move) :
    Onward (fun _ => True) r (r.after moves) := by
  induction moves generalizing r with
  | nil => exact .refl r
  | cons m moves ih => exact ((move_onward r m).mono fun _ _ => trivial).trans (ih (r.move m))

/-- Every event of a course belongs to a move of it, and was permitted by the run before it. -/
theorem mem_since_after {r : Run} {moves : List Move} {e : Event}
    (he : e ∈ r.world.since (r.after moves).world) :
    ∃ before m rest, moves = before ++ m :: rest ∧
      e ∈ (r.after before).world.since ((r.after before).move m).world ∧
      (r.after before).Permits m e := by
  -- the journal of a course is that of its first move followed by that of the others
  induction moves generalizing r with
  | nil =>
    rw [after_nil, since_self] at he
    cases he
  | cons m moves ih =>
    rw [after_cons, since_trans (move_onward r m).journal (after_onward (r.move m) moves).journal]
      at he
    rcases List.mem_append.mp he with he | he
    · exact ⟨[], m, moves, rfl, he, (move_onward r m).journal.mem_since he⟩
    · obtain ⟨before, m', rest, rfl, hsince, hpermits⟩ := ih he
      exact ⟨m :: before, m', rest, rfl, hsince, hpermits⟩

end Run

end Fleet
