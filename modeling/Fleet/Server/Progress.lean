import Fleet.Server.Provisioning

/-!
# Following an installation

A follower is told of the current state and then of every later one, until the installation ends.
It is not told of a failed or canceled state; it ends with the corresponding failure instead.
Provisioning goes on only as far as a follower needs it for the next state; when the follower has
ended, provisioning goes on to its own end.
-/

namespace Fleet

/-- How following came to its end. -/
inductive FollowEnd where
  /-- the follower has taken as many states as it wanted -/
  | dropped
  /-- the installation has ended -/
  | ended (outcome : Except Failure Unit)

/-- What following has shown. -/
structure Followed where
  states : List InstallState
  finish : FollowEnd
  run : Run

/-- Whether a state is one that followers are not told of. -/
def InstallState.isSilent : InstallState → Bool
  | .failed | .canceled => true
  | _ => false

/-- How following ends in a final state. -/
def Server.followOutcome (s : Server) : Except Failure Unit :=
  match s.state with
  | .failed => .error (.setback (.installation s.id))
  | .canceled => .error (.canceled s.id)
  | _ => .ok ()

/-- The end of following: provisioning goes on to its own end. -/
def Run.endFollowing (r : Run) (steps : Nat) (states : List InstallState) : Option Followed :=
  (r.toEnd steps).map fun run =>
    { states := states.reverse, finish := .ended r.server.followOutcome, run }

/-- Follow an installation from what `watcher` has seen, for at most `wanted` more states. Every
look at the broadcast takes a round, and provisioning has so many steps for each new state.
`tell` is what being told of a state does to the world. -/
def Run.followFrom (tell : InstallState → World → World) (steps : Nat) :
    Nat → Option Nat → Watcher → List InstallState → Run → Option Followed
  | 0, _, _, _, _ => none
  | rounds + 1, wanted, watcher, states, r =>
    if wanted = some 0 then some { states := states.reverse, finish := .dropped, run := r }
    else
      match watcher.next r.server.install with
      | (.value state, watcher) =>
        if state.isSilent then r.endFollowing steps states
        else followFrom tell steps rounds (wanted.map (· - 1)) watcher (state :: states)
          (r.inWorld (tell state))
      | (.finished, _) => r.endFollowing steps states
      -- nothing new yet: provisioning goes on up to the next state
      | (.blocked, watcher) =>
        (r.toTransition steps).bind (followFrom tell steps rounds wanted watcher states)

/-- Follow an installation from its current state on. -/
def Run.follow (r : Run) (tell : InstallState → World → World) (bound : Nat)
    (wanted : Option Nat) : Option Followed :=
  r.followFrom tell bound (bound + 1) wanted .start []

end Fleet
