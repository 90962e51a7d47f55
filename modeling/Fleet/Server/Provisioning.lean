import Fleet.Server.Basic

/-!
# Provisioning

Provisioning waits for the instance to be created, makes its address static, declares the setup
settled and then polls the guest attributes until the installation ends.  A failure of the setup
fails the installation and settles the setup with that failure; a failure of a poll, or a deadline
that has passed, fails the installation.

## Main definitions

- `Stage`: what a phase does with a run, which may fail
- `Run.step`: one phase
- `Run.toEnd`, `Run.toTransition`: phase after phase, to the end or to the next accepted state
-/

namespace Fleet

/-- An action on a run that comes back with a value or a failure. -/
abbrev Stage (α : Type) := ExceptT Failure (StateM Run) α

namespace Stage

/-- The outcome of a stage, and the run after it. -/
def outcome {α : Type} (stage : Stage α) (r : Run) : Except Failure α × Run :=
  (ExceptT.run stage).run r

/-- A call as a stage: it changes only the world. -/
def ofCall {α : Type} (call : Call α) : Stage α :=
  fun r =>
    let (result, world) := call.outcome r.world
    (result, { r with world })

/-- Write a log line. -/
def log (level : Level) (message : String) : Stage Unit :=
  modify (·.log level message)

/-- Go on with the value, or stop with the fault. -/
def ofFault {α : Type} (x : Except Fault α) : Stage α :=
  ofExcept (x.mapError .fault)

/-- The server of the run. -/
def server : Stage Server :=
  return (← get).server

/-- Carry out a request for the server. If it is deleted while the request is under way, that
happens before the response is read. -/
def exchange (request : Request) : Stage Json := do
  let delivery ← ofCall ((← server).client.dispatch request)
  -- the request is on its way: a deletion now is seen before the response, whatever that is
  if delivery.response.cancels then modify Run.cancel
  ofCall (Client.read delivery)

end Stage

open Stage

/-! ## §1 Setup -/

/-- The address by which an instance is reached as long as it has no static one. -/
def ephemeralAddress (data : Json) : Except Fault Json := do
  let interfaces ← data.part "networkInterfaces"
  let configs ← (← interfaces.first).part "accessConfigs"
  (← configs.first).part "natIP"

/-- The resource of a static address. -/
def addressResource (data name address : Json) : Except Fault Json := do
  let addressName ← data.getD "name" name
  let description ← data.getD "description" (.str "")
  return .obj [("name", addressName), ("description", description), ("address", address)]

/-- Look whether the instance was created. -/
def awaitInstance : Stage Phase := do
  let s ← server
  discard (ofExcept s.creation)
  -- a server that was deleted meanwhile is left as it is
  if s.install.closed then return .settling
  modify (·.proceed .instanceCreated)
  return .consultingAddress

/-- Look whether the address is static already. -/
def consultAddress : Stage Phase := do
  let isStatic ← ofExcept (← server).addressCheck
  return if isStatic then .confirmingAddress else .describingInstance

/-- Find the ephemeral address of the instance. -/
def describeInstance : Stage Phase := do
  let s ← server
  let data ← exchange (s.client.getInstance s.locator)
  match ephemeralAddress data with
  | .error _ => throw (.setback (.noEphemeralAddress s.name))
  | .ok address =>
    let region ← ofExcept s.locator.regionLocator
    log .info s!"Promoting {address.text} to a static IP for {s.name.text}"
    let resource ← ofFault (addressResource data s.name address)
    return .reservingAddress region resource

/-- Reserve the ephemeral address. -/
def reserveAddress (region : RegionLocator) (resource : Json) : Stage Phase := do
  let s ← server
  let operation ← exchange (s.client.createAddress region resource)
  let errors ← ofFault (Operation.errors operation)
  if errors.truthy then throw (.setback (.addressCreation errors))
  let name ← ofFault (operation.get "name")
  return if name.truthy then .awaitingAddress region name else .confirmingAddress

/-- Wait once for the operation that reserves the address. -/
def awaitAddress (region : RegionLocator) (name : Json) : Stage Phase := do
  let s ← server
  log .debug s!"Waiting on region operation {name.text} in {region.region}"
  let operation ← exchange (s.client.waitRegionOperation region name.text)
  discard (ofCall (Operation.checked operation))
  if ← ofFault (Operation.isDone operation) then return .confirmingAddress
  log .info
    s!"Static IP creation {name.text} still {Operation.statusText operation}, waiting again"
  return .awaitingAddress region name

/-- Report that the address is static. -/
def confirmAddress : Stage Phase := do
  if !(← server).install.closed then modify (·.proceed .ipAllocated)
  return .settling

/-- Give the setup up for a failure. -/
def Run.abandon (r : Run) (f : Failure) : Run :=
  let r := r.log .error s!"Setup of server {r.server.id} failed: {f.message}"
  let r := r.proceed .failed
  { r with server := { r.server with readiness := .failed f, phase := .finished } }

/-- One stage of the setup. -/
def Run.setUp (r : Run) (stage : Stage Phase) : Run :=
  match stage.outcome r with
  | (.ok phase, r) => r.goTo phase
  | (.error f, r) => r.abandon f

/-- Declare the setup settled, and begin to poll unless the installation has ended. The deadline
is fixed here, once. -/
def Run.settle (r : Run) : Run :=
  let s := { r.server with readiness := .ready }
  let deadline := s.installTimeout.map (r.world.clock + ·.toFloat)
  let phase := if s.install.closed then .finished else .polling deadline
  { r with server := { s with phase } }

/-! ## §2 Polls -/

/-- Enter what a snapshot signals, and tell whether it ends the installation. -/
def applySnapshot (attributes : Json) : Stage Bool := do
  match ← ofFault (signalledState attributes) with
  | none => return false
  | some .completed =>
    let endpoint ← ofExcept (ManagementEndpoint.ofSnapshot attributes)
    modify fun r => (r.enter .completed (some endpoint)).2
    return true
  | some state =>
    modify (·.proceed state)
    return state.isFinal

/-- The guest attributes that are published now; before the first there are none. -/
def fetchSnapshot : Stage Json := do
  let s ← server
  let request := s.client.getGuestAttributes s.locator attributesNamespace
  let resource ← tryCatch (exchange request) fun f =>
    if f.isNotFound then pure .null else throw f
  ofFault (snapshotOfResource resource)

/-- One poll: whether it ended the installation. -/
def poll : Stage Bool := do
  applySnapshot (← fetchSnapshot)

/-- One poll, unless the installation has ended. -/
def Run.pollOnce (r : Run) (deadline : Option Float) : Run :=
  if r.server.install.closed then r.goTo .finished
  else
    match poll.outcome r with
    | (.ok true, r) => r.goTo .finished
    | (.ok false, r) => r.goTo (.pausing deadline)
    | (.error f, r) =>
      let r := r.log .error
        s!"Polling install state of server {r.server.id} failed: {f.message}"
      (r.proceed .failed).goTo .finished

/-- Whether a deadline has been reached. -/
def isOver (deadline : Option Float) (clock : Float) : Bool :=
  deadline.any (clock ≥ ·)

/-- Look at the deadline, then wait unless the installation has ended. -/
def Run.pause (r : Run) (deadline : Option Float) : Run :=
  let s := r.server
  if isOver deadline r.world.clock then
    let limit := (s.installTimeout.map Seconds.text).getD ""
    let r := r.log .error s!"Server {s.id} did not finish installing within {limit}s"
    (r.proceed .failed).goTo .finished
  -- a closed stream ends the wait before it has begun
  else if s.install.closed then r.goTo .finished
  else (r.inWorld (·.wait s.pollInterval)).goTo (.polling deadline)

/-! ## §3 Steps -/

/-- One phase of provisioning. -/
def Run.step (r : Run) : Run :=
  match r.server.phase with
  | .awaitingInstance => r.setUp awaitInstance
  | .consultingAddress => r.setUp consultAddress
  | .describingInstance => r.setUp describeInstance
  | .reservingAddress region resource => r.setUp (reserveAddress region resource)
  | .awaitingAddress region operation => r.setUp (awaitAddress region operation)
  | .confirmingAddress => r.setUp confirmAddress
  | .settling => r.settle
  | .polling deadline => r.pollOnce deadline
  | .pausing deadline => r.pause deadline
  | .finished => r

/-- Provisioning to its end, if it gets there in so many steps. -/
def Run.toEnd : Nat → Run → Option Run
  | 0, r => if r.server.isFinished then some r else none
  | steps + 1, r => if r.server.isFinished then some r else toEnd steps r.step

/-- Provisioning to the next accepted state, or to its end if there is none, if it gets there in
so many steps. -/
def Run.toTransition : Nat → Run → Option Run
  | 0, r => if r.server.isFinished then some r else none
  | steps + 1, r =>
    if r.server.isFinished then some r
    else
      let next := r.step
      if next.server.install.version = r.server.install.version then toTransition steps next
      else some next

theorem Run.step_of_isFinished {r : Run} (h : r.server.isFinished = true) : r.step = r := by
  unfold Server.isFinished at h
  unfold Run.step
  split at h
  · rename_i hp
    simp only [hp]
  · cases h

end Fleet
