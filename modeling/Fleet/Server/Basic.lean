import Fleet.Broadcast
import Fleet.Cloud.Operation
import Fleet.Install.Snapshot

/-!
# Managed servers

A managed server has an instance, a static address of the same name, and an installation whose
state is broadcast.  Its provisioning goes through phases; a phase makes at most one request.
A `Run` is a server together with the world it acts on, and all that happens to a server is a
function on runs.

## Main definitions

- `Phase`: what provisioning does next
- `Server`, `Run`
- `Run.enter`: the only way in which the state of an installation changes
-/

namespace Fleet

/-- Whether the setup of a server is settled: its instance exists and its address is static, or
that could not be brought about. -/
inductive Readiness where
  | pending
  | ready
  | failed (f : Failure)

/-- Whether setup has come to its end. -/
def Readiness.isSettled : Readiness → Bool
  | .pending => false
  | _ => true

/-- What provisioning does next. -/
inductive Phase where
  /-- look whether the instance was created -/
  | awaitingInstance
  /-- look whether the address is static already -/
  | consultingAddress
  /-- describe the instance, to find its ephemeral address -/
  | describingInstance
  /-- reserve the ephemeral address -/
  | reservingAddress (region : RegionLocator) (resource : Json)
  /-- wait for the operation that reserves the address -/
  | awaitingAddress (region : RegionLocator) (operation : Json)
  /-- report that the address is static -/
  | confirmingAddress
  /-- declare the setup settled and begin to poll -/
  | settling
  /-- fetch the guest attributes -/
  | polling (deadline : Option Float)
  /-- after a poll that did not end the installation: look at the deadline, then wait -/
  | pausing (deadline : Option Float)
  /-- nothing -/
  | finished
deriving Inhabited

/-- A managed server. -/
structure Server where
  id : String
  locator : InstanceLocator
  /-- the name of the instance, which is also the name of its address -/
  name : Json
  client : Client
  pollInterval : Seconds
  installTimeout : Option Seconds
  /-- whether the instance was created -/
  creation : Except Failure Unit
  /-- whether the address was found to be static when provisioning began -/
  addressCheck : Except Failure Bool
  install : ValueStream InstallState := { value := .unknown }
  endpoint : Option ManagementEndpoint := none
  readiness : Readiness := .pending
  phase : Phase := .awaitingInstance

/-- The seconds between two polls, unless others are given. -/
def defaultPollInterval : Seconds := .fractional 5.0

/-- The namespace of the guest attributes that an installation publishes. -/
def attributesNamespace : String := "outline/"

namespace Server

/-- The state of the installation. -/
def state (s : Server) : InstallState :=
  s.install.value

/-- Whether provisioning has come to its end. -/
def isFinished (s : Server) : Bool :=
  match s.phase with
  | .finished => true
  | _ => false

/-- Whether the platform has a static address of the given name. What does not exist is an
answer; any other failure is a setback. -/
def checkAddress (client : Client) (locator : InstanceLocator) (name : Json) : Call Bool :=
  tryCatch
    (do
      let region ← ofExcept locator.regionLocator
      discard (client.execute (client.getAddress region name.text))
      return true)
    fun f =>
      if f.isNotFound then pure false
      else throw (.setback (.addressCheck f.message))

/-- A server whose provisioning begins. The address is checked at once. -/
def make (client : Client) (id : String) (locator : InstanceLocator) (name : Json)
    (creation : Except Failure Unit) (pollInterval installTimeout : Option Seconds) :
    StateM World Server := do
  let addressCheck ← ExceptT.run (checkAddress client locator name)
  return {
    id, locator, name, client, creation, addressCheck, installTimeout
    pollInterval := pollInterval.getD defaultPollInterval }

end Server

/-! ## §2 Runs -/

/-- A server and the world around it. -/
structure Run where
  server : Server
  world : World

/-- What becomes of a proposed state. -/
inductive Verdict where
  | accepted
  /-- the installation has come to its end -/
  | closed
  /-- it is the current state -/
  | unchanged
  /-- it is not final and lies behind the current state -/
  | behind
deriving DecidableEq, Repr

/-- The verdict on a proposed state. -/
def Server.verdict (s : Server) (next : InstallState) : Verdict :=
  if s.install.closed then .closed
  else if next = s.state then .unchanged
  else if !next.isFinal && next < s.state then .behind
  else .accepted

/-- The stream after an accepted state: a final state closes it. -/
def ValueStream.advance (stream : ValueStream InstallState) (next : InstallState) :
    ValueStream InstallState :=
  match stream.set? next with
  | some stream => if next.isFinal then stream.close else stream
  | none => stream

namespace Run

/-- Change the world only. -/
def inWorld (r : Run) (f : World → World) : Run :=
  { r with world := f r.world }

/-- Write a log line. -/
def log (r : Run) (level : Level) (message : String) : Run :=
  r.inWorld (·.log level message)

/-- Propose a state, with the endpoint that it brings. The endpoint is kept only if the state is
accepted. -/
def enter (r : Run) (next : InstallState) (endpoint : Option ManagementEndpoint := none) :
    Bool × Run :=
  let s := r.server
  match s.verdict next with
  | .accepted =>
    -- the log line precedes the event
    let world := (r.world.log .info s!"Server {s.id} install state: {next.name}").record
      (.entered next)
    let server := { s with
      endpoint := endpoint.or s.endpoint
      install := s.install.advance next }
    (true, { server, world })
  | .behind =>
    (false, r.log .debug s!"Server {s.id}: ignoring {next.name}, already {s.state.name}")
  | .closed | .unchanged => (false, r)

/-- Propose a state and go on whatever becomes of it. -/
def proceed (r : Run) (next : InstallState) : Run :=
  (r.enter next).2

/-- Call the installation off. -/
def cancel (r : Run) : Run :=
  r.proceed .canceled

/-- Go on with another phase. -/
def goTo (r : Run) (phase : Phase) : Run :=
  { r with server := { r.server with phase } }

end Run

end Fleet
