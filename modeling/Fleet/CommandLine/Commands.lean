import Fleet.Account.Submission
import Fleet.CommandLine.Arguments
import Fleet.Server.Progress
import Fleet.Server.Teardown

/-!
# Commands

Each command works on the account of the settings, reports in log lines and ends with an exit
code.  A failure that a command does not handle itself is logged and ends it with code one; a
fault of access goes through to the caller.

## Main definitions

- `Server.onRun`: what is done to a server, as a job on the world
- `create`, `listAll`, `delete`, `locations`: the commands
- `perform`: a command with the handling of its failures
-/

namespace Fleet

/-- What is done to a server, as a job: it may be given up on. -/
def Server.onRun {α : Type} (s : Server) (act : Run → Option (α × Run)) : Job (α × Server) :=
  fun world =>
    match act { server := s, world } with
    | some (a, r) => (.ok (a, r.server), r.world)
    | none => (.error .unfinished, world)

namespace CommandLine

/-! ## §1 Tables in log lines -/

/-- A text filled with spaces up to a width. -/
def padded (width : Nat) (s : String) : String :=
  s ++ String.ofList (List.replicate (width - s.length) ' ')

/-- A value filled with spaces up to a width. Truth values count as numbers here; null, arrays and
objects have no width. -/
def column (width : Nat) : Json → Except Fault String
  | .bool b => .ok (padded width (if b then "1" else "0"))
  | .str s => .ok (padded width s)
  | .int n => .ok (padded width (toString n))
  | .float x => .ok (padded width (Decimal.floatText x))
  | j => .error (.noWidth j.kind)

/-! ## §2 Commands -/

/-- The account of the settings. -/
def Settings.account (settings : Settings) : Account :=
  { id := settings.accountId
    client := { timeout := .whole settings.requestTimeout }
    settings := settings.install
    pollInterval := some (.fractional settings.pollInterval)
    installTimeout := settings.installTimeout.map .fractional }

/-- The tokens of the settings. -/
def Settings.tokens (settings : Settings) (grants : List Grant) : TokenStore :=
  { TokenStore.make none settings.refreshToken settings.clientId settings.clientSecret with
    grants }

/-- Tell the log of a state. -/
def logProgress (state : InstallState) (w : World) : World :=
  w.log .info s!"Install progress: {state.percent}%"

/-- Log the endpoint of a server that is ready. -/
def reportEndpoint (s : Server) : Job Nat := do
  Job.log .info s!"Server {s.id} is ready"
  match s.endpoint with
  | none => throw (.failure (.fault (.noOperation .null "api_url")))
  | some endpoint =>
    Job.log .info s!"Management API: {endpoint.apiUrl.text}"
    Job.log .info s!"Certificate SHA-256: {endpoint.fingerprint}"
    return 0

/-- Delete a server. -/
def deleteServer (bound : Nat) (s : Server) : Job Unit := do
  let (outcome, _) ← s.onRun (Run.delete · bound)
  Job.ofCall (ofExcept outcome)

/-- Create a server and follow its installation. After `interrupt` reported states the user
interrupts, and the server is deleted. -/
def create (bound : Nat) (account : Account) (settings : Settings) (name zone : String)
    (interrupt : Option Nat) : Job Nat := do
  let server ← account.createServer bound settings.project name zone settings.metrics
  Job.log .info s!"Created server {server.id}, waiting for install..."
  let (finish, server) ← server.onRun fun r =>
    (r.follow logProgress bound interrupt).map fun followed => (followed.finish, followed.run)
  match finish with
  -- the follower was stopped by the interrupt and not by the installation
  | .dropped =>
    Job.log .warning s!"Interrupted, deleting server {server.id}"
    deleteServer bound server
    return 130
  | .ended (.ok ()) => reportEndpoint server
  | .ended (.error f) =>
    Job.log (if f.isA .installCanceled then .warning else .error) f.message
    return 1

/-- Log every server of the project. -/
def listAll (bound : Nat) (account : Account) (settings : Settings) : Job Nat := do
  for server in ← account.listServers bound settings.project do
    let name ← Job.ofFault (column 28 server.name)
    Job.log .info s!"{padded 40 server.id} {name} {server.locator.zone}"
  return 0

/-- Delete the server of an instance. -/
def delete (bound : Nat) (account : Account) (settings : Settings) (instanceId : String) :
    Job Nat := do
  let servers ← account.listServers bound settings.project
  match servers.find? (·.locator.instanceId == instanceId) with
  | some server =>
    deleteServer bound server
    Job.log .info s!"Deleted server {server.id}"
    return 0
  | none =>
    Job.log .error s!"No server with instance ID {instanceId} in {settings.project}"
    return 1

/-- Log every zone of the project. -/
def locations (account : Account) (settings : Settings) : Job Nat := do
  for option in ← account.listLocations settings.project do
    let zone ← Job.ofFault (column 28 option.zone)
    let state := if option.available then "available" else "unavailable"
    Job.log .info s!"{zone} {state}"
  return 0

/-- What a command does. -/
def run (bound : Nat) (command : Command) (settings : Settings) (interrupt : Option Nat) :
    Job Nat :=
  let account := settings.account
  match command with
  | .create name zone => create bound account settings name zone interrupt
  | .list => listAll bound account settings
  | .delete instanceId => delete bound account settings instanceId
  | .locations => locations account settings

/-- A command with its failures handled: they are logged and give exit code one. Faults are not
handled. -/
def perform (bound : Nat) (command : Command) (settings : Settings) (interrupt : Option Nat) :
    Job Nat :=
  tryCatch (run bound command settings interrupt) fun halt =>
    match halt with
    | .failure f =>
      if f.isA .general then do
        Job.log .error s!"{command.word} failed: {f.message}"
        return 1
      else throw halt
    | .unfinished => throw halt

/-- The code with which the program ends once a command has come to an end. A failure that no
command handles ends it with one. -/
def exitStatus? : Except Halt Nat → Option Nat
  | .ok code => some code
  | .error (.failure _) => some 1
  | .error .unfinished => none

end CommandLine

end Fleet
