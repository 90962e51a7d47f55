import Fleet.Cloud.Network
import Fleet.Cloud.Token
import Fleet.Install.State
import Fleet.Instance.Name
import Fleet.Seconds

/-!
# The world around the program

The program works against a network, a token endpoint, two clocks and a log.  They are one value
that calls pass on, and everything that the program does to the world is entered in its journal.

## Main definitions

- `Event`, `World`: what happened, and the state of everything outside
- `Call`: an action on the world that comes back with a value or a failure
- `Halt`, `Job`: an action that may also be given up on before it has come to its end
-/

namespace Fleet

/-- How important a log line is. -/
inductive Level where
  | debug | info | warning | error
deriving DecidableEq, Repr

/-- The place of a level in the order of importance. -/
def Level.severity : Level → Nat
  | .debug => 10
  | .info => 20
  | .warning => 30
  | .error => 40

/-- The name of a level. -/
def Level.name : Level → String
  | .debug => "DEBUG"
  | .info => "INFO"
  | .warning => "WARNING"
  | .error => "ERROR"

/-- A request to a service of the platform. Members that are null are not sent. -/
structure Request where
  method : String
  url : String
  headers : Json := .null
  params : Json := .null
  body : Json := .null
deriving Inhabited

/-- A request as it was handed to the network. -/
structure SentRequest where
  request : Request
  token : String
  headers : List (String × Json)
  timeout : Seconds
deriving Inhabited

/-- Something that the program did. -/
inductive Event where
  | requested (sent : SentRequest)
  | slept (time : Seconds)
  /-- a wait between two polls of a server's attributes -/
  | waited (time : Seconds)
  /-- a server entered a state -/
  | entered (state : InstallState)
  /-- a follower of an installation was told of a state -/
  | reported (state : InstallState)
  | logged (level : Level) (message : String)
deriving Inhabited

/-- The reading of the wall clock, unless another one is given. -/
def World.defaultToday : Moment := ⟨2024, 3, 7, 9, 5, 1⟩

/-- Everything outside of the program. The journal has the newest event first. -/
structure World where
  network : Network
  tokens : TokenStore
  clock : Float := 0.0
  today : Moment := World.defaultToday
  journal : List Event := []
deriving Inhabited

namespace World

/-- Enter an event in the journal. -/
def record (w : World) (e : Event) : World :=
  { w with journal := e :: w.journal }

/-- Write a log line. -/
def log (w : World) (level : Level) (message : String) : World :=
  w.record (.logged level message)

/-- Sleep. Sleeping is noted and takes no time of the clock that measures deadlines. -/
def sleep (w : World) (time : Seconds) : World :=
  w.record (.slept time)

/-- Wait between two polls. -/
def wait (w : World) (time : Seconds) : World :=
  { w.record (.waited time) with clock := w.clock + time.toFloat }

/-- What has happened, the oldest event first. -/
def history (w : World) : List Event :=
  w.journal.reverse

/-- The events since the journal had the given length, the oldest first. -/
def historySince (w : World) (length : Nat) : List Event :=
  (w.journal.take (w.journal.length - length)).reverse

end World

/-- An action on the world that comes back with a value or a failure. -/
abbrev Call (α : Type) := ExceptT Failure (StateM World) α

/-- Why a job did not come back with a value. -/
inductive Halt where
  | failure (f : Failure)
  /-- it was given up on while it was still waiting for something -/
  | unfinished

/-- An action on the world whose waiting is bounded from outside. -/
abbrev Job (α : Type) := ExceptT Halt (StateM World) α

namespace Call

/-- Write a log line. -/
def log (level : Level) (message : String) : Call Unit :=
  modify (·.log level message)

/-- Go on with the value, or stop with the fault. -/
def ofFault {α : Type} (x : Except Fault α) : Call α :=
  ofExcept (x.mapError .fault)

/-- The outcome of a call, and the world after it. -/
def outcome {α : Type} (call : Call α) (w : World) : Except Failure α × World :=
  (ExceptT.run call).run w

end Call

namespace Job

/-- A call as a job. -/
def ofCall {α : Type} (call : Call α) : Job α :=
  fun w =>
    match call.outcome w with
    | (.ok a, w) => (.ok a, w)
    | (.error f, w) => (.error (.failure f), w)

instance : MonadLift (ExceptT Failure (StateM World)) (ExceptT Halt (StateM World)) where
  monadLift := ofCall

/-- Write a log line. -/
def log (level : Level) (message : String) : Job Unit :=
  modify (·.log level message)

/-- Go on with the value, or stop with the fault. -/
def ofFault {α : Type} (x : Except Fault α) : Job α :=
  ofCall (Call.ofFault x)

/-- The outcome of a job, and the world after it. -/
def outcome {α : Type} (job : Job α) (w : World) : Except Halt α × World :=
  (ExceptT.run job).run w

/-- Run a job and keep its failure as a value; a job that is given up on stays so. -/
def attempt {α : Type} (job : Job α) : Job (Except Failure α) :=
  fun w =>
    match job.outcome w with
    | (.ok a, w) => (.ok (.ok a), w)
    | (.error (.failure f), w) => (.ok (.error f), w)
    | (.error .unfinished, w) => (.error .unfinished, w)

end Job

end Fleet
