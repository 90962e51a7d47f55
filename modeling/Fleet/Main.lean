import Fleet.Cloud.Rehearsal
import Fleet.CommandLine.Commands
import Fleet.CommandLine.Logging
import Fleet.Json.Reader

/-!
# The program

The program carries out one command against the rehearsal on standard input, a JSON document on
one line, and prints the log lines of the run.  Its exit code is the one of the command.
-/

namespace Fleet.CommandLine

/-- For how many rounds anything that waits is followed. -/
def patience : Nat := 1000000

/-- A log line as it is printed. -/
def shownLine? (verbose : Bool) (e : Event) : Option String :=
  match e with
  | .logged level message =>
    if isShown verbose e then some s!"{level.name} - {message}" else none
  | _ => none

/-- The printed lines and the exit code of a run. -/
def runRehearsal (command : Command) (settings : Settings) (document : Json) :
    List String × Nat :=
  let world := Rehearsal.world (settings.tokens []) document
  let (outcome, world) := (perform patience command settings none).outcome world
  let lines := world.history.filterMap (shownLine? settings.verbose)
  let notice := match outcome with
    | .ok _ => []
    | .error (.failure f) => [f.message]
    | .error .unfinished => ["The run was given up on."]
  (lines ++ notice, (exitStatus? outcome).getD 1)

/-- The variables of the environment that the program reads. -/
def environment : IO Environment := do
  let names := [refreshTokenVariable, clientIdVariable, clientSecretVariable]
  let found ← names.mapM fun name => return (← IO.getEnv name).map fun value => (name, value)
  return found.filterMap fun entry => entry

/-- How the program is called. -/
def usage : String :=
  "usage: fleet (create | list | delete | locations) --project PROJECT [options] < REHEARSAL"

end Fleet.CommandLine

open Fleet in
/-- Carry out the command of the command line. -/
def main (arguments : List String) : IO UInt32 := do
  match CommandLine.read (← CommandLine.environment) arguments with
  | .error stop =>
    IO.println CommandLine.usage
    return UInt32.ofNat stop.code
  | .ok (command, settings) =>
    let line ← (← IO.getStdin).getLine
    match Json.read? (if line.isEmpty then "null" else line) with
    | none =>
      IO.eprintln "The rehearsal is not JSON."
      return 1
    | some document =>
      let (lines, code) := CommandLine.runRehearsal command settings document
      lines.forM IO.println
      return UInt32.ofNat code
