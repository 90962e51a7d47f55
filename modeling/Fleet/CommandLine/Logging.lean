import Fleet.Cloud.World

/-!
# Logging

Log lines go to the console and to a file.  A verbose run shows all of them, any other run those
from `info` on.
-/

namespace Fleet.CommandLine

/-- Where log lines go. -/
inductive LogTarget where
  | console
  | file (path : String)
deriving DecidableEq, Repr

/-- The least important level that is shown. -/
def shownFrom (verbose : Bool) : Level :=
  if verbose then .debug else .info

/-- The file of the log, unless another one is given. -/
def defaultLogFile : String := "server-provisioner.log"

/-- Where the log lines of a run go. -/
def logTargets (file : String := defaultLogFile) : List LogTarget :=
  [.console, .file file]

/-- The form of a line: its time, its level, its thread and its message. -/
def lineFormat : String := "%(asctime)s - %(levelname)s - %(threadName)s - %(message)s"

/-- The least important level shown of the lines about single connections. -/
def connectionsFrom : Level := .warning

/-- Whether an event is shown; only log lines can be left out. -/
def isShown (verbose : Bool) : Event → Bool
  | .logged level _ => (shownFrom verbose).severity ≤ level.severity
  | _ => true

end Fleet.CommandLine
