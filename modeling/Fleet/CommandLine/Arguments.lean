import Fleet.CommandLine.Options
import Fleet.Decimal.Numeral
import Fleet.Install.Script

/-!
# Reading the command line

A command line names a command, and behind it the options of that command.  Reading ends with the
arguments of a run, with a request for help, or with a usage error.  What is missing and may come
from the environment is looked up there.
-/

namespace Fleet.CommandLine

/-- What the program is asked to do. -/
inductive Command where
  | create (name zone : String)
  | list
  | delete (instanceId : String)
  | locations
deriving DecidableEq, Repr

/-- The word for a command. -/
def Command.word : Command → String
  | .create .. => "create"
  | .list => "list"
  | .delete _ => "delete"
  | .locations => "locations"

/-- The settings of a run. -/
structure Settings where
  project : String
  accountId : String := "default"
  refreshToken : Option String := none
  clientId : Option String := none
  clientSecret : Option String := none
  pollInterval : Float := 5.0
  installTimeout : Option Float := none
  requestTimeout : Int := 60
  metrics : Bool := false
  install : InstallSettings := {}
  verbose : Bool := false

/-- How reading a command line may end without anything to run. -/
inductive Stop where
  | help
  | usage
deriving DecidableEq, Repr

/-- The exit code of a command line that is not run. -/
def Stop.code : Stop → Nat
  | .help => 0
  | .usage => 2

/-- Variables of the environment. -/
abbrev Environment := List (String × String)

/-! ## §1 Options of the commands -/

/-- The spellings that ask for help. -/
def helpTable : Table := [("-h", .help), ("--help", .help)]

/-- The options of every command. -/
def commonTable : Table :=
  [("--project", .project), ("--account-id", .accountId), ("--refresh-token", .refreshToken),
    ("--client-id", .clientId), ("--client-secret", .clientSecret),
    ("--poll-interval", .pollInterval), ("--install-timeout", .installTimeout),
    ("--request-timeout", .requestTimeout), ("--container-image", .containerImage),
    ("--metrics-url", .metricsUrl), ("--verbose", .verbose)]

/-- The options of the command of the given word, and those of them that are required. -/
def optionsOf? : String → Option (Table × List Opt)
  | "create" =>
    some ([("--name", .name), ("--zone", .zone), ("--metrics", .metrics)], [.name, .zone])
  | "list" => some ([], [])
  | "delete" => some ([("--instance", .instanceId)], [.instanceId])
  | "locations" => some ([], [])
  | _ => none

/-- Whether an option can have a value. -/
def Opt.accepts (opt : Opt) (value : String) : Bool :=
  match opt with
  | .pollInterval | .installTimeout => (Decimal.readFloat? value).isSome
  | .requestTimeout => (Decimal.readInt? value).isSome
  | _ => true

/-- The options that were given, the latest first, and whether there were words that nothing is
known to do with. -/
structure Given where
  options : List (Opt × String) := []
  leftovers : Bool := false

/-- The value that was given last for an option. -/
def Given.value? (g : Given) (opt : Opt) : Option String :=
  (g.options.find? (·.1 == opt)).map (·.2)

/-- Take an option with its value. -/
def Given.take (g : Given) (opt : Opt) (value : String) : Except Stop Given :=
  if opt.accepts value then .ok { g with options := (opt, value) :: g.options }
  else .error .usage

/-- What asking for help comes to. -/
def helpStop : Attached → Stop
  | .nothing => .help
  | .value _ => .usage
  | .cluster letters => if asksHelp letters then .help else .usage

/-- Take the words behind a command, one option after the other. -/
def takeOptions (g : Given) : List Word → Except Stop Given
  | [] => .ok g
  | .plain _ :: rest | .separator :: rest | .unknown :: rest =>
    takeOptions { g with leftovers := true } rest
  | .option opt attached :: rest =>
    if opt == .help then .error (helpStop attached)
    else if opt.takesValue then
      match attached, rest with
      | .value text, rest => do takeOptions (← g.take opt text) rest
      | .nothing, .plain text :: rest => do takeOptions (← g.take opt text) rest
      | _, _ => .error .usage
    else
      match attached with
      | .nothing => takeOptions { g with options := (opt, "") :: g.options } rest
      | _ => .error .usage

/-! ## §2 Settings -/

/-- The variable with the refresh token. -/
def refreshTokenVariable : String := "PROVISIONER_REFRESH_TOKEN"

/-- The variable with the client's identifier. -/
def clientIdVariable : String := "PROVISIONER_CLIENT_ID"

/-- The variable with the client's secret. -/
def clientSecretVariable : String := "PROVISIONER_CLIENT_SECRET"

/-- The value of an option, or of a variable if the option is missing or empty. -/
def Given.orVariable (g : Given) (opt : Opt) (env : Environment) (name : String) :
    Option String :=
  match (g.value? opt).filter (! ·.isEmpty) with
  | some value => some value
  | none => env.lookup name

/-- The settings that were given, the others at their defaults. -/
def Given.settings (g : Given) (env : Environment) : Settings :=
  { project := (g.value? .project).getD ""
    accountId := (g.value? .accountId).getD "default"
    refreshToken := g.orVariable .refreshToken env refreshTokenVariable
    clientId := g.orVariable .clientId env clientIdVariable
    clientSecret := g.orVariable .clientSecret env clientSecretVariable
    pollInterval := ((g.value? .pollInterval).bind Decimal.readFloat?).getD 5.0
    installTimeout := (g.value? .installTimeout).bind Decimal.readFloat?
    requestTimeout := ((g.value? .requestTimeout).bind Decimal.readInt?).getD 60
    metrics := (g.value? .metrics).isSome
    install := {
      containerImage := (g.value? .containerImage).getD ""
      metricsUrl := (g.value? .metricsUrl).getD "" }
    verbose := (g.value? .verbose).isSome }

/-- The command of a word, with what was given for it. -/
def Given.command (g : Given) : String → Command
  | "create" => .create ((g.value? .name).getD "") ((g.value? .zone).getD "")
  | "list" => .list
  | "delete" => .delete ((g.value? .instanceId).getD "")
  | _ => .locations

/-- Read the words behind a command. `leftovers` tells whether there were unknown words before
it. -/
def readCommand (env : Environment) (leftovers : Bool) (word : String) (rest : List String) :
    Except Stop (Command × Settings) :=
  match optionsOf? word with
  | none => .error .usage
  | some (own, required) =>
    match classifyAll (helpTable ++ commonTable ++ own) rest with
    | none => .error .usage
    | some words => do
      let g ← takeOptions { leftovers } words
      if g.leftovers || (Opt.project :: required).any fun opt => (g.value? opt).isNone then
        throw .usage
      return (g.command word, g.settings env)

/-- Read a command line up to its command. -/
def readFrom (env : Environment) (leftovers : Bool) : List String →
    Except Stop (Command × Settings)
  | [] => .error .usage
  | text :: rest =>
    match classify helpTable text with
    | some (.plain word) => readCommand env leftovers word rest
    | some .unknown => readFrom env true rest
    | some (.option _ attached) => .error (helpStop attached)
    | some .separator | none => .error .usage

/-- Read a command line. -/
def read (env : Environment) (words : List String) : Except Stop (Command × Settings) :=
  readFrom env false words

end Fleet.CommandLine
