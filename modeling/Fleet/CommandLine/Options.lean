import Fleet.Text.Digit

/-!
# Words of a command line

The words of a command line are told apart before any of them takes effect: options, with or
without an attached value, the separator `--`, and plain words.  An option may be cut short as
long as only one option begins that way.  A negative number and a word with a space in it are
plain words, although they begin with a dash.

## Main definitions

- `Opt`: the options of the program, and `Table`: the spellings known at one place
- `Word`, `classify`: one word, and what it is at a place with a given table
-/

namespace Fleet.CommandLine

/-- The options of the program. -/
inductive Opt where
  | help | project | accountId | refreshToken | clientId | clientSecret | pollInterval
  | installTimeout | requestTimeout | containerImage | metricsUrl | verbose
  | name | zone | metrics | instanceId
deriving DecidableEq, Repr

/-- Whether an option has a value. -/
def Opt.takesValue : Opt → Bool
  | .help | .verbose | .metrics => false
  | _ => true

/-- Spellings of options. -/
abbrev Table := List (String × Opt)

/-- What was written onto an option. -/
inductive Attached where
  | nothing
  /-- behind an equals sign -/
  | value (text : String)
  /-- directly behind a one-letter option -/
  | cluster (letters : List Char)
deriving DecidableEq, Repr

/-- A word of the command line. -/
inductive Word where
  | plain (text : String)
  | separator
  | option (opt : Opt) (attached : Attached)
  /-- a word that looks like an option and is none -/
  | unknown
deriving DecidableEq, Repr

/-- Whether a text after a dash makes a negative number: digits, or digits with a point and more
digits. One line break at the end does not matter. -/
def isNumber (cs : List Char) : Bool :=
  let cs := if cs.getLast? == some '\n' then cs.dropLast else cs
  let rest := cs.dropWhile Text.isDigit
  match rest with
  | [] => !cs.isEmpty
  | '.' :: places => !places.isEmpty && places.all Text.isDigit
  | _ => false

/-- A text cut at its first equals sign. -/
def splitEquals (cs : List Char) : List Char × Attached :=
  match cs.dropWhile (· != '=') with
  | '=' :: value => (cs.takeWhile (· != '='), .value (String.ofList value))
  | _ => (cs, .nothing)

/-- The options whose spelling begins with the given text. -/
def Table.candidates (table : Table) (start : List Char) : List Opt :=
  (table.filter fun (spelling, _) => start.isPrefixOf spelling.toList).map (·.2)

/-- The option of a spelling. -/
def Table.find (table : Table) (spelling : List Char) : Option Opt :=
  (table.find? fun (known, _) => known.toList == spelling).map (·.2)

/-- The option that a word with a dash in front means, in full or cut short; `none` if several
are meant. -/
def matchOption (table : Table) (cs : List Char) : Option (List Word) :=
  let (name, attached) := splitEquals cs
  -- a spelling in full comes before anything that it could be cut from
  match table.find cs with
  | some opt => some [.option opt .nothing]
  | none =>
    match attached, table.find name with
    | .value _, some opt => some [.option opt attached]
    | _, _ =>
      match cs with
      -- only spellings with two dashes can be cut short
      | '-' :: '-' :: _ =>
        match table.candidates name with
        | [] => some []
        | [opt] => some [.option opt attached]
        | _ => none
      | '-' :: letter :: rest =>
        some (((table.find ['-', letter]).map fun opt =>
          Word.option opt (.cluster rest)).toList)
      | _ => some []

/-- What a word is at a place with the given table; `none` if it could mean several options. -/
def classify (table : Table) (text : String) : Option Word :=
  match text.toList with
  | ['-', '-'] => some .separator
  | '-' :: rest =>
    if rest.isEmpty then some (.plain text)
    else do
      match ← matchOption table text.toList with
      | word :: _ => return word
      | [] =>
        -- no spelling begins with a dash and a digit, so a number is never an option
        if isNumber rest || rest.contains ' ' then return .plain text
        else return .unknown
  | _ => some (.plain text)

/-- What the words are at a place with the given table. Behind the separator all words are
plain. -/
def classifyAll (table : Table) : List String → Option (List Word)
  | [] => some []
  | text :: rest => do
    match ← classify table text with
    | .separator => return .separator :: rest.map .plain
    | word => return word :: (← classifyAll table rest)

/-- Whether letters written onto the help option still ask for help. -/
def asksHelp : List Char → Bool
  | [] => true
  | '-' :: _ => false
  | 'h' :: '=' :: _ => false
  | 'h' :: rest => asksHelp rest
  | _ => true

end Fleet.CommandLine
