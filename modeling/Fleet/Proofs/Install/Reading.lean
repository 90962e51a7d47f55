import Fleet.Install.Script
import Mathlib.Data.List.Basic

/-!
# How a shell reads the install script

The settings of an installation are arbitrary texts, and the script that exports them is run with
all rights.  A reader that follows the rules of the shell finds in the exported lines exactly the
commands that export the settings, each with its name and its value as one word, and it stands
outside of every quotation when the body of the script begins.

The reader is a strict one.  It knows quotations, blanks and ends of lines, and it gives up at every
other character that would mean something to the shell where it stands.

## Main definitions

- `Shell.Reader`: what a reader has read, and the quotation that it stands in
- `Shell.Reader.read?`: reading a text, character after character

## Main statements

- `Shell.Reader.read?_quote`: a quoted word is read as the word, wherever a word may stand
- `Shell.Reader.read?_exportLine`: the line that exports a variable is one command of two words
- `Install.exports_read_back`: the commands of the install script
-/

namespace Fleet

namespace Text.Shell

/-! ## §1 A reader of shell text -/

/-- The quotation that a character stands in. -/
inductive Quotation where
  | none
  | single
  | double
deriving DecidableEq, Repr

/-- The characters that mean something outside of quotations, other than blanks, ends of lines and
quotes: they join or redirect commands, expand to something else, match the names of files, or
begin a comment. -/
def specials : List Char :=
  ['|', '&', ';', '<', '>', '(', ')', '{', '}', '$', '`', '\\', '*', '?', '[', ']', '~', '#', '!']

/-- The characters that keep their meaning between double quotes. -/
def specialsWithin : List Char :=
  ['$', '`', '\\']

/-- What a reader has read: the commands that have ended, each with its words, and of the command
under way the words that have ended and the word under way. -/
structure Reader where
  commands : List (List String) := []
  words : List String := []
  word : Option (List Char) := none
  quotation : Quotation := .none
deriving DecidableEq, Repr

/-- The words of the command that exports a variable. -/
def exportWords : String × String → List String :=
  fun (name, value) => ["export", name ++ "=" ++ value]

namespace Reader

/-- Some characters are added to the word under way, or begin a word. -/
def add (r : Reader) (cs : List Char) : Reader :=
  { r with word := some (r.word.getD [] ++ cs) }

/-- The word under way ends, if there is one. -/
def endWord (r : Reader) : Reader :=
  match r.word with
  | some word => { r with words := r.words ++ [String.ofList word], word := none }
  | none => r

/-- The command under way ends, if there is one. -/
def endCommand (r : Reader) : Reader :=
  let r := r.endWord
  if r.words.isEmpty then r else { r with commands := r.commands ++ [r.words], words := [] }

/-- Read one character. -/
def step (r : Reader) (c : Char) : Option Reader :=
  match r.quotation with
  | .single => if c = '\x27' then some { r with quotation := .none } else some (r.add [c])
  | .double =>
    if c = '"' then some { r with quotation := .none }
    else if c ∈ specialsWithin then none
    else some (r.add [c])
  | .none =>
    -- a quotation begins a word even if nothing is in it
    if c = '\x27' then some { r.add [] with quotation := .single }
    else if c = '"' then some { r.add [] with quotation := .double }
    else if c = ' ' ∨ c = '\t' then some r.endWord
    else if c = '\n' then some r.endCommand
    else if c ∈ specials then none
    else some (r.add [c])

/-- Read a text, if there is nothing in it at which the reader gives up. -/
def read? (r : Reader) (text : List Char) : Option Reader :=
  text.foldlM step r

variable {r s : Reader}

theorem read?_cons (r : Reader) (c : Char) (text : List Char) :
    r.read? (c :: text) = (r.step c).bind (·.read? text) := rfl

theorem read?_append (r : Reader) (text text' : List Char) :
    r.read? (text ++ text') = (r.read? text).bind (·.read? text') := by
  induction text generalizing r with
  | nil => rfl
  | cons c text ih =>
    rw [List.cons_append, read?_cons, read?_cons, Option.bind_assoc]
    congr 1
    funext s
    exact ih s

/-- A text that was read does not matter for the text behind it any more. -/
theorem read?_append_of_some {text : List Char} (h : r.read? text = some s) (text' : List Char) :
    r.read? (text ++ text') = s.read? text' := by
  rw [read?_append, h]
  rfl

@[simp] theorem add_quotation (r : Reader) (cs : List Char) :
    (r.add cs).quotation = r.quotation := rfl

theorem add_add (r : Reader) (cs ds : List Char) : (r.add cs).add ds = r.add (cs ++ ds) := by
  simp [add]

theorem add_nil {word : List Char} (h : r.word = some word) : r.add [] = r := by
  cases r
  subst h
  simp [add]

/-! ## §2 Words -/

/-- Harmless characters mean nothing outside of quotations. -/
theorem step_of_isHarmless {c : Char} (hr : r.quotation = .none) (hc : isHarmless c = true) :
    r.step c = some (r.add [c]) := by
  have hmeaning : ('\x27' :: '"' :: ' ' :: '\t' :: '\n' :: specials).all (!isHarmless ·) = true := by
    decide
  have hother : ∀ d ∈ '\x27' :: '"' :: ' ' :: '\t' :: '\n' :: specials, c ≠ d := by
    rintro d hd rfl
    have hmeant := List.all_eq_true.mp hmeaning c hd
    rw [hc] at hmeant
    cases hmeant
  have hspecial : c ∉ specials := fun hmem => hother c (by simp [hmem]) rfl
  simp only [List.mem_cons, forall_eq_or_imp] at hother
  obtain ⟨hsingle, hdouble, hspace, htab, hline, -⟩ := hother
  simp [step, hr, hsingle, hdouble, hspace, htab, hline, hspecial]

theorem read?_of_isHarmless {cs : List Char} (hr : r.quotation = .none) (hcs : cs ≠ [])
    (h : cs.all isHarmless = true) : r.read? cs = some (r.add cs) := by
  induction cs generalizing r with
  | nil => exact absurd rfl hcs
  | cons c cs ih =>
    simp only [List.all_cons, Bool.and_eq_true] at h
    obtain ⟨hc, hrest⟩ := h
    rw [read?_cons, step_of_isHarmless hr hc, Option.bind_some]
    cases cs with
    | nil => rfl
    | cons d cs =>
      have hlater : (r.add [c]).read? (d :: cs) = some ((r.add [c]).add (d :: cs)) :=
        ih hr nofun hrest
      rw [hlater, add_add]
      rfl

/-- Between single quotes a text is read as it was before it was enclosed; a quote leaves them, is
read between double ones, and enters them again. -/
theorem read?_enclosed {word : List Char} (hr : r.quotation = .single) (hword : r.word = some word)
    (cs : List Char) : r.read? (cs.flatMap enclosed) = some (r.add cs) := by
  induction cs generalizing r word with
  | nil => exact congrArg some (add_nil hword).symm
  | cons c cs ih =>
    have hone : r.read? (enclosed c) = some (r.add [c]) := by
      unfold enclosed
      split
      · rename_i hquote
        subst hquote
        simp [read?, step, add, hr, specialsWithin]
      · rename_i hquote
        simp [read?, step, hr, hquote]
    have hlater : (r.add [c]).read? (cs.flatMap enclosed) = some ((r.add [c]).add cs) :=
      ih hr rfl
    rw [List.flatMap_cons, read?_append_of_some hone, hlater, add_add]
    rfl

/-- A quoted word is read as the word. -/
theorem read?_quoteChars (hr : r.quotation = .none) (cs : List Char) :
    r.read? (quoteChars cs) = some (r.add cs) := by
  unfold quoteChars
  split
  · rename_i hbare
    simp only [Bool.and_eq_true, Bool.not_eq_true', List.isEmpty_eq_false_iff] at hbare
    exact read?_of_isHarmless hr hbare.1 hbare.2
  · -- the opening quote, what is enclosed, and the closing quote
    let opened : Reader := { r.add [] with quotation := .single }
    have hopen : r.step '\x27' = some opened := by simp [step, hr, opened]
    have hinside : opened.read? (cs.flatMap enclosed) = some (opened.add cs) :=
      read?_enclosed rfl rfl cs
    rw [List.cons_append, read?_cons, hopen, Option.bind_some, read?_append_of_some hinside]
    simp [read?, step, opened, add, ← hr]

theorem read?_quote (hr : r.quotation = .none) (word : String) :
    r.read? (quote word).toList = some (r.add word.toList) := by
  rw [quote, String.toList_ofList]
  exact read?_quoteChars hr word.toList

/-! ## §3 Lines -/

theorem step_newline (hr : r.quotation = .none) : r.step '\n' = some r.endCommand := by
  simp [step, hr]

/-- The line that exports a variable is one command of two words. -/
theorem read?_exportLine (commands : List (List String)) {name : String}
    (hname : name.toList.all isHarmless = true) (value : String) :
    ({ commands } : Reader).read? (Install.exportLine name value).toList =
      some { commands := commands ++ [exportWords (name, value)] } := by
  have hexport : ({ commands } : Reader).read? "export ".toList =
      some { commands, words := ["export"] } := rfl
  let begun : Reader := { commands, words := ["export"] }
  have hassigned : begun.read? (name ++ "=").toList = some (begun.add (name ++ "=").toList) := by
    refine read?_of_isHarmless rfl (by simp) ?_
    rw [String.toList_append, List.all_append, hname]
    rfl
  let assigned : Reader := begun.add (name ++ "=").toList
  have hvalue : assigned.read? (quote value).toList = some (assigned.add value.toList) :=
    read?_quote rfl value
  have hline : (assigned.add value.toList).read? "\n".toList =
      some (assigned.add value.toList).endCommand := by
    show ((assigned.add value.toList).step '\n').bind (·.read? []) = _
    rw [step_newline rfl]
    rfl
  have hsplit : (Install.exportLine name value).toList =
      "export ".toList ++ ((name ++ "=").toList ++ ((quote value).toList ++ "\n".toList)) := by
    simp [Install.exportLine, String.toList_append]
  rw [hsplit, read?_append_of_some hexport, read?_append_of_some hassigned,
    read?_append_of_some hvalue, hline]
  simp [assigned, begun, add, endCommand, endWord, exportWords, String.append_assoc]

-- without the quotation the reader gives up, or finds a command that nobody wrote
example : ({} : Reader).read? "export NAME=$(reboot)\n".toList = none := by decide

example : ({} : Reader).read? "export NAME=a\nreboot\n".toList =
    some { commands := [["export", "NAME=a"], ["reboot"]] } := by decide

/-- Lines that export variables are as many commands. -/
theorem read?_exportLines (commands : List (List String)) {exported : List (String × String)}
    (h : ∀ v ∈ exported, v.1.toList.all isHarmless = true) :
    ({ commands } : Reader).read?
        (String.join (exported.map fun (name, value) => Install.exportLine name value)).toList =
      some { commands := commands ++ exported.map exportWords } := by
  induction exported generalizing commands with
  | nil => simp [read?]
  | cons v exported ih =>
    obtain ⟨hname, hrest⟩ := List.forall_mem_cons.mp h
    rw [List.map_cons, String.join_cons, String.toList_append,
      read?_append_of_some (read?_exportLine commands hname v.2), ih _ hrest]
    simp

end Reader

end Text.Shell

namespace Install

open Text.Shell

/-! ## §4 The script -/

/-- The names of the variables that the script exports. -/
def variableNames : List String :=
  ["SB_IMAGE", "WATCHTOWER_REFRESH_SECONDS", "SENTRY_API_URL", "SB_METRICS_URL",
    "SB_DEFAULT_SERVER_NAME", "SB_METRICS_ENABLED"]

theorem mem_variableNames_of_mem_exports {settings : InstallSettings} {serverName : String}
    {metrics : Bool} {v : String × String} (h : v ∈ exports settings serverName metrics) :
    v.1 ∈ variableNames := by
  rcases List.mem_append.mp h with hsetting | halways
  · obtain ⟨⟨name, value⟩, hmem, hv⟩ := List.mem_filterMap.mp hsetting
    obtain ⟨given, -, rfl⟩ := Option.map_eq_some_iff.mp hv
    -- leaving a setting out does not rename the others
    have hnames : (settingVariables settings).map Prod.fst = variableNames.take 4 := rfl
    have hname : name ∈ (settingVariables settings).map Prod.fst :=
      List.mem_map_of_mem hmem
    rw [hnames] at hname
    exact List.mem_of_mem_take hname
  · simp only [List.mem_cons, List.not_mem_nil, or_false] at halways
    rcases halways with rfl | rfl <;> simp [variableNames]

theorem isHarmless_of_mem_variableNames {name : String} (h : name ∈ variableNames) :
    name.toList.all isHarmless = true := by
  have hall : ∀ name ∈ variableNames, name.toList.all isHarmless = true := by decide
  exact hall name h

theorem toString_int_ne_empty (n : Int) : toString n ≠ "" := by
  cases n with
  | ofNat n => exact Nat.repr_ne_empty
  | negSucc n =>
    show "-" ++ Nat.repr (n + 1) ≠ ""
    simp

/-- The command that exports a setting, if the setting has a value that is not empty. -/
def settingCommands : String × Option String → List (List String) :=
  fun (name, value) =>
    (((value.filter (! ·.isEmpty)).map fun value => (name, value)).map exportWords).toList

theorem map_exportWords_exports (settings : InstallSettings) (serverName : String)
    (metrics : Bool) :
    (exports settings serverName metrics).map exportWords =
      (settingVariables settings).flatMap settingCommands ++
        [exportWords ("SB_DEFAULT_SERVER_NAME", serverName),
          exportWords ("SB_METRICS_ENABLED", if metrics then "true" else "false")] := by
  rw [exports, List.map_append, List.map_filterMap, List.filterMap_eq_flatMap_toList]
  rfl

theorem settingCommands_some (name value : String) :
    settingCommands (name, some value) =
      if value = "" then [] else [exportWords (name, value)] := by
  by_cases hvalue : value = ""
  · subst hvalue
    rfl
  · have hgiven : (some value).filter (! ·.isEmpty) = some value := by simp [hvalue]
    rw [if_neg hvalue, settingCommands, hgiven]
    rfl

/-- An interval of zero is left out, and no other one is an empty text. -/
theorem settingCommands_seconds (name : String) (seconds : Int) :
    settingCommands (name, ((some seconds).filter (· != 0)).map toString) =
      if seconds = 0 then [] else [exportWords (name, toString seconds)] := by
  by_cases hzero : seconds = 0
  · subst hzero
    rfl
  · have hgiven : (some seconds).filter (· != 0) = some seconds := by simp [hzero]
    rw [hgiven, Option.map_some, settingCommands_some, if_neg (toString_int_ne_empty seconds),
      if_neg hzero]

/-- Whatever texts the settings and the name of the server are. -/
theorem exports_read_back (settings : InstallSettings) (serverName : String) (metrics : Bool) :
    let set (name value : String) : List (List String) := [["export", name ++ "=" ++ value]]
    let setUnlessEmpty (name value : String) := if value = "" then [] else set name value
    -- the settings that are not empty, in this order, and then those that are always exported
    let commands :=
      setUnlessEmpty "SB_IMAGE" settings.containerImage ++
      (match settings.watchtowerRefreshSeconds with
        | none => []
        | some seconds =>
          if seconds = 0 then [] else set "WATCHTOWER_REFRESH_SECONDS" (toString seconds)) ++
      (match settings.sentryApiUrl with
        | none => []
        | some url => setUnlessEmpty "SENTRY_API_URL" url) ++
      setUnlessEmpty "SB_METRICS_URL" settings.metricsUrl ++
      set "SB_DEFAULT_SERVER_NAME" serverName ++
      set "SB_METRICS_ENABLED" (if metrics then "true" else "false")
    -- the lines are read as these commands, with no quotation, word or command left open
    ({} : Reader).read? (exportCommands settings serverName metrics).toList =
      some { commands, words := [], word := none, quotation := .none } ∧
    -- so that behind the line of the interpreter every body begins on a fresh line, where these
    -- commands have been read
    ∀ body, ∃ rest, script settings serverName metrics body = "#!/bin/bash -eu\n" ++ rest ∧
      ({} : Reader).read? rest.toList = ({ commands } : Reader).read? body.toList := by
  intro set setUnlessEmpty commands
  have hnames : ∀ v ∈ exports settings serverName metrics, v.1.toList.all isHarmless = true :=
    fun v hv => isHarmless_of_mem_variableNames (mem_variableNames_of_mem_exports hv)
  have hcommands : (exports settings serverName metrics).map exportWords = commands := by
    have hseconds : settingCommands ("WATCHTOWER_REFRESH_SECONDS",
        (settings.watchtowerRefreshSeconds.filter (· != 0)).map toString) =
        match settings.watchtowerRefreshSeconds with
        | none => []
        | some seconds =>
          if seconds = 0 then [] else set "WATCHTOWER_REFRESH_SECONDS" (toString seconds) := by
      cases settings.watchtowerRefreshSeconds with
      | none => rfl
      | some seconds => exact settingCommands_seconds _ seconds
    have hsentry : settingCommands ("SENTRY_API_URL", settings.sentryApiUrl) =
        match settings.sentryApiUrl with
        | none => []
        | some url => setUnlessEmpty "SENTRY_API_URL" url := by
      cases settings.sentryApiUrl with
      | none => rfl
      | some url => exact settingCommands_some _ url
    rw [map_exportWords_exports, settingVariables, List.flatMap_cons, List.flatMap_cons,
      List.flatMap_cons, List.flatMap_cons, List.flatMap_nil, hseconds, hsentry,
      settingCommands_some, settingCommands_some]
    simp only [commands, setUnlessEmpty, set, exportWords, List.append_assoc, List.append_nil,
      List.cons_append, List.nil_append]
  have hread : ({} : Reader).read? (exportCommands settings serverName metrics).toList =
      some { commands } := by
    rw [← hcommands]
    exact Reader.read?_exportLines [] hnames
  refine ⟨hread, fun body => ⟨exportCommands settings serverName metrics ++ body, ?_, ?_⟩⟩
  · exact String.append_assoc
  · rw [String.toList_append, Reader.read?_append_of_some hread]

end Install

end Fleet
