import Fleet.Json.Basic
import Fleet.Decimal.Nearest
import Fleet.Text.Segment

/-!
# Reading JSON text

Text is cut into tokens, and one token after the other goes into a value on a stack of open arrays
and objects.  The stack may not grow beyond a limit: an array or object that stands deeper ends the
reading there and then, whatever follows.  Three words beyond the standard, `NaN`, `Infinity` and
`-Infinity`, are read as numbers; control characters inside a string are refused; a member name that
comes again takes the later value in the earlier place.
-/

namespace Fleet.Json

/-- The pieces of JSON text. A string is a token of its own since it may name a member. -/
inductive Token where
  | openArray | closeArray | openObject | closeObject | colon | comma
  | text (s : String)
  | scalar (value : Json)

/-! ## §1 Strings -/

/-- The value of a hexadecimal digit. -/
def hexValue? (c : Char) : Option Nat :=
  if '0' ≤ c ∧ c ≤ '9' then some (c.toNat - 48)
  else if 'a' ≤ c ∧ c ≤ 'f' then some (c.toNat - 87)
  else if 'A' ≤ c ∧ c ≤ 'F' then some (c.toNat - 55)
  else none

/-- The code unit of four hexadecimal digits. -/
def unit? (a b c d : Char) : Option Nat := do
  let a ← hexValue? a
  let b ← hexValue? b
  let c ← hexValue? c
  let d ← hexValue? d
  return ((a * 16 + b) * 16 + c) * 16 + d

/-- The character of a one-letter escape. -/
def shortEscape? : Char → Option Char
  | '"' => some '"'
  | '\\' => some '\\'
  | '/' => some '/'
  | 'b' => some '\x08'
  | 'f' => some '\x0c'
  | 'n' => some '\n'
  | 'r' => some '\r'
  | 't' => some '\t'
  | _ => none

/-- The code points up to the closing quote, escapes resolved, and what follows the quote. -/
def stringBody : List Char → Option (List Nat × List Char)
  | [] => none
  | '"' :: rest => some ([], rest)
  | '\\' :: 'u' :: a :: b :: c :: d :: rest =>
    match unit? a b c d, stringBody rest with
    | some n, some (codes, after) => some (n :: codes, after)
    | _, _ => none
  | '\\' :: e :: rest =>
    match shortEscape? e, stringBody rest with
    | some c, some (codes, after) => some (c.toNat :: codes, after)
    | _, _ => none
  | c :: rest =>
    -- a backslash that gets here has nothing to escape
    if c.toNat < 32 || c == '\\' then none
    else (stringBody rest).map fun (codes, after) => (c.toNat :: codes, after)

/-- Join the two halves of each surrogate pair. A half without its partner stands for no
character and becomes the replacement character. -/
def joinSurrogates : List Nat → List Char
  | [] => []
  | [n] => [if n.isValidChar then Char.ofNat n else '\ufffd']
  | high :: low :: rest =>
    if 0xd800 ≤ high ∧ high < 0xdc00 ∧ 0xdc00 ≤ low ∧ low < 0xe000 then
      Char.ofNat (0x10000 + (high - 0xd800) * 1024 + (low - 0xdc00)) :: joinSurrogates rest
    else
      (if high.isValidChar then Char.ofNat high else '\ufffd') :: joinSurrogates (low :: rest)

/-! ## §2 Numbers -/

/-- The number that a row of decimal digits writes. -/
def digitsValue (cs : List Char) : Nat :=
  cs.foldl (fun n c => 10 * n + (c.toNat - 48)) 0

/-- The digits at the front, and the rest. -/
def spanDigits (cs : List Char) : List Char × List Char :=
  (cs.takeWhile Char.isDigit, cs.dropWhile Char.isDigit)

/-- The digits after a point; without digits the point does not belong to the number. -/
def fraction (cs : List Char) : List Char × List Char :=
  match cs with
  | '.' :: rest =>
    match spanDigits rest with
    | ([], _) => ([], cs)
    | found => found
  | _ => ([], cs)

/-- A power of ten after `e`; without digits it does not belong to the number. -/
def power (cs : List Char) : Option Int × List Char :=
  let digitsAfter (negative : Bool) (rest : List Char) : Option Int × List Char :=
    match spanDigits rest with
    | ([], _) => (none, cs)
    | (ds, after) => (some (if negative then -(digitsValue ds : Int) else digitsValue ds), after)
  match cs with
  | e :: rest =>
    if e == 'e' || e == 'E' then
      match rest with
      | '-' :: rest => digitsAfter true rest
      | '+' :: rest => digitsAfter false rest
      | rest => digitsAfter false rest
    else (none, cs)
  | [] => (none, cs)

/-- The longest row of digits that a whole number may have. -/
def maxWholeDigits : Nat := 4300

/-- The digits before the point: a single zero, or a row that does not begin with zero. -/
def wholeDigits? (cs : List Char) : Option (List Char × List Char) :=
  match cs with
  | '0' :: rest => some (['0'], rest)
  | _ =>
    match spanDigits cs with
    | ([], _) => none
    | found => some found

/-- A number without its sign. -/
def number? (negative : Bool) (cs : List Char) : Option (Json × List Char) := do
  let (whole, rest) ← wholeDigits? cs
  let (places, rest) := fraction rest
  let (exponent, rest) := power rest
  if places.isEmpty && exponent.isNone then
    if maxWholeDigits < whole.length then none
    else
      let n := digitsValue whole
      return (.int (if negative then -(n : Int) else n), rest)
  else
    let scale := exponent.getD 0 - places.length
    return (.float (Decimal.toFloat negative (digitsValue (whole ++ places)) scale), rest)

/-! ## §3 Tokens -/

/-- The words that stand for values. -/
def words : List (String × Json) :=
  [("null", .null), ("true", .bool true), ("false", .bool false),
    ("NaN", .float (Float.ofBits 0x7ff8000000000000)),
    ("Infinity", .float (Float.ofBits 0x7ff0000000000000)),
    ("-Infinity", .float (Float.ofBits 0xfff0000000000000))]

/-- A word or a number. -/
def scalar? (cs : List Char) : Option (Json × List Char) :=
  let word := words.findSome? fun (w, value) =>
    (Text.after? w cs).map fun rest => (value, rest)
  match word with
  | some found => some found
  | none =>
    match cs with
    | '-' :: rest => number? true rest
    | _ => number? false cs

/-- Blanks between tokens. -/
def isSpace (c : Char) : Bool :=
  c == ' ' || c == '\t' || c == '\n' || c == '\r'

/-- One token, not preceded by blanks. -/
def token? (c : Char) (rest : List Char) : Option (Token × List Char) :=
  if c == '[' then some (.openArray, rest)
  else if c == ']' then some (.closeArray, rest)
  else if c.toNat == 0x7b then some (.openObject, rest)
  else if c.toNat == 0x7d then some (.closeObject, rest)
  else if c == ':' then some (.colon, rest)
  else if c == ',' then some (.comma, rest)
  else if c == '"' then
    (stringBody rest).map fun (codes, after) =>
      (.text (String.ofList (joinSurrogates codes)), after)
  else (scalar? (c :: rest)).map fun (value, after) => (.scalar value, after)

/-! ## §4 Values -/

/-- An array or object that is still open: its finished part, the array's newest item first, and
for an object the name whose value is under way. -/
inductive Frame where
  | array (done : List Json)
  | object (done : List (String × Json)) (name : String)

/-- What the frame is open for. -/
def Frame.container : Frame → Container
  | .array _ => .array
  | .object .. => .object

/-- What may come next. -/
inductive Expect where
  /-- a value -/
  | value
  /-- a value or the end of a new array -/
  | itemOrEnd
  /-- a member name -/
  | name
  /-- a member name or the end of a new object -/
  | nameOrEnd
  /-- the colon after a member name -/
  | colon
  /-- a comma or the end of the innermost array or object -/
  | separator
  /-- nothing: the value is complete -/
  | nothing (value : Json)

/-- The open frames, innermost first, and what may come next. -/
structure ReaderState where
  frames : List Frame
  expect : Expect

/-- Put a finished value where it belongs. -/
def ReaderState.finish (frames : List Frame) (value : Json) : ReaderState :=
  match frames with
  | [] => ⟨[], .nothing value⟩
  | .array done :: outer => ⟨.array (value :: done) :: outer, .separator⟩
  | .object done name :: outer => ⟨.object (put name value done) name :: outer, .separator⟩

/-- The start of a value. -/
def ReaderState.start? (frames : List Frame) : Token → Option ReaderState
  | .openArray => some ⟨.array [] :: frames, .itemOrEnd⟩
  | .openObject => some ⟨.object [] "" :: frames, .nameOrEnd⟩
  | .text s => some (.finish frames (.str s))
  | .scalar value => some (.finish frames value)
  | _ => none

/-- The end of the innermost array or object. -/
def ReaderState.close? (frames : List Frame) : Token → Option ReaderState
  | .closeArray =>
    match frames with
    | .array done :: outer => some (.finish outer (.arr done.reverse))
    | _ => none
  | .closeObject =>
    match frames with
    | .object done _ :: outer => some (.finish outer (.obj done))
    | _ => none
  | _ => none

/-- Take one token. -/
def ReaderState.step? (s : ReaderState) (t : Token) : Option ReaderState :=
  match s.expect with
  | .value => start? s.frames t
  | .itemOrEnd =>
    match t with
    | .closeArray => close? s.frames t
    | _ => start? s.frames t
  | .name | .nameOrEnd =>
    match t, s.expect, s.frames with
    | .closeObject, .nameOrEnd, frames => close? frames t
    | .text key, _, .object done _ :: outer => some ⟨.object done key :: outer, .colon⟩
    | _, _, _ => none
  | .colon =>
    match t with
    | .colon => some ⟨s.frames, .value⟩
    | _ => none
  | .separator =>
    match t, s.frames with
    | .comma, .array _ :: _ => some ⟨s.frames, .value⟩
    | .comma, .object _ _ :: _ => some ⟨s.frames, .name⟩
    | _, frames => close? frames t
  | .nothing _ => none

/-! ## §5 Texts -/

/-- Why a text is not read. -/
inductive Unreadable where
  /-- it does not write one value -/
  | malformed
  /-- an array or object in it stands too deep -/
  | tooDeep (container : Container)
deriving DecidableEq, Repr

/-- Take one token, with so many arrays and objects open at most. -/
def ReaderState.take (depth : Nat) (s : ReaderState) (t : Token) :
    Except Unreadable ReaderState :=
  match s.step? t with
  | none => .error .malformed
  | some next =>
    match next.frames with
    | [] => .ok next
    | innermost :: outer =>
      if depth ≤ outer.length then .error (.tooDeep innermost.container) else .ok next

/-- Read on in a state. Every token takes a character, so their number bounds the rounds. -/
def readOn (depth : Nat) : Nat → ReaderState → List Char → Except Unreadable ReaderState
  | _, s, [] => .ok s
  | 0, _, _ :: _ => .error .malformed
  | rounds + 1, s, c :: rest =>
    if isSpace c then readOn depth rounds s rest
    else
      match token? c rest with
      | none => .error .malformed
      | some (token, after) =>
        match s.take depth token with
        | .error reason => .error reason
        | .ok next => readOn depth rounds next after

/-- The value that a text writes, if it writes one and nothing else, and no array or object in it
stands deeper than the given number of others. -/
def read (depth : Nat) (text : String) : Except Unreadable Json :=
  let cs := text.toList
  match readOn depth cs.length ⟨[], .value⟩ cs with
  | .error reason => .error reason
  | .ok final =>
    match final.expect with
    | .nothing value => .ok value
    | _ => .error .malformed

/-- The value that a text writes, however deep it is nested. Nothing in a text stands deeper than
the text is long. -/
def read? (text : String) : Option Json :=
  (read text.toList.length text).toOption

end Fleet.Json
