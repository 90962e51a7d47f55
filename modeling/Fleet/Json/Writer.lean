import Fleet.Json.Basic
import Fleet.Decimal.Shortest
import Fleet.Text.Quoted

/-!
# Writing JSON text

The text of a value, with a comma and a colon as the only separators.  Numbers that are not
finite take the words that the reader knows.
-/

namespace Fleet.Json

/-- One character of a string. -/
def writtenChar (c : Char) : List Char :=
  if c == '"' || c == '\\' then ['\\', c]
  else if c.toNat < 32 then '\\' :: 'u' :: Text.hexPadded 4 c.toNat
  else [c]

/-- A string between quotes. -/
def writtenString (s : String) : String :=
  String.ofList ('"' :: s.toList.flatMap writtenChar ++ ['"'])

/-- A number that is not whole. -/
def writtenFloat (x : Float) : String :=
  match Decimal.Shown.ofFloat x with
  | .nan => "NaN"
  | .infinite negative => if negative then "-Infinity" else "Infinity"
  | _ => Decimal.floatText x

mutual

/-- The JSON text of a value. -/
def write : Json → String
  | .null => "null"
  | .bool true => "true"
  | .bool false => "false"
  | .int n => toString n
  | .float x => writtenFloat x
  | .str s => writtenString s
  | .arr items => "[" ++ String.intercalate "," (writeItems items) ++ "]"
  | .obj members => "\x7b" ++ String.intercalate "," (writeMembers members) ++ "\x7d"

/-- The JSON texts of several values. -/
def writeItems : List Json → List String
  | [] => []
  | item :: rest => write item :: writeItems rest

/-- The JSON texts of the members of an object. -/
def writeMembers : List (String × Json) → List String
  | [] => []
  | (key, value) :: rest => (writtenString key ++ ":" ++ write value) :: writeMembers rest

end

end Fleet.Json
