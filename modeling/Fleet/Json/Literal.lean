import Fleet.Json.Basic
import Fleet.Decimal.Shortest
import Fleet.Text.Quoted

/-!
# JSON values in messages

A message shows a value in one of two forms.  The literal form tells a text from a number: texts
stand between quotes, arrays between brackets, objects between braces, and the words are `None`,
`True` and `False`.  The plain form is the same except that a text on its own stands bare.
-/

namespace Fleet.Json

/-- Texts with a comma and a space between them. -/
def commaList (parts : List String) : String :=
  String.intercalate ", " parts

mutual

/-- The literal form of a value. -/
def literal : Json → String
  | .null => "None"
  | .bool true => "True"
  | .bool false => "False"
  | .int n => toString n
  | .float x => Decimal.floatText x
  | .str s => Text.quoted s
  | .arr items => "[" ++ commaList (literals items) ++ "]"
  | .obj members => "\x7b" ++ commaList (memberLiterals members) ++ "\x7d"

/-- The literal forms of several values. -/
def literals : List Json → List String
  | [] => []
  | item :: rest => literal item :: literals rest

/-- The literal forms of the members of an object. -/
def memberLiterals : List (String × Json) → List String
  | [] => []
  | (key, value) :: rest =>
    (Text.quoted key ++ ": " ++ literal value) :: memberLiterals rest

end

/-- The plain form of a value. -/
def text : Json → String
  | .str s => s
  | j => j.literal

@[simp] theorem text_str (s : String) : (Json.str s).text = s := rfl

theorem literals_eq_map (items : List Json) : literals items = items.map literal := by
  induction items with
  | nil => rfl
  | cons item rest ih => simp [literals, ih]

end Fleet.Json
