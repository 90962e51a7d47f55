/-!
# JSON values

Replies of the platform are JSON of any shape, and most of their members are passed on, compared
or shown without ever being given a narrower type.  A JSON value keeps whole numbers exact and
the members of an object in their order; a member name occurs once in an object.
-/

namespace Fleet

/-- A JSON value. Whole numbers are exact; objects keep the order of their members. -/
inductive Json where
  | null
  | bool (b : Bool)
  | int (n : Int)
  | float (x : Float)
  | str (s : String)
  | arr (items : List Json)
  | obj (members : List (String × Json))
deriving Inhabited

namespace Json

/-- The kinds of JSON values. -/
inductive Kind where
  | null | bool | int | float | str | arr | obj
deriving DecidableEq, Repr

/-- The word by which messages call a kind of value. -/
def Kind.word : Kind → String
  | .null => "NoneType"
  | .bool => "bool"
  | .int => "int"
  | .float => "float"
  | .str => "str"
  | .arr => "list"
  | .obj => "dict"

/-- The kind of a value. -/
def kind : Json → Kind
  | .null => .null
  | .bool _ => .bool
  | .int _ => .int
  | .float _ => .float
  | .str _ => .str
  | .arr _ => .arr
  | .obj _ => .obj

/-- The values that hold others. -/
inductive Container where
  | array
  | object
deriving DecidableEq, Repr

/-- The word by which messages call such a value while it is read. -/
def Container.word : Container → String
  | .array => "array"
  | .object => "object"

/-- A value counts as present unless it is null, false, zero or empty. -/
def truthy : Json → Bool
  | .null => false
  | .bool b => b
  | .int n => n != 0
  | .float x => x != 0.0
  | .str s => !s.isEmpty
  | .arr items => !items.isEmpty
  | .obj members => !members.isEmpty

/-- The value itself if it is present, else a substitute. -/
def orElse (j substitute : Json) : Json :=
  if j.truthy then j else substitute

/-- Whether a value is the given text. -/
def isText (text : String) : Json → Bool
  | .str s => s == text
  | _ => false

/-- A text, or null for none. -/
def ofOption : Option String → Json
  | some s => .str s
  | none => .null

/-! ## §2 Members of an object -/

/-- The value of the named member of a list of members. -/
def lookup (name : String) : List (String × Json) → Option Json
  | [] => none
  | (key, value) :: rest => if key == name then some value else lookup name rest

/-- Give the named member a value: in its place if it is there, at the end if not. -/
def put (name : String) (value : Json) : List (String × Json) → List (String × Json)
  | [] => [(name, value)]
  | (key, old) :: rest =>
    if key == name then (name, value) :: rest else (key, old) :: put name value rest

/-- The value of the named member, if the value is an object that has it. -/
def member? (name : String) : Json → Option Json
  | .obj members => lookup name members
  | _ => none

theorem isText_iff {text : String} {j : Json} : j.isText text = true ↔ j = .str text := by
  cases j <;> simp [isText]

end Json

end Fleet
