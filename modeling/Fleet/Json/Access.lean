import Fleet.Fault
import Fleet.Text.Segment

/-!
# Taking values apart

Replies are taken apart without knowing their shape: by member name, by place, one item after
the other, or by asking what they contain.  Each operation says for which kinds of values it is
defined and which fault the others give.
-/

namespace Fleet.Json

/-- The member of an object, if it has it. Only objects have members to look for. -/
def get? (j : Json) (name : String) : Except Fault (Option Json) :=
  match j with
  | .obj members => .ok (lookup name members)
  | _ => .error (.noOperation j.kind "get")

/-- The member of an object, or a substitute where it is missing. -/
def getD (j : Json) (name : String) (substitute : Json) : Except Fault Json :=
  (j.get? name).map (·.getD substitute)

/-- The member of an object, null where it is missing. -/
def get (j : Json) (name : String) : Except Fault Json :=
  j.getD name .null

/-- The named part of a value: a member that must be there. -/
def part (j : Json) (name : String) : Except Fault Json :=
  match j with
  | .obj members =>
    match lookup name members with
    | some value => .ok value
    | none => .error (.missingKey (.str name))
  | .arr _ | .str _ => .error (.notByName j.kind)
  | _ => .error (.noParts j.kind)

/-- The first part of a value: of an array its first item, of a text its first character. An
object has only named parts. -/
def first (j : Json) : Except Fault Json :=
  match j with
  | .arr (item :: _) => .ok item
  | .str s =>
    match s.toList with
    | c :: _ => .ok (.str (String.ofList [c]))
    | [] => .error (.noSuchPlace .str)
  | .arr [] => .error (.noSuchPlace .arr)
  | .obj _ => .error (.missingKey (.int 0))
  | _ => .error (.noParts j.kind)

/-- The characters of a text, each as a text. -/
def letters (s : String) : List Json :=
  s.toList.map fun c => .str (String.ofList [c])

/-- What a value goes through: an array its items, an object its member names, a text its
characters. -/
def elements (j : Json) : Except Fault (List Json) :=
  match j with
  | .arr items => .ok items
  | .obj members => .ok (members.map fun (key, _) => .str key)
  | .str s => .ok (letters s)
  | _ => .error (.notASequence j.kind)

/-- The values of the members of an object. -/
def values (j : Json) : Except Fault (List Json) :=
  match j with
  | .obj members => .ok (members.map (·.2))
  | _ => .error (.noOperation j.kind "values")

/-- Whether a value contains a text: an object as a member name, an array as an item, a text as
a part of it. -/
def contains (j : Json) (text : String) : Except Fault Bool :=
  match j with
  | .obj members => .ok ((lookup text members).isSome)
  | .arr items => .ok (items.any (isText text))
  | .str s => .ok (Text.occursIn text.toList s.toList)
  | _ => .error (.noMembership j.kind)

/-- How many items a present value has, where they can be counted. -/
def size : Json → Nat
  | .arr items => items.length
  | .obj members => members.length
  | .str s => s.length
  | _ => 0

theorem part_eq_ok_iff {j : Json} {name : String} {value : Json} :
    j.part name = .ok value ↔ j.member? name = some value := by
  cases j <;> simp [part, member?]
  split <;> simp_all

end Fleet.Json
