/-!
# Names of instances

An instance that the account creates is named after the moment of its creation.  Where a name is
given by a person, the characters that instance names cannot have are left out.
-/

namespace Fleet

/-- A reading of the wall clock. -/
structure Moment where
  year : Nat
  month : Nat
  day : Nat
  hour : Nat
  minute : Nat
  second : Nat
deriving DecidableEq, Repr, Inhabited

/-- A number with at least two digits. -/
def twoDigits (n : Nat) : String :=
  if n < 10 then "0" ++ toString n else toString n

/-- The date and the time of a moment, down to the second. -/
def Moment.stamp (m : Moment) : String :=
  toString m.year ++ twoDigits m.month ++ twoDigits m.day ++ "-" ++
    twoDigits m.hour ++ twoDigits m.minute ++ twoDigits m.second

/-- The name of an instance created at the given moment. -/
def instanceNameAt (m : Moment) : String :=
  "outline-" ++ m.stamp

/-- The characters that a given name may keep. -/
def isNameChar (c : Char) : Bool :=
  ('a' ≤ c && c ≤ 'z') || ('A' ≤ c && c ≤ 'Z') || ('0' ≤ c && c ≤ '9') || c == '-'

/-- The given name without the characters that it cannot keep. -/
def validInstanceName (name : String) : String :=
  String.ofList (name.toList.filter isNameChar)

end Fleet
