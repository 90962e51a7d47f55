import Fleet.Decimal.Nearest
import Fleet.Text.Digit

/-!
# Reading numerals

Numbers that a person types may have blanks around them, a sign, digits of any script, and single
underscores between digits.  A numeral with a point or a power of ten is read as the nearest
double, as are the words for infinity and for no number.
-/

namespace Fleet.Decimal

/-- The text with every decimal digit replaced by its ASCII form. -/
def plainDigits (cs : List Char) : List Char :=
  cs.map fun c => ((Text.digitValue? c).map Nat.digitChar).getD c

/-- Drop underscores that stand between two digits; any other underscore is refused. `previous`
tells whether the character before is a digit. -/
def dropUnderscores? (previous : Bool) : List Char → Option (List Char)
  | [] => some []
  | '_' :: c :: rest =>
    if previous && c.isDigit then dropUnderscores? false (c :: rest) else none
  | '_' :: [] => none
  | c :: rest => (dropUnderscores? c.isDigit rest).map (c :: ·)

/-- The characters of a numeral: without blanks around it, in ASCII digits, without underscores.
-/
def numeralChars? (s : String) : Option (List Char) :=
  dropUnderscores? false (plainDigits (Text.trimBlanks s.toList))

/-- A sign at the front: whether it is a minus, and the rest. -/
def takeSign : List Char → Bool × List Char
  | '-' :: rest => (true, rest)
  | '+' :: rest => (false, rest)
  | rest => (false, rest)

/-- The number that a row of ASCII digits writes. -/
def valueOf (digits : List Char) : Nat :=
  digits.foldl (fun n c => 10 * n + (c.toNat - 48)) 0

/-- The longest row of digits that a whole number may have. -/
def maxDigits : Nat := 4300

/-- The whole number that a text writes. -/
def readInt? (s : String) : Option Int := do
  let (negative, digits) := takeSign (← numeralChars? s)
  if digits.isEmpty || !digits.all Char.isDigit || maxDigits < digits.length then none
  else return if negative then -(valueOf digits : Int) else valueOf digits

/-- The power of ten at the end of a numeral: nothing, or `e` with a whole number. -/
def readPower? : List Char → Option Int
  | [] => some 0
  | e :: rest =>
    if e == 'e' || e == 'E' then
      let (negative, digits) := takeSign rest
      if digits.isEmpty || !digits.all Char.isDigit then none
      else some (if negative then -(valueOf digits : Int) else valueOf digits)
    else none

/-- A double without its sign: digits, a point, more digits, a power of ten. -/
def readUnsigned? (negative : Bool) (cs : List Char) : Option Float := do
  let whole := cs.takeWhile Char.isDigit
  let rest := cs.dropWhile Char.isDigit
  let (places, rest) := match rest with
    | '.' :: rest => (rest.takeWhile Char.isDigit, rest.dropWhile Char.isDigit)
    | rest => ([], rest)
  if whole.isEmpty && places.isEmpty then none
  else
    let power ← readPower? rest
    return toFloat negative (valueOf (whole ++ places)) (power - places.length)

/-- The words for numbers that are not finite. -/
def readWord? (negative : Bool) (cs : List Char) : Option Float :=
  match String.ofList (cs.map Char.toLower) with
  | "inf" | "infinity" =>
    some (Float.ofBits (if negative then 0xfff0000000000000 else 0x7ff0000000000000))
  | "nan" => some (Float.ofBits 0x7ff8000000000000)
  | _ => none

/-- The double that a text writes. -/
def readFloat? (s : String) : Option Float := do
  let (negative, cs) := takeSign (← numeralChars? s)
  (readWord? negative cs).or (readUnsigned? negative cs)

end Fleet.Decimal
