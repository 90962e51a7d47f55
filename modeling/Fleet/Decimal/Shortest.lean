import Fleet.Decimal.Nearest

/-!
# The shortest decimal of a double

A double is written with the fewest digits that still read back as the same double.  Every
double has an interval of reals that round to it, ends included when its significand is even.
For one digit, two digits and so on, the two neighbours of the value on that decimal grid are
compared with the interval in exact arithmetic; the first grid with a hit wins, and of two hits
the nearer.
-/

namespace Fleet.Decimal

/-- A nonnegative double as `significand * 2 ^ place`, with the ends of the interval of reals
that round to it, in units of `2 ^ (place - 2)`. -/
structure Binary where
  significand : Nat
  place : Int
  low : Nat
  high : Nat
deriving Repr, DecidableEq

/-- Take apart the bits of a finite nonnegative double. -/
def Binary.ofBits (bits : Nat) : Binary :=
  let exponent := bits / exponentUnit
  let fraction := bits % exponentUnit
  let m := if exponent == 0 then fraction else fraction + exponentUnit
  -- below a power of two the doubles lie twice as close
  let below := if fraction == 0 && 1 < exponent then 1 else 2
  { significand := m
    place := if exponent == 0 then -1074 else Int.ofNat exponent - 1075
    low := 4 * m - below
    high := 4 * m + 2 }

/-- A positive decimal: `0.d₁d₂…` times `10 ^ point`, the digits without leading or trailing
zeros. -/
structure Digits where
  digits : List Char
  point : Int
deriving Repr, DecidableEq

/-- The value, the interval and one step of the grid `10 ^ grid`, over one denominator. -/
structure Scaled where
  value : Nat
  low : Nat
  high : Nat
  step : Nat

/-- Bring a binary number and the grid `10 ^ grid` to a common denominator. -/
def Binary.scaled (b : Binary) (grid : Int) : Scaled :=
  let two := b.place - 2
  let up := Nat.pow 2 two.toNat * Nat.pow 10 (-grid).toNat
  { value := 4 * b.significand * up
    low := b.low * up
    high := b.high * up
    step := Nat.pow 10 grid.toNat * Nat.pow 2 (-two).toNat }

/-- The number of decimal places before the point: `10 ^ (point - 1) ≤ value < 10 ^ point`. -/
def Binary.point (b : Binary) : Int :=
  let num := b.significand * Nat.pow 2 b.place.toNat
  let den := Nat.pow 2 (-b.place).toNat
  let guess := Int.ofNat (Nat.toDigits 10 num).length - Int.ofNat (Nat.toDigits 10 den).length
  if den * Nat.pow 10 guess.toNat ≤ num * Nat.pow 10 (-guess).toNat then guess + 1 else guess

/-- Whether the grid point number `n` rounds back to the double. -/
def Binary.reaches (b : Binary) (s : Scaled) (n : Nat) : Bool :=
  if b.significand % 2 == 0 then s.low ≤ n * s.step && n * s.step ≤ s.high
  else s.low < n * s.step && n * s.step < s.high

/-- The grid point with `count` digits that reads back, if there is one. -/
def Binary.onGrid? (b : Binary) (count : Nat) : Option Nat :=
  let s := b.scaled (b.point - count)
  let n := s.value / s.step
  match b.reaches s n, b.reaches s (n + 1) with
  | true, true =>
    -- both neighbours read back: the nearer one, and of two equally near ones the even one
    let excess := 2 * (s.value - n * s.step)
    some (if s.step < excess || (excess == s.step && n % 2 == 1) then n + 1 else n)
  | true, false => some n
  | false, true => some (n + 1)
  | false, false => none

/-- Without the zeros at the end. -/
def dropTrailingZeros (cs : List Char) : List Char :=
  (cs.reverse.dropWhile (· == '0')).reverse

/-- The shortest digits of a positive double; seventeen are always enough. -/
def Binary.shortest (b : Binary) : Digits :=
  let hit := (List.range 17).findSome? fun k =>
    (b.onGrid? (k + 1)).map fun n => (k + 1, n)
  match hit with
  | some (count, n) =>
    let cs := Nat.toDigits 10 n
    { digits := dropTrailingZeros cs, point := b.point + (Int.ofNat cs.length - Int.ofNat count) }
  | none => { digits := Nat.toDigits 10 b.significand, point := b.point }

/-- The parts of a double that its text shows. -/
inductive Shown where
  | nan
  | infinite (negative : Bool)
  | zero (negative : Bool)
  | finite (negative : Bool) (digits : Digits)
deriving Repr, DecidableEq

/-- What the text of a double shows. -/
def Shown.ofFloat (x : Float) : Shown :=
  let bits := x.toBits.toNat
  let negative := signBit ≤ bits
  let magnitude := bits % signBit
  if infinityBits < magnitude then .nan
  else if magnitude == infinityBits then .infinite negative
  else if magnitude == 0 then .zero negative
  else .finite negative (Binary.ofBits magnitude).shortest

/-! ## §2 Written form -/

/-- The exponent with its sign and at least two digits. -/
def exponentText (e : Int) : List Char :=
  let digits := Nat.toDigits 10 e.natAbs
  let padded := if digits.length < 2 then '0' :: digits else digits
  (if e < 0 then '-' else '+') :: padded

/-- Digits in positional form from one ten-thousandth up to ten to the sixteenth, and with an
exponent outside of that; a point or an exponent is always shown. -/
def Digits.text (d : Digits) : List Char :=
  if -4 < d.point && d.point ≤ 16 then
    match d.point with
    | .ofNat 0 => '0' :: '.' :: d.digits
    | .ofNat p =>
      let whole := d.digits.take p ++ List.replicate (p - d.digits.length) '0'
      let rest := d.digits.drop p
      whole ++ '.' :: (if rest.isEmpty then ['0'] else rest)
    | .negSucc p => '0' :: '.' :: (List.replicate (p + 1) '0' ++ d.digits)
  else
    let head := d.digits.take 1
    let tail := d.digits.drop 1
    head ++ (if tail.isEmpty then [] else '.' :: tail) ++ 'e' :: exponentText (d.point - 1)

/-- The text of a double. -/
def floatText (x : Float) : String :=
  match Shown.ofFloat x with
  | .nan => "nan"
  | .infinite negative => if negative then "-inf" else "inf"
  | .zero negative => if negative then "-0.0" else "0.0"
  | .finite negative d => String.ofList (if negative then '-' :: d.text else d.text)

end Fleet.Decimal
