/-!
# Base64

Bytes are written in groups of three as four characters of a 64-letter alphabet; a last group of
one or two bytes is filled up with `=`.  The reader is strict about characters and padding, and
lenient only about the unused low bits of the last character.
-/

namespace Fleet.Text.Base64

/-- The character of a six-bit value. -/
def letter (n : Nat) : Char :=
  if n < 26 then Char.ofNat (65 + n)
  else if n < 52 then Char.ofNat (97 + (n - 26))
  else if n < 62 then Char.ofNat (48 + (n - 52))
  else if n == 62 then '+'
  else '/'

/-- The six-bit value of a character of the alphabet. -/
def sextet? (c : Char) : Option Nat :=
  if 'A' ≤ c ∧ c ≤ 'Z' then some (c.toNat - 65)
  else if 'a' ≤ c ∧ c ≤ 'z' then some (c.toNat - 97 + 26)
  else if '0' ≤ c ∧ c ≤ '9' then some (c.toNat - 48 + 52)
  else if c = '+' then some 62
  else if c = '/' then some 63
  else none

/-- The padding character. -/
def pad : Char := '='

/-! ## §1 Writing -/

/-- The characters of a row of bytes. -/
def encode : List UInt8 → List Char
  | [] => []
  | [a] =>
    [letter (a.toNat / 4), letter (a.toNat % 4 * 16), pad, pad]
  | [a, b] =>
    [letter (a.toNat / 4), letter (a.toNat % 4 * 16 + b.toNat / 16),
      letter (b.toNat % 16 * 4), pad]
  | a :: b :: c :: rest =>
    letter (a.toNat / 4) :: letter (a.toNat % 4 * 16 + b.toNat / 16) ::
      letter (b.toNat % 16 * 4 + c.toNat / 64) :: letter (c.toNat % 64) :: encode rest

/-! ## §2 Reading -/

/-- The bytes of a row of six-bit values; what is left of a last group below a byte is dropped. -/
def bytes : List Nat → List UInt8
  | a :: b :: c :: d :: rest =>
    UInt8.ofNat (a * 4 + b / 16) :: UInt8.ofNat (b % 16 * 16 + c / 4) ::
      UInt8.ofNat (c % 4 * 64 + d) :: bytes rest
  | [a, b, c] => [UInt8.ofNat (a * 4 + b / 16), UInt8.ofNat (b % 16 * 16 + c / 4)]
  | [a, b] => [UInt8.ofNat (a * 4 + b / 16)]
  | _ => []

/-- Whether so many padding characters may follow so many characters of data: a last group of
two needs two, one of three needs one, and complete groups stand with any number. -/
def paddingFits (data padding : Nat) : Bool :=
  match data % 4 with
  | 0 => 0 < data || padding == 0
  | 1 => false
  | 2 => padding == 2
  | _ => padding == 1

/-- The six-bit values of characters that all belong to the alphabet. -/
def sextets? : List Char → Option (List Nat)
  | [] => some []
  | c :: rest =>
    match sextet? c, sextets? rest with
    | some n, some ns => some (n :: ns)
    | _, _ => none

/-- The bytes that a text writes. -/
def decode? (cs : List Char) : Option (List UInt8) :=
  let data := cs.takeWhile (· != pad)
  let padding := cs.dropWhile (· != pad)
  if padding.all (· == pad) && paddingFits data.length padding.length then
    (sextets? data).map bytes
  else none

end Fleet.Text.Base64
