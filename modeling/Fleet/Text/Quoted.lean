import Fleet.Text.Printable

/-!
# Quoted text

Messages show a text between quotes so that its ends and its invisible characters can be seen.
Single quotes are used unless the text has a single quote and no double one.  The quote in use,
the backslash and every character that is not printable are written as escapes.
-/

namespace Fleet.Text

/-- The single quote. -/
def singleQuote : Char := '\x27'

/-- The double quote. -/
def doubleQuote : Char := '\x22'

/-- The digits of `n` in base sixteen, filled with zeros on the left up to `width`. -/
def hexPadded (width n : Nat) : List Char :=
  let digits := Nat.toDigits 16 n
  List.replicate (width - digits.length) '0' ++ digits

/-- The quote that encloses a text. -/
def quoteFor (cs : List Char) : Char :=
  if cs.contains singleQuote && !cs.contains doubleQuote then doubleQuote else singleQuote

/-- One character inside quotes. -/
def escaped (quote c : Char) : List Char :=
  if c == quote || c == '\\' then ['\\', c]
  else if c == '\n' then ['\\', 'n']
  else if c == '\r' then ['\\', 'r']
  else if c == '\t' then ['\\', 't']
  else if isPrintable c then [c]
  else if c.toNat ≤ 0xff then '\\' :: 'x' :: hexPadded 2 c.toNat
  else if c.toNat ≤ 0xffff then '\\' :: 'u' :: hexPadded 4 c.toNat
  else '\\' :: 'U' :: hexPadded 8 c.toNat

/-- A text between quotes. -/
def quoted (s : String) : String :=
  let cs := s.toList
  let quote := quoteFor cs
  String.ofList (quote :: cs.flatMap (escaped quote) ++ [quote])

/-- A printable character other than the quote and the backslash stands unchanged. -/
theorem escaped_of_isPrintable {quote c : Char} (hp : isPrintable c = true) (hq : c ≠ quote)
    (hb : c ≠ '\\') (hn : 32 ≤ c.toNat) : escaped quote c = [c] := by
  have h1 : c ≠ '\n' := by rintro rfl; exact absurd hn (by decide)
  have h2 : c ≠ '\r' := by rintro rfl; exact absurd hn (by decide)
  have h3 : c ≠ '\t' := by rintro rfl; exact absurd hn (by decide)
  simp [escaped, hp, hq, hb, h1, h2, h3]

/-- The quote in use is always escaped. -/
theorem escaped_quote (quote : Char) : escaped quote quote = ['\\', quote] := by
  simp [escaped]

end Fleet.Text
