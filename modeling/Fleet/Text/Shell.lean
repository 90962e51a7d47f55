/-!
# Quoting for the shell

A word that the shell must take as it stands is put between single quotes; a single quote inside
is written between double quotes.  A word made of harmless characters alone stays bare.
-/

namespace Fleet.Text.Shell

/-- Characters that mean nothing to the shell. -/
def isHarmless (c : Char) : Bool :=
  ('a' ≤ c && c ≤ 'z') || ('A' ≤ c && c ≤ 'Z') || ('0' ≤ c && c ≤ '9') ||
    ['_', '@', '%', '+', '=', ':', ',', '.', '/', '-'].contains c

/-- One character between single quotes. -/
def enclosed (c : Char) : List Char :=
  if c = '\x27' then ['\x27', '"', '\x27', '"', '\x27'] else [c]

/-- The characters of a quoted word. -/
def quoteChars (cs : List Char) : List Char :=
  if !cs.isEmpty && cs.all isHarmless then cs
  else '\x27' :: cs.flatMap enclosed ++ ['\x27']

/-- A word that the shell reads as the given text. -/
def quote (word : String) : String :=
  String.ofList (quoteChars word.toList)

end Fleet.Text.Shell
