import PgFragment.Text.Unprintable

namespace PgFragment.Text

/-!
# Shown text

How messages show a string or a character, so that any text reads as one line of visible
characters: in quotes, with escapes for the quote, the backslash, the common controls, and by code
point for what has no printed form.
-/

/-- A character as it is shown between `mark`s. -/
def shownChar (mark c : Char) : List Char :=
  if c = mark || c = '\\' then ['\\', c]
  else if c = '\n' then ['\\', 'n']
  else if c = '\r' then ['\\', 'r']
  else if c = '\t' then ['\\', 't']
  else if c.toNat = 0 then ['\\', '0']
  else if isUnprintable c then
    ['\\', 'u', '\x7b'] ++ Nat.toDigits 16 c.toNat ++ ['\x7d']
  else [c]

/-- A string as messages show it. -/
def shown (s : String) : String :=
  String.ofList ('"' :: (s.toList.flatMap (shownChar '"') ++ ['"']))

/-- A single character as messages show it. -/
def shownSingle (c : Char) : String := String.ofList ('\x27' :: (shownChar '\x27' c ++ ['\x27']))

end PgFragment.Text
