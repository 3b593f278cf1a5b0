namespace PgFragment.Text

/-!
# Blank characters and words

`isBlank` is the White_Space property of Unicode, so it also holds of the no-break and the
ideographic space and not of the zero-width ones.  Trimming and splitting into words are said
through it.  Main statement: trimmed text has no blank at its end.
-/

/-- The White_Space property: the 25 code points that separate words. -/
def isBlank (c : Char) : Bool :=
  let n := c.toNat
  (9 ≤ n && n ≤ 13) || n == 0x20 || n == 0x85 || n == 0xA0 || n == 0x1680 ||
    (0x2000 ≤ n && n ≤ 0x200A) || n == 0x2028 || n == 0x2029 || n == 0x202F || n == 0x205F ||
    n == 0x3000

/-- What is left after the leading blanks. -/
def trimStart (s : List Char) : List Char := s.dropWhile isBlank

/-- What is left before the trailing blanks. -/
def trimEnd (s : List Char) : List Char := (s.reverse.dropWhile isBlank).reverse

/-- The text without blanks at either end. -/
def trim (s : List Char) : List Char := trimEnd (trimStart s)

/-- The maximal runs of characters that are not blank, in order. -/
def words (s : List Char) : List (List Char) := (s.splitOnP isBlank).filter (!·.isEmpty)

/-- `trimEnd` on strings. -/
def trimEndString (s : String) : String := String.ofList (trimEnd s.toList)

/-- Trimming stops at a character that is not blank. -/
theorem isBlank_getLast_trimEnd {s : List Char} {c : Char} (h : (trimEnd s).getLast? = some c) :
    isBlank c = false := by
  rw [trimEnd, List.getLast?_reverse] at h
  simpa [h] using List.head?_dropWhile_not isBlank s.reverse

end PgFragment.Text
