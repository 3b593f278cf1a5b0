namespace PgFragment.Text

/-!
# Quoted text

Text between two marks, in which the mark itself is written twice.  `closeQuote` reads it back:
a mark that no second mark follows closes the text.  Main statement: whatever follows the closing
mark, unless it begins with the mark, what was quoted is read back and the rest is untouched.
-/

variable {mark : Char}

/-- Writes each mark twice. -/
def doubled (mark : Char) : List Char → List Char
  | [] => []
  | c :: rest => if c = mark then mark :: mark :: doubled mark rest else c :: doubled mark rest

/-- The text between marks. -/
def quoted (mark : Char) (s : List Char) : List Char := mark :: (doubled mark s ++ [mark])

/-- `quoted` on strings. -/
def quotedString (mark : Char) (s : String) : String := String.ofList (quoted mark s.toList)

/-- Reads on after an opening mark: the text up to the closing mark, and what follows it. -/
def closeQuote (mark : Char) : List Char → Option (List Char × List Char)
  | [] => none
  | c :: rest =>
    if c = mark then
      match rest with
      | [] => some ([], [])
      | d :: more =>
        if d = mark then (closeQuote mark more).map fun (s, after) => (mark :: s, after)
        else some ([], d :: more)
    else (closeQuote mark rest).map fun (s, after) => (c :: s, after)

/-- Reads one quoted text from the front. -/
def readQuoted (mark : Char) : List Char → Option (List Char × List Char)
  | [] => none
  | c :: rest => if c = mark then closeQuote mark rest else none

theorem closeQuote_cons_of_ne {c : Char} (h : c ≠ mark) (rest : List Char) :
    closeQuote mark (c :: rest) = (closeQuote mark rest).map fun (s, after) => (c :: s, after) := by
  rw [closeQuote.eq_def]
  simp [h]

theorem closeQuote_doubled (s : List Char) {after : List Char} (h : after.head? ≠ some mark) :
    closeQuote mark (doubled mark s ++ mark :: after) = some (s, after) := by
  induction s with
  | nil => cases after <;> simp_all [doubled, closeQuote]
  | cons c s ih =>
    by_cases hc : c = mark
    · simp [doubled, closeQuote, hc, ih]
    · simp [doubled, closeQuote_cons_of_ne, hc, ih]

theorem readQuoted_quoted (s : List Char) {after : List Char} (h : after.head? ≠ some mark) :
    readQuoted mark (quoted mark s ++ after) = some (s, after) := by
  simp [readQuoted, quoted, closeQuote_doubled s h]

end PgFragment.Text
