import PgFragment.Proofs.Expr.Shape
import PgFragment.Proofs.Text.Runs

namespace PgFragment.Reading

/-!
# Reading a fragment

Readers for the parts of a fragment, each over a reader `sub` for the expressions within it.  A
reader gives the shape it finds at the front of a text and the text behind it.

* `read` — the reader for expressions, with a bound on their depth.
* `Breaks`, `Closes`, `Ends` — what may follow a name, an operand and an expression, so that the
  reader does not run on into it.
* `items_reads`, `clauses_reads` — lists of expressions are read back where `sub` reads the members.
* `named_column`, `named_call`, `bracketed_row`, `keyword_case` — so are the nodes made of them.
-/

open Text

/-- Reads a part of a fragment from the front of a text. -/
abbrev Reader (α : Type) := List Char → Option (α × List Char)

variable {α : Type} {s : Shape} {sub : Reader Shape} {k : Nat} {cs rest : List Char}

/-- The text behind a keyword that the text begins with. -/
def after? (keyword : String) (cs : List Char) : Option (List Char) :=
  keyword.toList.isPrefixOf? cs

theorem after?_append (keyword : String) : after? keyword (keyword.toList ++ rest) = some rest := by
  rw [after?, List.isPrefixOf?_eq_some_iff_append_eq]

theorem append_of_after? {keyword : String} {cs more : List Char}
    (h : after? keyword cs = some more) : keyword.toList ++ more = cs :=
  List.isPrefixOf?_eq_some_iff_append_eq.1 h

/-! ### Readers of lists and clauses -/

/-- Reads expressions between commas up to the closing bracket. -/
def items (sub : Reader Shape) : Nat → Reader (List Shape)
  | 0, _ => none
  | k + 1, cs => do
    let (s, cs) ← sub cs
    match after? ")" cs with
    | some cs => some ([s], cs)
    | none =>
      let cs ← after? ", " cs
      let (ss, cs) ← items sub k cs
      some (s :: ss, cs)

/-- Reads arguments up to the closing bracket; there may be none. -/
def arguments (sub : Reader Shape) (k : Nat) : Reader (List Shape) := fun cs =>
  match after? ")" cs with
  | some cs => some ([], cs)
  | none => items sub k cs

/-- Reads the clauses of a `CASE`. -/
def clauses (sub : Reader Shape) : Nat → Reader (List (Shape × Shape))
  | 0, cs => some ([], cs)
  | k + 1, cs =>
    match after? " WHEN " cs with
    | none => some ([], cs)
    | some cs => do
      let (test, cs) ← sub cs
      let cs ← after? " THEN " cs
      let (result, cs) ← sub cs
      let (more, cs) ← clauses sub k cs
      some ((test, result) :: more, cs)

/-- Reads an expression behind a keyword, if both are there. -/
def optional (keyword : String) (sub : Reader Shape) : Reader (Option Shape) := fun cs =>
  match (after? keyword cs).bind sub with
  | some (s, cs) => some (some s, cs)
  | none => some (none, cs)

/-! ### Readers of operands -/

/-- Reads on after an opening bracket: an operator in brackets, or a row. -/
def bracketed (sub : Reader Shape) (k : Nat) : Reader Shape := fun cs => do
  match ← items sub k cs with
  | ([s], cs) => some (s, cs)
  | (first :: second :: rest, cs) => some (.row first second rest, cs)
  | ([], _) => none

/-- Reads what begins with a name: a column or a call. -/
def named (sub : Reader Shape) (k : Nat) : Reader Shape := fun cs => do
  match ← readIdentifier cs with
  -- Behind a point stands the column of a table, behind a bracket the arguments of a call.
  | (table, '.' :: cs) =>
    let (name, cs) ← readIdentifier cs
    some (.column table name, cs)
  | (name, '(' :: cs) =>
    if h : isLowerName name = true then
      let (args, cs) ← arguments sub k cs
      some (.call ⟨name, h⟩ args, cs)
    else none
  | (name, cs) => some (.column "" name, cs)

/-- Reads on after `CASE`. -/
def caseBody (sub : Reader Shape) (k : Nat) : Reader Shape := fun cs => do
  let (operand, cs) ← optional " " sub cs
  let (clauses, cs) ← clauses sub k cs
  let (otherwise, cs) ← optional " ELSE " sub cs
  let cs ← after? " END" cs
  some (.case operand clauses otherwise, cs)

/-- Reads what begins with a keyword. -/
def keyword (sub : Reader Shape) (k : Nat) : Reader Shape := fun cs =>
  match after? "NULL" cs with
  | some cs => some (.null, cs)
  | none =>
    match after? "CASE" cs with
    | some cs => caseBody sub k cs
    | none => do
      match ← (after? "COALESCE(" cs).bind (items sub k) with
      | ([lhs, rhs], cs) => some (.binary .coalesce lhs rhs, cs)
      | _ => none

/-- Reads an operand without the casts behind it. -/
def primary (sub : Reader Shape) (k : Nat) : Reader Shape
  | [] => none
  | c :: cs =>
    if c = '(' then bracketed sub k cs
    else if c.isDigit then
      let (n, cs) := readNatural (c :: cs)
      some (.number n, cs)
    else if isNameStart c || c == '"' then named sub k (c :: cs)
    else keyword sub k (c :: cs)

/-- The longest run of words at the front of a text, and the text behind it. -/
def typeWords : List Char → List Char × List Char
  | [] => ([], [])
  | c :: cs =>
    -- A blank belongs to the name only where a further word follows it.
    if isNamePart c || (c == ' ' && cs.head?.any isNamePart) then
      (c :: (typeWords cs).1, (typeWords cs).2)
    else ([], c :: cs)

/-- Reads casts behind an operand. -/
def casts : Nat → Shape → Reader Shape
  | 0, s, cs => some (s, cs)
  | k + 1, s, cs =>
    match after? "::" cs with
    | none => some (s, cs)
    | some cs =>
      if h : isTypeName (String.ofList (typeWords cs).1) = true then
        casts k (.cast s ⟨String.ofList (typeWords cs).1, h⟩) (typeWords cs).2
      else none

/-- Reads an operand. -/
def operand (sub : Reader Shape) (k : Nat) : Reader Shape := fun cs => do
  let (s, cs) ← primary sub k cs
  casts k s cs

/-! ### Readers of expressions -/

/-- What joins two operands. -/
inductive Connective where
  | operator (op : BinaryOp)
  | like (ignoreCase : Bool)

/-- The text of a connective. -/
def Connective.text : Connective → String
  | .operator op => " " ++ op.text ++ " "
  | .like ignoreCase => if ignoreCase then " ILIKE " else " LIKE "

/-- Two operands joined. -/
def Connective.join : Connective → Shape → Shape → Shape
  | .operator op => .binary op
  | .like ignoreCase => .like ignoreCase

/-- Every connective. -/
def connectives : List Connective :=
  BinaryOp.all.map .operator ++ [.like false, .like true]

/-- Reads a connective. -/
def connective : Reader Connective := fun cs =>
  connectives.findSome? fun c => (after? c.text cs).map (c, ·)

/-- Reads an operand, or two that are joined. -/
def joined (sub : Reader Shape) (k : Nat) : Reader Shape := fun cs => do
  let (lhs, cs) ← operand sub k cs
  match connective cs with
  | none => some (lhs, cs)
  | some (c, cs) =>
    let (rhs, cs) ← operand sub k cs
    some (c.join lhs rhs, cs)

/-- Reads an expression. -/
def expression (sub : Reader Shape) (k : Nat) : Reader Shape := fun cs =>
  match after? "NOT " cs with
  | some cs => do
    let (s, cs) ← operand sub k cs
    some (.not s, cs)
  | none =>
    match after? "-" cs with
    | some cs => some (.number (-(readNatural cs).1), (readNatural cs).2)
    | none => joined sub k cs

/-- Reads an expression of bounded depth. -/
def read : Nat → Reader Shape
  | 0 => fun _ => none
  | k + 1 => expression (read k) k

/-! ### What may follow -/

/-- What may follow a name, a number or a store type. -/
structure Breaks (rest : List Char) : Prop where
  stops : StopsAt isNamePart rest
  /-- No second quote, no column behind a table and no arguments of a call. -/
  head : ∀ c ∈ rest.head?, c ≠ '"' ∧ c ≠ '.' ∧ c ≠ '('
  /-- No further word of a store type. -/
  next : ∀ c cs, rest = ' ' :: c :: cs → isNamePart c = false

/-- What may follow an operand. -/
structure Closes (rest : List Char) : Prop extends Breaks rest where
  noCast : after? "::" rest = none

/-- What may follow an expression. -/
structure Ends (rest : List Char) : Prop extends Closes rest where
  noConnective : connective rest = none

theorem Breaks.stopsAt_isDigit (h : Breaks rest) : StopsAt Char.isDigit rest := by
  intro c hc
  have hpart := h.stops c hc
  rw [isNamePart, Bool.or_eq_false_iff] at hpart
  exact hpart.2

theorem ends_nil : Ends [] where
  stops := by simp [StopsAt]
  head := by simp
  next := by simp
  noCast := rfl
  noConnective := by rfl

/-- The texts that stand behind the expressions within another. -/
def marks : List String := [")", ", ", " WHEN ", " THEN ", " ELSE ", " END"]

theorem ends_mark (mark : String) (h : mark ∈ marks) : Ends (mark.toList ++ rest) := by
  simp only [marks, List.mem_cons, List.not_mem_nil, or_false] at h
  rcases h with rfl | rfl | rfl | rfl | rfl | rfl
  -- The first two characters are enough to rule out whatever would be read on.
  all_goals
    refine { stops := ?_, head := ?_, next := ?_, noCast := ?_, noConnective := ?_ }
    · simp [StopsAt, isNamePart, isNameStart]
    · simp
    · simp [isNamePart, isNameStart]
    · simp [after?, List.isPrefixOf?]
    · simp [connective, connectives, BinaryOp.all, after?, Connective.text, BinaryOp.text,
        List.isPrefixOf?]

theorem ends_bracket : Ends (')' :: rest) := by
  simpa using ends_mark ")" (by decide)

theorem ends_comma : Ends (',' :: ' ' :: rest) := by
  simpa using ends_mark ", " (by decide)

/-- Every connective begins with a blank, and with no word of a store type behind it. -/
theorem closes_connective (c : Connective) (rest : List Char) : Closes (c.text.toList ++ rest) := by
  have hpart : isNamePart ' ' = false := by decide
  have htext : ∃ d cs, c.text.toList = ' ' :: d :: cs ∧ isNamePart d = false := by
    rcases c with op | ignoreCase
    · cases op <;> simp [Connective.text, BinaryOp.text, isNamePart, isNameStart]
    · cases ignoreCase <;> simp [Connective.text, isNamePart, isNameStart]
  obtain ⟨d, cs, hcs, hd⟩ := htext
  rw [hcs]
  exact {
    stops := by simp [StopsAt, hpart]
    head := by simp
    next := by simp [hd]
    noCast := by simp [after?, List.isPrefixOf?] }

/-- A connective is read back: none is the beginning of another. -/
theorem connective_text (c : Connective) : connective (c.text.toList ++ rest) = some (c, rest) := by
  rcases c with op | ignoreCase
  · cases op <;>
      simp [connective, connectives, BinaryOp.all, after?, Connective.text, BinaryOp.text,
        List.isPrefixOf?]
  · cases ignoreCase <;>
      simp [connective, connectives, BinaryOp.all, after?, Connective.text, BinaryOp.text,
        List.isPrefixOf?]

theorem breaks_cast (rest : List Char) : Breaks ("::".toList ++ rest) where
  stops := by simp [StopsAt, isNamePart, isNameStart]
  head := by simp
  next := by simp

/-! ### Lists and clauses are read back -/

/-- A reader finds the shape in the text, and nothing more. -/
def Finds (sub : Reader Shape) (text : String) (s : Shape) : Prop :=
  ∀ rest, Ends rest → sub (text.toList ++ rest) = some (s, rest)

/-- A reader gives back the shape, whether it is written as an expression or as an operand. -/
structure Reads (sub : Reader Shape) (s : Shape) : Prop where
  plain : Finds sub s.text s
  operand : Finds sub (s.asOperand s.text) s

/-- A reader finds no expression at a closing bracket or at the keywords of a `CASE`. -/
def Refuses (sub : Reader Shape) : Prop := ∀ c ∈ [')', 'W', 'E'], ∀ cs, sub (c :: cs) = none

theorem items_reads {ss : List Shape} (h : ∀ s ∈ ss, Finds sub s.text s) (hne : ss ≠ [])
    (hk : ss.length ≤ k) (rest : List Char) :
    items sub k ((String.intercalate ", " (Shape.texts ss)).toList ++ ')' :: rest)
      = some (ss, rest) := by
  induction ss generalizing k with
  | nil => exact absurd rfl hne
  | cons s ss ih =>
    obtain ⟨k, rfl⟩ : ∃ n, k = n + 1 := ⟨k - 1, by simp at hk; omega⟩
    have hs := h s List.mem_cons_self
    cases ss with
    | nil => simp [Shape.texts, items, hs _ ends_bracket, after?, List.isPrefixOf?]
    | cons t ts =>
      have hmore := ih (fun u hu => h u (List.mem_cons_of_mem s hu)) (by simp)
        (Nat.le_of_succ_le_succ hk)
      have htext : (String.intercalate ", " (Shape.texts (s :: t :: ts))).toList ++ ')' :: rest
          = s.text.toList ++ ',' :: ' ' ::
            ((String.intercalate ", " (Shape.texts (t :: ts))).toList ++ ')' :: rest) := by
        simp [Shape.texts]
      -- What the further items look like does not matter, only that they are read.
      rw [htext]
      generalize (String.intercalate ", " (Shape.texts (t :: ts))).toList ++ ')' :: rest = more
        at hmore
      simp [items, hs _ ends_comma, after?, List.isPrefixOf?, hmore]

theorem arguments_reads (hr : Refuses sub) {ss : List Shape}
    (h : ∀ s ∈ ss, Finds sub s.text s) (hk : ss.length ≤ k) (rest : List Char) :
    arguments sub k ((String.intercalate ", " (Shape.texts ss)).toList ++ ')' :: rest)
      = some (ss, rest) := by
  cases ss with
  | nil => simp [Shape.texts, arguments, after?, List.isPrefixOf?]
  | cons s ss =>
    have hitems := items_reads h (by simp) hk rest
    generalize hcs : (String.intercalate ", " (Shape.texts (s :: ss))).toList ++ ')' :: rest = cs
    rw [hcs] at hitems
    -- The list is not over at once: at a closing bracket the first item would not be read.
    have hne : after? ")" cs = none := by
      cases k with
      | zero => simp at hk
      | succ k =>
        cases cs with
        | nil => rfl
        | cons c cs =>
          by_cases hc : c = ')'
          · subst hc
            simp [items, hr ')' (by simp)] at hitems
          · simp [after?, List.isPrefixOf?, Ne.symm hc]
    rw [arguments, hne, hitems]

theorem optional_some (keyword : String) (h : ∀ rest, Ends rest → sub (cs ++ rest) = some (s, rest))
    (hrest : Ends rest) :
    optional keyword sub (keyword.toList ++ cs ++ rest) = some (some s, rest) := by
  rw [optional, List.append_assoc, after?_append, Option.bind_some, h rest hrest]

theorem optional_none (hr : Refuses sub) (keyword : String)
    (h : ∀ cs, after? keyword rest = some cs → ∃ c ∈ [')', 'W', 'E'], cs.head? = some c) :
    optional keyword sub rest = some (none, rest) := by
  have hnone : (after? keyword rest).bind sub = none := by
    cases hcs : after? keyword rest with
    | none => rfl
    | some cs =>
      -- The keyword is there, but what follows it is no expression.
      obtain ⟨c, hc, hhead⟩ := h cs hcs
      obtain ⟨ds, rfl⟩ := List.head?_eq_some_iff.1 hhead
      exact hr c hc ds
  rw [optional, hnone]

theorem clauses_reads {cls : List (Shape × Shape)}
    (h : ∀ c ∈ cls, Finds sub c.1.text c.1 ∧ Finds sub c.2.text c.2) (hk : cls.length ≤ k)
    (hrest : Ends rest) (hw : after? " WHEN " rest = none) :
    clauses sub k ((String.join (Shape.clauseTexts cls)).toList ++ rest) = some (cls, rest) := by
  induction cls generalizing k with
  | nil => cases k <;> simp [Shape.clauseTexts, clauses, hw]
  | cons c cls ih =>
    obtain ⟨k, rfl⟩ : ∃ n, k = n + 1 := ⟨k - 1, by simp at hk; omega⟩
    have hmore := ih (fun d hd => h d (List.mem_cons_of_mem c hd)) (Nat.le_of_succ_le_succ hk)
    obtain ⟨htest, hresult⟩ := h c List.mem_cons_self
    -- Behind the result stand the next clause or what follows the clauses.
    have hend : Ends ((String.join (Shape.clauseTexts cls)).toList ++ rest) := by
      cases cls with
      | nil => simpa [Shape.clauseTexts] using hrest
      | cons d ds =>
        rw [Shape.clauseTexts, String.join_cons, Shape.clauseText, String.append_assoc,
          String.append_assoc, String.append_assoc, String.toList_append, List.append_assoc]
        exact ends_mark " WHEN " (by decide)
    have htext : (String.join (Shape.clauseTexts (c :: cls))).toList ++ rest
        = " WHEN ".toList ++ (c.1.text.toList ++ (" THEN ".toList ++ (c.2.text.toList ++
          ((String.join (Shape.clauseTexts cls)).toList ++ rest)))) := by
      simp only [Shape.clauseTexts, Shape.clauseText, String.join_cons, String.toList_append,
        List.append_assoc]
    rw [htext]
    generalize (String.join (Shape.clauseTexts cls)).toList ++ rest = more at hmore hend
    have hthen : Ends (" THEN ".toList ++ (c.2.text.toList ++ more)) :=
      ends_mark " THEN " (by decide)
    rw [clauses, after?_append]
    simp only [htest _ hthen, after?_append, hresult _ hend, hmore, Option.bind_eq_bind,
      Option.bind_some]

/-! ### Operands are read back -/

theorem named_column (sub : Reader Shape) (k : Nat) (table name : String) (hb : Breaks rest) :
    named sub k ((Shape.columnText table name).toList ++ rest)
      = some (.column table name, rest) := by
  have hq : rest.head? ≠ some '"' := fun h => (hb.head '"' h).1 rfl
  have hname := readIdentifier_identifier name hb.stops hq
  rw [Shape.columnText]
  by_cases ht : table = ""
  · -- Neither a point nor a bracket follows, so the name stands alone.
    rw [if_pos ht, ht, String.empty_append, named, hname]
    cases rest with
    | nil => rfl
    | cons c rest =>
      obtain ⟨-, hdot, hparen⟩ := hb.head c rfl
      simp [hdot, hparen]
  · -- The point ends the name of the table.
    have hstops : StopsAt isNamePart ('.' :: ((identifier name).toList ++ rest)) := by
      simp [StopsAt, isNamePart, isNameStart]
    have htable := readIdentifier_identifier table hstops (by simp)
    have htext : (identifier table ++ "." ++ identifier name).toList ++ rest
        = (identifier table).toList ++ '.' :: ((identifier name).toList ++ rest) := by simp
    rw [if_neg ht, htext, named, htable]
    simp [hname]

theorem named_call (hr : Refuses sub) {ss : List Shape} (h : ∀ s ∈ ss, Finds sub s.text s)
    (hk : ss.length ≤ k) (name : CalleeName) (rest : List Char) :
    named sub k ((Shape.call name ss).text.toList ++ rest) = some (.call name ss, rest) := by
  have hargs := arguments_reads hr h hk rest
  have htext : (Shape.call name ss).text.toList ++ rest = name.text.toList ++
      '(' :: ((String.intercalate ", " (Shape.texts ss)).toList ++ ')' :: rest) := by
    simp [Shape.text, Shape.listText]
  rw [htext]
  generalize (String.intercalate ", " (Shape.texts ss)).toList ++ ')' :: rest = more at hargs
  have hstops : StopsAt isNamePart ('(' :: more) := by
    simp [StopsAt, isNamePart, isNameStart]
  rw [named, readIdentifier_lowerName name.plain hstops]
  simp [name.plain, hargs]

theorem bracketed_reads (h : Finds sub s.text s) (hk : 0 < k) (rest : List Char) :
    bracketed sub k (s.text.toList ++ ')' :: rest) = some (s, rest) := by
  have hs : ∀ t ∈ [s], Finds sub t.text t := by simpa using h
  have hitems := items_reads hs (by simp) hk rest
  simp only [Shape.texts, String.intercalate_singleton] at hitems
  rw [bracketed, hitems]
  rfl

theorem bracketed_row {first second : Shape} {ss : List Shape}
    (h : ∀ s ∈ first :: second :: ss, Finds sub s.text s) (hk : ss.length + 2 ≤ k)
    (rest : List Char) :
    bracketed sub k ((String.intercalate ", " (Shape.texts (first :: second :: ss))).toList ++
      ')' :: rest) = some (.row first second ss, rest) := by
  rw [bracketed, items_reads h (by simp) hk rest]
  rfl

theorem keyword_coalesce {lhs rhs : Shape} (h : ∀ s ∈ [lhs, rhs], Finds sub s.text s)
    (hk : 2 ≤ k) (rest : List Char) :
    keyword sub k ((Shape.binary .coalesce lhs rhs).text.toList ++ rest)
      = some (.binary .coalesce lhs rhs, rest) := by
  have hitems := items_reads h (by simp) hk rest
  have hnull : ∀ more, after? "NULL" ("COALESCE(".toList ++ more) = none := by
    simp [after?, List.isPrefixOf?]
  have hcase : ∀ more, after? "CASE" ("COALESCE(".toList ++ more) = none := by
    simp [after?, List.isPrefixOf?]
  have htext : (Shape.binary .coalesce lhs rhs).text.toList ++ rest = "COALESCE(".toList ++
      ((String.intercalate ", " (Shape.texts [lhs, rhs])).toList ++ ')' :: rest) := by
    simp [Shape.text, Shape.binaryText, Shape.listText, Shape.texts]
  rw [htext]
  simp only [keyword, hnull, hcase, after?_append, Option.bind_some, hitems]
  rfl

/-- The end of a `CASE` from its last branch on. -/
def elseTail (e : Option Shape) (rest : List Char) : List Char :=
  (Rendered.optionalText " ELSE " (Shape.optionText e)).toList ++ (" END".toList ++ rest)

/-- The end of a `CASE` from its first clause on. -/
def whenTail (cls : List (Shape × Shape)) (e : Option Shape) (rest : List Char) : List Char :=
  (String.join (Shape.clauseTexts cls)).toList ++ elseTail e rest

variable {o e : Option Shape} {cls : List (Shape × Shape)}

theorem exists_mark_elseTail (e : Option Shape) (rest : List Char) :
    ∃ mark ∈ [" ELSE ", " END"], ∃ more, elseTail e rest = mark.toList ++ more := by
  cases e with
  | none =>
    refine ⟨" END", by simp, rest, ?_⟩
    simp [elseTail, Shape.optionText, Rendered.optionalText]
  | some s =>
    refine ⟨" ELSE ", by simp, s.text.toList ++ (" END".toList ++ rest), ?_⟩
    simp [elseTail, Shape.optionText, Rendered.optionalText]

theorem exists_mark_whenTail (cls : List (Shape × Shape)) (e : Option Shape) (rest : List Char) :
    ∃ mark ∈ [" WHEN ", " ELSE ", " END"], ∃ more, whenTail cls e rest = mark.toList ++ more := by
  cases cls with
  | nil =>
    obtain ⟨mark, hm, more, hmore⟩ := exists_mark_elseTail e rest
    exact ⟨mark, List.mem_cons_of_mem _ hm, more, by simp [whenTail, Shape.clauseTexts, hmore]⟩
  | cons c cls =>
    refine ⟨" WHEN ", List.mem_cons_self, c.1.text.toList ++ (" THEN ".toList ++
      (c.2.text.toList ++ whenTail cls e rest)), ?_⟩
    simp only [whenTail, Shape.clauseTexts, Shape.clauseText, String.join_cons,
      String.toList_append, List.append_assoc]

theorem mem_marks_of_mem {mark : String} (h : mark ∈ [" WHEN ", " ELSE ", " END"]) :
    mark ∈ marks := by
  simp only [List.mem_cons, List.not_mem_nil, or_false] at h
  rcases h with rfl | rfl | rfl <;> decide

/-- The operand of a `CASE` is read back, and where there is none, none is found. -/
theorem optional_operand (hr : Refuses sub) (h : ∀ s ∈ o, Reads sub s)
    (cls : List (Shape × Shape)) (e : Option Shape) (rest : List Char) :
    optional " " sub ((Rendered.optionalText " " (Shape.operandText o)).toList ++
      whenTail cls e rest) = some (o, whenTail cls e rest) := by
  obtain ⟨mark, hm, more, hmore⟩ := exists_mark_whenTail cls e rest
  rw [hmore]
  cases o with
  | none =>
    -- The blank of the next keyword is taken for that of an operand, but then none is found.
    have hnone : (Rendered.optionalText " " (Shape.operandText none)).toList = [] := by
      simp [Rendered.optionalText, Shape.operandText]
    simp only [List.mem_cons, List.not_mem_nil, or_false] at hm
    rw [hnone, List.nil_append]
    refine optional_none hr " " fun cs hcs => ?_
    rcases hm with rfl | rfl | rfl <;>
      simp [after?, List.isPrefixOf?] at hcs <;> simp [← hcs]
  | some s =>
    have hread := (h s rfl).operand
    simp only [Shape.operandText, Rendered.optionalText, Option.map_some, Option.getD_some,
      String.append_empty, String.toList_append]
    exact optional_some " " hread (ends_mark mark (mem_marks_of_mem hm))

theorem optional_otherwise (h : ∀ s ∈ e, Reads sub s) (rest : List Char) :
    optional " ELSE " sub (elseTail e rest) = some (e, " END".toList ++ rest) := by
  rw [elseTail]
  cases e with
  | none =>
    have hafter : after? " ELSE " (" END".toList ++ rest) = none := by
      simp [after?, List.isPrefixOf?]
    simp only [optional, Shape.optionText, Rendered.optionalText, Option.map_none,
      Option.getD_none, String.toList_empty, List.nil_append, hafter, Option.bind_none]
  | some s =>
    simp only [Shape.optionText, Rendered.optionalText, Option.map_some, Option.getD_some,
      String.append_empty, String.toList_append]
    exact optional_some " ELSE " (h s rfl).plain (ends_mark " END" (by decide))

theorem keyword_case (hr : Refuses sub) (h : ∀ p ∈ (Shape.case o cls e).parts, Reads sub p)
    (hk : cls.length ≤ k) (rest : List Char) :
    keyword sub k ((Shape.case o cls e).text.toList ++ rest) = some (.case o cls e, rest) := by
  simp only [Shape.parts, List.mem_append, Option.mem_toList, List.mem_flatMap] at h
  have htext : (Shape.case o cls e).text.toList ++ rest = "CASE".toList ++
      ((Rendered.optionalText " " (Shape.operandText o)).toList ++ whenTail cls e rest) := by
    simp only [Shape.text, Shape.caseText, whenTail, elseTail, String.toList_append,
      List.append_assoc]
  -- Each part of the body is read up to the keyword that opens the next one.
  have hoperand := optional_operand hr (fun s hs => h s (.inl (.inl hs))) cls e rest
  have hclauses : clauses sub k (whenTail cls e rest) = some (cls, elseTail e rest) := by
    obtain ⟨mark, hm, more, hmore⟩ := exists_mark_elseTail e rest
    rw [whenTail, hmore]
    refine clauses_reads (fun c hc => ?_) hk ?_ ?_
    · exact ⟨(h c.1 (.inl (.inr ⟨c, hc, by simp⟩))).plain,
        (h c.2 (.inl (.inr ⟨c, hc, by simp⟩))).plain⟩
    · exact ends_mark mark (mem_marks_of_mem (List.mem_cons_of_mem _ hm))
    · simp only [List.mem_cons, List.not_mem_nil, or_false] at hm
      rcases hm with rfl | rfl <;> simp [after?, List.isPrefixOf?]
  have hotherwise := optional_otherwise (fun s hs => h s (.inr hs)) rest
  have hnull : ∀ more, after? "NULL" ("CASE".toList ++ more) = none := by
    simp [after?, List.isPrefixOf?]
  rw [htext]
  simp only [keyword, hnull, after?_append, caseBody, hoperand, hclauses, hotherwise,
    Option.bind_eq_bind, Option.bind_some]

end PgFragment.Reading
