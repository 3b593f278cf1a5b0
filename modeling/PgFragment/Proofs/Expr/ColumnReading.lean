import Mathlib.Data.String.Basic
import PgFragment.Expr.Render
import PgFragment.Proofs.Text.Runs

namespace PgFragment

/-!
# Reading column references back

A column is written as its name, behind the name of its table and a dot if it has one.  A reader of
SQL names gets them back, whatever characters they hold: a name that could be taken for something
else, such as a reserved word or a name with a dot, stands between quotes.

* `Text.bisects_iff_mem` — in a sorted table, halving finds what is there.
* `Text.reservedWords_pairwise` — the table of reserved words is sorted.
* `Text.readName_identifier` — a name is read back.
* `Expr.readReference_render_column` — so is a column reference.
-/

namespace Text

/-! ### Looking words up -/

section Bisection

variable {α : Type} [LinearOrder α] {table : List α} {x : α}

/-- Looks an element up by halving: the one in the middle tells in which half to go on. -/
def bisects (x : α) (table : List α) : Bool :=
  match h : table.drop (table.length / 2) with
  | [] => false
  | middle :: above =>
    if x = middle then true
    else if x < middle then bisects x (table.take (table.length / 2))
    else bisects x above
termination_by table.length
decreasing_by
  all_goals
    have hlength := congrArg List.length h
    rw [List.length_drop, List.length_cons] at hlength
  · rw [List.length_take]
    omega
  · omega

/-- What is below the middle of a sorted table is in the lower half, if anywhere. -/
theorem mem_iff_mem_below {below above : List α} {middle : α}
    (htable : below ++ middle :: above = table) (h : table.Pairwise (· < ·)) (hlt : x < middle) :
    x ∈ table ↔ x ∈ below := by
  subst htable
  have hmiddle := (List.pairwise_append.1 h).2.1
  have habove : x ∉ above := fun hx => lt_asymm hlt ((List.pairwise_cons.1 hmiddle).1 x hx)
  simp [hlt.ne, habove]

/-- What is neither below the middle nor in it is in the upper half, if anywhere. -/
theorem mem_iff_mem_above {below above : List α} {middle : α}
    (htable : below ++ middle :: above = table) (h : table.Pairwise (· < ·)) (hne : x ≠ middle)
    (hlt : ¬x < middle) : x ∈ table ↔ x ∈ above := by
  subst htable
  have hsplit := (List.pairwise_append.1 h).2.2
  have hbelow : x ∉ below := fun hx => hlt (hsplit x hx middle List.mem_cons_self)
  simp [hne, hbelow]

/-- **Halving a sorted table finds what is in it**, and nothing else. -/
theorem bisects_iff_mem (h : table.Pairwise (· < ·)) : bisects x table = true ↔ x ∈ table := by
  fun_induction bisects x table with
  | case1 table hdrop =>
    -- Half of a table is empty only when the table is.
    have hlength := List.drop_eq_nil_iff.1 hdrop
    obtain rfl : table = [] := List.eq_nil_of_length_eq_zero (by omega)
    simp
  | case2 table above hdrop =>
    have hmem : x ∈ table.drop (table.length / 2) := hdrop ▸ List.mem_cons_self
    exact iff_of_true rfl (List.mem_of_mem_drop hmem)
  | case3 table middle above hdrop hne hlt ih =>
    have htable := List.take_append_drop (table.length / 2) table
    rw [hdrop] at htable
    have hbelow := h.sublist (List.take_sublist (table.length / 2) table)
    exact (ih hbelow).trans (mem_iff_mem_below htable h hlt).symm
  | case4 table middle above hdrop hne hlt ih =>
    have htable := List.take_append_drop (table.length / 2) table
    have hupper := h.sublist (List.drop_sublist (table.length / 2) table)
    rw [hdrop] at htable hupper
    exact (ih hupper.of_cons).trans (mem_iff_mem_above htable h hne hlt).symm

end Bisection

/-- The reserved words are in order, each before the next. -/
theorem reservedWords_pairwise : reservedWords.Pairwise (· < ·) := by
  have hchain : reservedWords.IsChain (· < ·) := by decide +kernel
  exact hchain.pairwise

/-- The reserved words may be looked up by halving. -/
theorem isPlainName_eq (name : String) :
    isPlainName name = (isLowerName name && !bisects name reservedWords) := by
  have hfound : reservedWords.contains name = bisects name reservedWords := by
    rw [Bool.eq_iff_iff, List.contains_iff_mem, bisects_iff_mem reservedWords_pairwise]
  rw [isPlainName, hfound]

/-! ### Reading names -/

variable {rest : List Char}

/-- Reads a name as SQL takes it: quoted text, or the longest bare name, which must be no reserved
word. -/
def readName (cs : List Char) : Option (String × List Char) := do
  let (name, rest) ← readIdentifier cs
  if cs.head? ≠ some '"' ∧ name ∈ reservedWords then none else some (name, rest)

/-- Reads one name, or two with a dot between them, up to the end of the text. -/
def readReference (cs : List Char) : Option (List String) := do
  let (first, rest) ← readName cs
  match rest with
  | [] => some [first]
  | c :: rest =>
    let (second, rest) ← readName rest
    if c = '.' ∧ rest.isEmpty then some [first, second] else none

/-- What stands bare is no reserved word. -/
theorem head?_identifier_or (name : String) :
    (identifier name).toList.head? = some '"' ∨ name ∉ reservedWords := by
  unfold identifier
  split
  · next h =>
    rw [isPlainName, Bool.and_eq_true, Bool.not_eq_true', List.contains_eq_mem,
      decide_eq_false_iff_not] at h
    exact .inr h.2
  · left
    rw [quotedString, String.toList_ofList, quoted, List.head?_cons]

/-- **A name is read back**, unless a quote or more of a name follows. -/
theorem readName_identifier (name : String) (hr : StopsAt isNamePart rest)
    (hq : rest.head? ≠ some '"') :
    readName ((identifier name).toList ++ rest) = some (name, rest) := by
  have hbare : ¬(((identifier name).toList ++ rest).head? ≠ some '"' ∧ name ∈ reservedWords) := by
    rintro ⟨hhead, hmem⟩
    rcases head?_identifier_or name with hquote | hnot
    · exact hhead (by rw [List.head?_append, hquote, Option.some_or])
    · exact hnot hmem
  rw [readName, readIdentifier_identifier name hr hq]
  exact if_neg hbare

theorem readName_identifier_nil (name : String) :
    readName (identifier name).toList = some (name, []) := by
  have hread : readName ((identifier name).toList ++ []) = some (name, []) :=
    readName_identifier name nofun nofun
  rwa [List.append_nil] at hread

theorem readReference_identifier (name : String) :
    readReference (identifier name).toList = some [name] := by
  rw [readReference, readName_identifier_nil]
  rfl

/-- The dot ends the first name, bare or quoted, whatever dots the names hold. -/
theorem readReference_dotted (table name : String) :
    readReference ((identifier table).toList ++ '.' :: (identifier name).toList)
      = some [table, name] := by
  have hdot : StopsAt isNamePart ('.' :: (identifier name).toList) := by
    rintro c ⟨⟩
    decide
  rw [readReference, readName_identifier table hdot nofun]
  show (readName (identifier name).toList >>= fun (second, rest) =>
    if '.' = '.' ∧ rest.isEmpty then some [table, second] else none) = some [table, name]
  rw [readName_identifier_nil]
  rfl

end Text

namespace Expr

open Text

/-- **A column reference is read back**: its name alone where it has no table, and else the names of
the table and of the column.  Reserved words, which keep a name from standing bare, may be looked up
by halving their table. -/
theorem readReference_render_column (col : Column) (flavor : Flavor) :
    (∃ text, (Expr.column col).render flavor = .ok text ∧
      readReference text.toList =
        some (if col.table = "" then [col.name] else [col.table, col.name])) ∧
      ∀ name, isPlainName name = (isLowerName name && !bisects name reservedWords) := by
  refine ⟨⟨columnText col, by rw [render], ?_⟩, isPlainName_eq⟩
  unfold columnText
  split
  · rw [String.empty_append, readReference_identifier]
  · have hdotted := readReference_dotted col.table col.name
    simpa using hdotted

example :
    columnText { table := "user", name := "a.\"b", type := .string } = "\"user\".\"a.\"\"b\"" := by
  decide +kernel

end Expr

end PgFragment
