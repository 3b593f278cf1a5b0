import Mathlib.Data.List.Forall2
import PgFragment.Proofs.Expr.Rendered

namespace PgFragment

/-!
# The shape of an expression

What a reader of SQL can make out of a fragment: the nodes, their operators, names, numbers and
store types, without host types, mappings of other nodes, nullability and integer widths.

* `Expr.HasShape` — the shape of an expression built from columns, integers, nulls, operators,
  `NOT`, `LIKE`, `CASE`, rows, calls and casts; other expressions have none.
* `Shape.text` — a shape as SQL writes it, which is the text of every expression of the shape
  (`Expr.HasShape.render_eq`).
-/

open Text

/-! ### Names and store types -/

/-- The name of a function that is written as it stands. -/
structure CalleeName where
  text : String
  plain : isLowerName text = true

/-- Words of lower-case letters, digits and underscores, with single spaces between them. -/
def isTypeName (s : String) : Bool :=
  (s.toList.splitOn ' ').all fun word => !word.isEmpty && word.all isNamePart

/-- The name of a store type that a cast ends in. -/
structure TypeName where
  text : String
  words : isTypeName text = true

/-! ### Shapes -/

/-- The shape of an expression. -/
inductive Shape where
  | column (table name : String)
  | number (n : Int)
  | null
  | binary (op : BinaryOp) (lhs rhs : Shape)
  | not (operand : Shape)
  | like (ignoreCase : Bool) (subject pattern : Shape)
  | case (operand : Option Shape) (clauses : List (Shape × Shape)) (otherwise : Option Shape)
  | row (first second : Shape) (rest : List Shape)
  | call (name : CalleeName) (args : List Shape)
  | cast (operand : Shape) (type : TypeName)

namespace Shape

/-- The immediate parts of a shape. -/
def parts : Shape → List Shape
  | .column .. | .number _ | .null => []
  | .binary _ lhs rhs => [lhs, rhs]
  | .not operand => [operand]
  | .like _ subject pattern => [subject, pattern]
  | .case operand clauses otherwise =>
    operand.toList ++ clauses.flatMap (fun c => [c.1, c.2]) ++ otherwise.toList
  | .row first second rest => first :: second :: rest
  | .call _ args => args
  | .cast operand _ => [operand]

/-- The shapes that stand in brackets as an operand. -/
def isBracketed : Shape → Bool
  | .binary op .. => op != .coalesce
  | .not _ | .like .. => true
  | .number n => n < 0
  | _ => false

/-- The text of a shape as an operand. -/
def asOperand (s : Shape) (text : String) : String :=
  if s.isBracketed then "(" ++ text ++ ")" else text

/-- Texts between commas, in brackets. -/
def listText (texts : List String) : String := "(" ++ String.intercalate ", " texts ++ ")"

/-- The text of a column. -/
def columnText (table name : String) : String :=
  (if table = "" then "" else identifier table ++ ".") ++ identifier name

/-- The text of an operator between two operands, or of a function. -/
def binaryText (op : BinaryOp) (lhs rhs : Shape) (l r : String) : String :=
  if op = .coalesce then "COALESCE" ++ listText [l, r]
  else lhs.asOperand l ++ " " ++ op.text ++ " " ++ rhs.asOperand r

/-- The text of a clause. -/
def clauseText (test result : String) : String := " WHEN " ++ test ++ " THEN " ++ result

/-- The text of a `CASE`; the operand comes in brackets if it needs them. -/
def caseText (operand : Option String) (clauses : List String) (otherwise : Option String) :
    String :=
  "CASE" ++ Rendered.optionalText " " operand ++ String.join clauses ++
    Rendered.optionalText " ELSE " otherwise ++ " END"

mutual

/-- A shape as SQL writes it. -/
def text : Shape → String
  | .column table name => columnText table name
  | .number n => signedDecimal n
  | .null => "NULL"
  | .binary op lhs rhs => binaryText op lhs rhs (text lhs) (text rhs)
  | .not operand => "NOT " ++ operand.asOperand (text operand)
  | .like ignoreCase subject pattern =>
    subject.asOperand (text subject) ++ (if ignoreCase then " ILIKE " else " LIKE ") ++
      pattern.asOperand (text pattern)
  | .case operand clauses otherwise =>
    caseText (operandText operand) (clauseTexts clauses) (optionText otherwise)
  | .row first second rest => listText (text first :: text second :: texts rest)
  | .call name args => name.text ++ listText (texts args)
  | .cast operand type => operand.asOperand (text operand) ++ "::" ++ type.text

/-- The text of each shape. -/
def texts : List Shape → List String
  | [] => []
  | s :: rest => text s :: texts rest

/-- The text of a shape that may be absent. -/
def optionText : Option Shape → Option String
  | none => none
  | some s => some (text s)

/-- The text of an operand that may be absent. -/
def operandText : Option Shape → Option String
  | none => none
  | some s => some (s.asOperand (text s))

/-- The text of each clause. -/
def clauseTexts : List (Shape × Shape) → List String
  | [] => []
  | (test, result) :: rest => clauseText (text test) (text result) :: clauseTexts rest

end

theorem texts_eq_map (ss : List Shape) : texts ss = ss.map text := by
  induction ss with
  | nil => rfl
  | cons s ss ih => simp [texts, ih]

theorem clauseTexts_eq_map (clauses : List (Shape × Shape)) :
    clauseTexts clauses = clauses.map fun c => clauseText c.1.text c.2.text := by
  induction clauses with
  | nil => rfl
  | cons c clauses ih => simp [clauseTexts, ih]

theorem sizeOf_lt_of_mem_parts {p s : Shape} (h : p ∈ s.parts) : sizeOf p < sizeOf s := by
  cases s with
  | case operand clauses otherwise =>
    simp only [parts, List.mem_append, Option.mem_toList, List.mem_flatMap] at h
    rcases h with (rfl | ⟨c, hc, hp⟩) | rfl
    · simp only [case.sizeOf_spec, Option.some.sizeOf_spec]; omega
    · have := List.sizeOf_lt_of_mem hc
      have hs : sizeOf c = 1 + sizeOf c.1 + sizeOf c.2 := rfl
      simp only [List.mem_cons, List.not_mem_nil, or_false] at hp
      simp only [case.sizeOf_spec]
      rcases hp with rfl | rfl <;> omega
    · simp only [case.sizeOf_spec, Option.some.sizeOf_spec]; omega
  | row first second rest =>
    simp only [parts, List.mem_cons] at h
    simp only [row.sizeOf_spec]
    rcases h with rfl | rfl | h
    · omega
    · omega
    · have := List.sizeOf_lt_of_mem h
      omega
  | call name args =>
    have := List.sizeOf_lt_of_mem h
    simp only [call.sizeOf_spec, parts] at *; omega
  | binary op lhs rhs =>
    simp only [parts, List.mem_cons, List.not_mem_nil, or_false] at h
    rcases h with rfl | rfl <;> simp only [binary.sizeOf_spec] <;> omega
  | like ignoreCase subject pattern =>
    simp only [parts, List.mem_cons, List.not_mem_nil, or_false] at h
    rcases h with rfl | rfl <;> simp only [like.sizeOf_spec] <;> omega
  | not operand =>
    obtain rfl := List.mem_singleton.1 h
    simp only [not.sizeOf_spec]; omega
  | cast operand type =>
    obtain rfl := List.mem_singleton.1 h
    simp only [cast.sizeOf_spec]; omega
  | column _ _ | number _ | null => simp [parts] at h

theorem sizeOf_pos (s : Shape) : 0 < sizeOf s := by
  cases s <;> simp only [column.sizeOf_spec, number.sizeOf_spec, null.sizeOf_spec,
    binary.sizeOf_spec, not.sizeOf_spec, like.sizeOf_spec, case.sizeOf_spec, row.sizeOf_spec,
    call.sizeOf_spec, cast.sizeOf_spec] <;> omega

theorem length_lt_sizeOf {α : Type} [SizeOf α] (xs : List α) : xs.length < sizeOf xs := by
  induction xs with
  | nil => simp
  | cons x xs ih =>
    rw [List.length_cons, List.cons.sizeOf_spec]
    omega

end Shape

namespace Expr

/-- The rules by which an expression has a shape. -/
inductive HasShape : Expr → Shape → Prop
  | column (col : Column) : HasShape (.column col) (.column col.table col.name)
  | number (n : FixedInt) {mapping : Mapping} (hk : mapping.kind = .scalar .integer) :
      HasShape (.constant (.int n) (some mapping)) (.number n.val)
  | null : HasShape (.constant .null none) .null
  | binary (op : BinaryOp) {lhs rhs : Expr} {l r : Shape} (mapping : Option Mapping)
      (hl : HasShape lhs l) (hr : HasShape rhs r) :
      HasShape (.binary op lhs rhs mapping) (.binary op l r)
  | not {operand : Expr} {s : Shape} (mapping : Option Mapping) (h : HasShape operand s) :
      HasShape (.not operand mapping) (.not s)
  | like {subject pattern : Expr} {s p : Shape} (ignoreCase : Bool) (mapping : Option Mapping)
      (hs : HasShape subject s) (hp : HasShape pattern p) :
      HasShape (.like subject pattern none ignoreCase mapping) (.like ignoreCase s p)
  | case {operand otherwise : Option Expr} {whens : List (Expr × Expr)} {o e : Option Shape}
      {clauses : List (Shape × Shape)} (mapping : Option Mapping)
      (ho : Option.Rel HasShape operand o)
      (htests : List.Forall₂ (fun w c => HasShape w.1 c.1) whens clauses)
      (hresults : List.Forall₂ (fun w c => HasShape w.2 c.2) whens clauses)
      (he : Option.Rel HasShape otherwise e) :
      HasShape (.case operand whens otherwise mapping) (.case o clauses e)
  | row {values : List Expr} {first second : Shape} {rest : List Shape}
      (h : List.Forall₂ HasShape values (first :: second :: rest)) :
      HasShape (.row values) (.row first second rest)
  | call {callee : Callee} {args : List Expr} {ss : List Shape}
      (hn : isLowerName callee.name = true) (h : List.Forall₂ HasShape args ss) :
      HasShape (.func callee args) (.call ⟨callee.name, hn⟩ ss)
  | cast {operand : Expr} {s : Shape} {type : HostType} {mapping : Mapping}
      (ht : isTypeName mapping.storeType = true) (h : HasShape operand s) :
      HasShape (.cast operand type (some mapping)) (.cast s ⟨mapping.storeType, ht⟩)

variable {e : Expr} {s : Shape}

/-! ### The text of an expression that has a shape -/

/-- A negative number begins with its sign, and no other number does. -/
theorem head?_signedDecimal (n : Int) :
    ((signedDecimal n).toList.head? == some '-') = decide (n < 0) := by
  unfold signedDecimal
  split
  · next h => simp [h]
  · next h =>
    have hdigit : ∀ c ∈ decimal n.natAbs, c ≠ '-' := by
      rintro c hc rfl
      exact absurd (Nat.isDigit_of_mem_toDigits (by decide) (by decide) hc) (by decide)
    have hhead : (decimal n.natAbs).head? ≠ some '-' :=
      fun hc => hdigit '-' (List.mem_of_head? hc) rfl
    simp [decimalString, hhead, h]

/-- An operand is bracketed as its shape is. -/
theorem HasShape.asOperand_eq (h : HasShape e s) : e.asOperand s.text = s.asOperand s.text := by
  -- Brackets go by the kind of a node, except that a constant's go by the sign it is written with.
  have key : (e.isOperator || (e.node == .constant && s.text.toList.head? == some '-'))
      = s.isBracketed := by
    cases h with
    | number n hk => exact head?_signedDecimal _
    | binary op mapping hl hr => simp [isOperator, Shape.isBracketed, node]
    | null => simp [isOperator, Shape.isBracketed, Shape.text]
    | _ => rfl
  rw [asOperand, Shape.asOperand, key]

/-- Expressions that are written as their shapes, one by one. -/
theorem map_render_eq {es : List Expr} {ss : List Shape} (h : List.Forall₂ HasShape es ss)
    (ih : ∀ e ∈ es, ∀ {s}, HasShape e s → e.render .postgresql = .ok s.text) :
    es.map (render .postgresql) = (Shape.texts ss).map .ok := by
  rw [Shape.texts_eq_map]
  induction h with
  | nil => rfl
  | @cons e s es ss hs _ ihs =>
    have hhead := ih e List.mem_cons_self hs
    have htail := ihs fun e he => ih e (List.mem_cons_of_mem _ he)
    rw [List.map_cons, List.map_cons, List.map_cons, hhead, htail]

/-- Clauses that are written as their shapes, one by one. -/
theorem map_clause_eq {whens : List (Expr × Expr)} {clauses : List (Shape × Shape)}
    (ht : List.Forall₂ (fun w c => HasShape w.1 c.1) whens clauses)
    (hr : List.Forall₂ (fun w c => HasShape w.2 c.2) whens clauses)
    (ih : ∀ w ∈ whens, ∀ e ∈ [w.1, w.2], ∀ {s}, HasShape e s →
      e.render .postgresql = .ok s.text) :
    (whens.map fun w => Rendered.clause (w.1.render .postgresql) (w.2.render .postgresql))
      = (Shape.clauseTexts clauses).map .ok := by
  rw [Shape.clauseTexts_eq_map]
  induction ht with
  | nil => rfl
  | @cons w c whens clauses htest _ ihs =>
    cases hr with
    | cons hresult hr =>
      have htail := ihs hr fun w hw => ih w (List.mem_cons_of_mem _ hw)
      have htest := ih w List.mem_cons_self w.1 (by simp) htest
      have hresult := ih w List.mem_cons_self w.2 (by simp) hresult
      have hhead := Rendered.clause_eq_ok_iff.2 ⟨_, _, htest, hresult, rfl⟩
      rw [List.map_cons, List.map_cons, List.map_cons, hhead, htail, Shape.clauseText]

theorem literal_integer {mapping : Mapping} (n : FixedInt) (hk : mapping.kind = .scalar .integer) :
    mapping.literal (.int n) = .ok (signedDecimal n.val) :=
  Mapping.literal_of_kind hk rfl rfl

/-- **An expression is written as its shape.** -/
theorem HasShape.render_eq (h : HasShape e s) : e.render .postgresql = .ok s.text := by
  induction e using induction_on_parts generalizing s with
  | step e ih =>
    -- A part as an operand: its text, in brackets if its shape needs them.
    have hop : ∀ p ∈ e.parts, ∀ t, HasShape p t →
        p.asOperand <$> p.render .postgresql = .ok (t.asOperand t.text) := by
      intro p hp t ht
      exact Success.map_eq_ok_iff.2 ⟨_, ih p hp ht, ht.asOperand_eq⟩
    cases h with
    | column col => rw [render, Expr.columnText, Shape.text, Shape.columnText]
    | @number n mapping hk => rw [render, constantText, literal_integer n hk, Shape.text]
    | null => rfl
    | @binary op lhs rhs l r mapping hl hr =>
      -- `COALESCE` is written as a call, the other operators between their operands.
      rw [render, Shape.text, Shape.binaryText]
      split
      · have hargs := map_render_eq (.cons hl (.cons hr .nil)) ih
        refine Rendered.call_eq_ok_iff.2 ⟨_, hargs, ?_⟩
        rw [Shape.listText, Shape.texts, Shape.texts, Shape.texts, String.append_assoc,
          String.append_assoc, String.append_assoc]
      · refine Rendered.joined_eq_ok_iff.2
          ⟨_, _, hop lhs (by simp [parts]) l hl, hop rhs (by simp [parts]) r hr, ?_⟩
        simp only [String.append_assoc]
    | @not operand s mapping h =>
      rw [render, Shape.text]
      exact Success.map_eq_ok_iff.2 ⟨_, hop operand (by simp [parts]) s h, rfl⟩
    | @like subject pattern s p ignoreCase mapping hs hp =>
      rw [render, Shape.text]
      refine Success.bind_eq_ok_iff.2 ⟨_, Rendered.joined_eq_ok_iff.2
        ⟨_, _, hop subject (by simp [parts]) s hs, hop pattern (by simp [parts]) p hp, rfl⟩, ?_⟩
      exact Success.bind_eq_ok_iff.2 ⟨"", rfl, by rw [String.append_empty]⟩
    | @case operand otherwise whens o e clauses mapping ho ht hr he =>
      -- Operand, clauses and last branch are written apart; the text puts them together.
      rw [render, renderOperand_eq_map, renderClauses_eq_map, renderOption_eq_map]
      have hclauses := map_clause_eq ht hr fun w hw e he =>
        ih e (List.mem_append_left _ (List.mem_append_right _ (List.mem_flatMap.2 ⟨w, hw, he⟩)))
      have hoperand : operand.map (fun e => e.asOperand <$> e.render .postgresql)
          = (Shape.operandText o).map .ok := by
        cases ho with
        | none => rfl
        | some ho => exact congrArg some (hop _ (by simp [parts]) _ ho)
      have hotherwise : otherwise.map (render .postgresql) = (Shape.optionText e).map .ok := by
        cases he with
        | none => rfl
        | some he => exact congrArg some (ih _ (by simp [parts]) he)
      rw [Shape.text]
      exact Rendered.case_eq_ok_iff.2 ⟨_, _, _, hoperand, hclauses, hotherwise, rfl⟩
    | @row values first second rest h =>
      rw [render, renderEach_eq_map, Shape.text]
      exact Rendered.call_eq_ok_iff.2 ⟨_, map_render_eq h ih, by simp [Shape.listText, Shape.texts]⟩
    | @call callee args ss hn h =>
      rw [render, renderEach_eq_map, Shape.text]
      refine Rendered.call_eq_ok_iff.2 ⟨_, map_render_eq h ih, ?_⟩
      simp only [Shape.listText, String.append_assoc]
    | @cast operand s type mapping ht h =>
      rw [render, Shape.text]
      exact Success.map_eq_ok_iff.2 ⟨_, hop operand (by simp [parts]) s h, rfl⟩

end Expr

end PgFragment
