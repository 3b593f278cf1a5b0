import PgFragment.Proofs.Rule.FoldedRows

namespace PgFragment

/-!
# What joined strings come to

The host joins the strings of the rows that pass a filter, and takes null for the empty string.  The
database's aggregate skips nulls and is null over no rows.  Both differences are made up for by a
`COALESCE`, inside the aggregate and around it, and the filter may be written or folded.

* `Expr.evaluate` — the value of an expression in a row, as far as constants, `COALESCE` and `CASE`
  decide it.
* `Row.ofGroup` — a group of rows as one row, whose strings can be joined.
* `stringAgg_folded` — joining over folded rows is joining over the rows that pass.
* `Registry.evaluate_stringJoin` — what a lowered join comes to, in both dialects.
-/

/-! ### Values in a row -/

namespace Expr

mutual

/-- The value of an expression in a row: a constant is its own value, `COALESCE` gives the first
operand that is not null, a `CASE` without an operand the result of the first clause whose test is
true, and the row gives the value of everything else, however it is stored. -/
def evaluate (row : Row) : Expr → Value
  | .constant value _ => value
  | .binary .coalesce lhs rhs _ =>
    if (evaluate row lhs).isNull then evaluate row rhs else evaluate row lhs
  | .case none whens otherwise _ => evaluateClauses row (evaluateOption row otherwise) whens
  | e => row (e.withMapping none)

/-- The result of the first clause whose test is true; a null test is not. -/
def evaluateClauses (row : Row) (fallback : Value) : List (Expr × Expr) → Value
  | [] => fallback
  | (test, result) :: rest =>
    if (evaluate row test).asBool? = some true then evaluate row result
    else evaluateClauses row fallback rest

/-- The value of an expression that may be absent, which is then null. -/
def evaluateOption (row : Row) : Option Expr → Value
  | none => .null
  | some e => evaluate row e

end

/-- The test is true in the row, not false and not null. -/
def Accepts (test : Expr) (row : Row) : Prop := (test.evaluate row).asBool? = some true

instance (test : Expr) : DecidablePred test.Accepts :=
  fun row => inferInstanceAs (Decidable ((test.evaluate row).asBool? = some true))

variable (row : Row) (catalog : Catalog)

/-- A value does not depend on how it is stored. -/
theorem evaluate_withMapping (mapping : Option Mapping) (e : Expr) :
    (e.withMapping mapping).evaluate row = e.evaluate row := by
  cases e with
  | binary op lhs rhs m => cases op <;> simp only [withMapping, evaluate]
  | case operand whens otherwise m => cases operand <;> simp only [withMapping, evaluate]
  | _ => simp only [withMapping, evaluate]

theorem evaluate_applyDefault (e : Expr) :
    (catalog.applyDefault e).evaluate row = e.evaluate row :=
  catalog.applyDefault_of_withMapping (evaluate_withMapping row) e

theorem evaluate_applyMapping (proposed : Option Mapping) (e : Expr) :
    (catalog.applyMapping proposed e).evaluate row = e.evaluate row :=
  catalog.applyMapping_of_withMapping (evaluate_withMapping row) proposed e

/-- The first of two values that is not null, mappings apart. -/
theorem evaluate_coalesce (lhs rhs : Expr) :
    (catalog.coalesce lhs rhs).evaluate row
      = if (lhs.evaluate row).isNull then rhs.evaluate row else lhs.evaluate row := by
  rw [Catalog.coalesce, Catalog.binary, evaluate, evaluate_applyMapping, evaluate_applyMapping]

theorem evaluate_text (s : String) : (catalog.text s).evaluate row = .string s := by
  rw [Catalog.text, Catalog.constant, evaluate_applyDefault, evaluate]

/-- A folded filter gives the argument where the row passes, and null elsewhere. -/
theorem evaluate_folded (test first : Expr) :
    (Expr.case none [(test, first)] none none).evaluate row
      = if test.Accepts row then first.evaluate row else .null := by
  rw [evaluate, evaluateClauses, evaluateClauses, evaluateOption]
  rfl

end Expr

/-! ### Joining strings -/

/-- The text of a string, and no text for anything else. -/
def Value.textOrEmpty (value : Value) : String := value.asString?.getD ""

/-- The values that are not null, joined by a separator; null when there are none. -/
def stringAgg (separator : String) (values : List Value) : Value :=
  match NullRule.skips.leaves values with
  | [] => .null
  | value :: rest => .string (separator.intercalate ((value :: rest).map Value.textOrEmpty))

/-- **Joining over folded rows is joining over the rows that pass.** -/
theorem stringAgg_folded (separator : String) (passes : Row → Prop) [DecidablePred passes]
    (value : Row → Value) (rows : List Row) :
    stringAgg separator (rows.map fun row => if passes row then value row else .null)
      = stringAgg separator ((rows.filter passes).map value) := by
  rw [stringAgg, NullRule.skips_leaves_masked]
  rfl

/-- Over values of which none is null, the join is null only where there are none to be joined. -/
theorem coalesce_stringAgg (separator : String) {values : List Value}
    (h : ∀ value ∈ values, value.isNull = false) :
    (if (stringAgg separator values).isNull then .string "" else stringAgg separator values)
      = .string (separator.intercalate (values.map Value.textOrEmpty)) := by
  have hleaves : NullRule.skips.leaves values = values := by
    apply List.filter_eq_self.2
    intro value hvalue
    rw [h value hvalue]
    rfl
  unfold stringAgg
  rw [hleaves]
  cases values with
  | nil => rfl
  | cons value rest => rfl

/-- A group of rows as one row: strings are joined over the rows that pass the filter, in the order
in which the rows come to the aggregate, and `other` gives the value of everything else. -/
def Row.ofGroup (rows : List Row) (other : Row) : Row
  | .aggregate callee [first, .constant (.string separator) mapping] false filter orderings =>
    if callee.name = "string_agg" then
      stringAgg separator
        ((rows.filter fun row => ∀ test ∈ filter, test.Accepts row).map first.evaluate)
    else
      other (.aggregate callee [first, .constant (.string separator) mapping] false filter orderings)
  | e => other e

/-- What the host makes of the rows: the selected strings of those that pass the filter, null taken
for the empty string, joined by the separator. -/
def hostJoin (separator : String) (selector : Expr) (filter : Option Expr) (rows : List Row) :
    String :=
  separator.intercalate ((rows.filter fun row => ∀ test ∈ filter, test.Accepts row).map
    fun row => (selector.evaluate row).textOrEmpty)

/-! ### What each dialect is sent -/

namespace Expr

/-- An aggregate, and one whose null is made up for, as a dialect writes it. -/
def inDialect (flavor : Flavor) : Expr → Expr
  | .binary .coalesce lhs rhs mapping => .binary .coalesce (lhs.writtenFor flavor) rhs mapping
  | e => e.writtenFor flavor

variable {flavor : Flavor} {callee : Callee} {first separator rhs : Expr} {filter : Option Expr}
  {orderings : List (Expr × Direction)} {mapping : Option Mapping}

/-- Making up for null changes nothing about how the aggregate is written. -/
theorem render_inDialect (callee : Callee) (first : Expr) (rest : List Expr) (distinct : Bool)
    (filter : Option Expr) (orderings : List (Expr × Direction)) (rhs : Expr)
    (mapping : Option Mapping) :
    ((binary .coalesce (aggregate callee (first :: rest) distinct filter orderings) rhs
        mapping).inDialect flavor).render flavor
      = (binary .coalesce (aggregate callee (first :: rest) distinct filter orderings) rhs
        mapping).render flavor := by
  rw [inDialect, render, render_writtenFor]
  rfl

/-- Redshift is sent an aggregate of an argument without a filter. -/
theorem exists_rootAggregate_inDialect (callee : Callee) (first : Expr) (rest : List Expr)
    (distinct : Bool) (filter : Option Expr) (orderings : List (Expr × Direction)) (rhs : Expr)
    (mapping : Option Mapping) :
    ∃ a, ((binary .coalesce (aggregate callee (first :: rest) distinct filter orderings) rhs
      mapping).inDialect .redshift).rootAggregate? = some a ∧ a.isFiltered = false := by
  cases filter with
  | none => exact ⟨_, rfl, rfl⟩
  | some test => exact ⟨_, rfl, rfl⟩

/-- **Both dialects join the values of the rows that pass.** -/
theorem evaluate_writtenFor (hname : callee.name = "string_agg") (separator : String)
    (rows : List Row) (other : Row) :
    ((aggregate callee [first, .constant (.string separator) mapping] false filter
        orderings).writtenFor flavor).evaluate (.ofGroup rows other)
      = stringAgg separator
          ((rows.filter fun row => ∀ test ∈ filter, test.Accepts row).map first.evaluate) := by
  cases flavor with
  | postgresql => exact if_pos hname
  | redshift =>
    cases filter with
    | none => exact if_pos hname
    | some test =>
      have hfolded : ((aggregate callee [first, .constant (.string separator) mapping] false
          (some test) orderings).writtenFor .redshift).evaluate (.ofGroup rows other)
          = stringAgg separator (rows.map fun row =>
              if test.Accepts row then first.evaluate row else .null) := by
        show (if callee.name = "string_agg" then stringAgg separator ((rows.filter _).map
          (Expr.case none [(test, first)] none none).evaluate) else _) = _
        rw [if_pos hname, List.filter_eq_self.2 (by simp)]
        exact congrArg _ (List.map_congr_left fun row _ => evaluate_folded row test first)
      rw [hfolded, stringAgg_folded]
      simp only [Option.mem_some_iff, forall_eq']

end Expr

/-! ### Lowered joins -/

/-- The row gives the expression a string, or a null where one may stand. -/
def Expr.GivesText (e : Expr) (row : Row) : Prop :=
  (∃ s, e.evaluate row = .string s) ∨ e.evaluate row = .null ∧ e.isNonNullableColumn = false

/-- The call joins strings by a separator that is known: that of its first argument, or none. -/
def AggregateCall.JoinsBy (call : AggregateCall) (separator : String) : Prop :=
  (call.method = .stringJoin ∧
      ∃ mapping rest, call.args = .constant (.string separator) mapping :: rest) ∨
    call.method = .stringConcat ∧ separator = ""

/-- The aggregate that joins strings. -/
def Callee.stringAgg : Callee where
  name := "string_agg"
  nullable := true
  propagates := [false, true]
  type := .string
  mapping := some .text

namespace Catalog

variable (catalog : Catalog) {selector : Expr}

/-- A selected value with the empty string in place of null. -/
def joinable (selector : Expr) : Expr :=
  if selector.isNonNullableColumn then selector else catalog.coalesce selector (catalog.text "")

theorem evaluate_joinable {row : Row} (h : selector.GivesText row) :
    (catalog.joinable selector).evaluate row = .string (selector.evaluate row).textOrEmpty := by
  unfold joinable
  rcases h with ⟨s, hs⟩ | ⟨hnull, hnullable⟩
  · split
    · rw [hs]
      rfl
    · rw [Expr.evaluate_coalesce, hs]
      rfl
  · rw [if_neg (by simp [hnullable]), Expr.evaluate_coalesce, hnull, Expr.evaluate_text]
    rfl

theorem applyDefault_constant (value : Value) (mapping : Option Mapping) :
    ∃ mapping', catalog.applyDefault (.constant value mapping) = .constant value mapping' := by
  unfold applyDefault
  split
  · exact ⟨mapping, rfl⟩
  · exact ⟨_, rfl⟩

/-- A join as it is lowered: the aggregate of the selected values, and what stands for its null. -/
theorem stringJoin_eq (call : AggregateCall) (selector separator : Expr) :
    catalog.stringJoin call selector separator
      = .binary .coalesce (.aggregate .stringAgg
          [catalog.applyDefault (catalog.joinable selector), catalog.applyDefault separator]
          call.source.distinct call.source.filter call.source.orderings) (catalog.text "")
          (some .text) := rfl

end Catalog

namespace Registry

variable {call : AggregateCall} {selector : Expr} {separator : String}

/-- A call that joins by a separator is lowered to a join of its selector by that separator. -/
theorem lower_of_joinsBy (catalog : Catalog) (options : Options)
    (hselector : call.source.selector = some selector) (hjoin : call.JoinsBy separator) :
    ∃ mapping, (aggregates catalog options).lower call
      = some (catalog.stringJoin call selector (.constant (.string separator) mapping)) := by
  rcases hjoin with ⟨hmethod, mapping, rest, hargs⟩ | ⟨hmethod, rfl⟩
  · refine ⟨mapping, lower_of_joinsWith catalog options hselector (.inl ⟨hmethod, ?_⟩)⟩
    rw [hargs, List.head?_cons]
  · exact ⟨some .text, lower_of_joinsWith catalog options hselector (.inr ⟨hmethod, rfl⟩)⟩

/-- **A string join comes to what the host makes of the rows.**  The call is lowered, each dialect is
sent the text of one form of the lowered expression, that of Redshift without a filter, and over
every list of rows the form has the value of the host: the strings of the rows that pass, null taken
for the empty string, between separators. -/
theorem evaluate_stringJoin (catalog : Catalog) (options : Options)
    (hselector : call.source.selector = some selector) (hdistinct : call.source.distinct = false)
    (hjoin : call.JoinsBy separator) :
    ∃ e, (aggregates catalog options).lower call = some e ∧
      (∃ a, (e.inDialect .redshift).rootAggregate? = some a ∧ a.isFiltered = false) ∧
      ∀ flavor, (e.inDialect flavor).render flavor = e.render flavor ∧
        ∀ rows other, (∀ row ∈ rows, selector.GivesText row) →
          (e.inDialect flavor).evaluate (.ofGroup rows other)
            = .string (hostJoin separator selector call.source.filter rows) := by
  obtain ⟨mapping, hlower⟩ := lower_of_joinsBy catalog options hselector hjoin
  obtain ⟨mapping', hseparator⟩ := catalog.applyDefault_constant (.string separator) mapping
  rw [catalog.stringJoin_eq, hseparator, hdistinct] at hlower
  refine ⟨_, hlower, Expr.exists_rootAggregate_inDialect _ _ _ _ _ _ _ _, ?_⟩
  intro flavor
  refine ⟨Expr.render_inDialect _ _ _ _ _ _ _ _, ?_⟩
  intro rows other hrows
  -- What is joined is a string in every row, so that no row is skipped but by the filter.
  let passing := rows.filter fun row => ∀ test ∈ call.source.filter, test.Accepts row
  let value := fun row : Row => (selector.evaluate row).textOrEmpty
  have hvalues : passing.map (catalog.applyDefault (catalog.joinable selector)).evaluate
      = passing.map fun row => Value.string (value row) := by
    apply List.map_congr_left
    intro row hrow
    rw [Expr.evaluate_applyDefault]
    exact catalog.evaluate_joinable (hrows row (List.mem_filter.1 hrow).1)
  have hnull : ∀ v ∈ passing.map fun row => Value.string (value row), v.isNull = false := by
    intro v hv
    obtain ⟨row, -, rfl⟩ := List.mem_map.1 hv
    rfl
  rw [Expr.inDialect, Expr.evaluate, Expr.evaluate_writtenFor rfl, Expr.evaluate_text]
  show (if (stringAgg separator (passing.map _)).isNull then _ else
    stringAgg separator (passing.map _)) = _
  rw [hvalues, coalesce_stringAgg separator hnull, List.map_map]
  rfl

/-- A row with a payment and a tag. -/
def taggedRow (paid tag : Value) : Row
  | .column col => if col.name = "paid" then paid else tag
  | _ => .null

/-- A paid row without a tag counts as an empty one; rows that are not paid, or not known to be, do
not count. -/
def taggedRows : List Row := [
  taggedRow (.bool true) (.string "new"), taggedRow (.bool false) (.string "draft"),
  taggedRow (.bool true) .null, taggedRow .null (.string "late"),
  taggedRow (.bool true) (.string "gift")]

/-- With the filter folded the tags of the paid rows are joined as the host joins them. -/
theorem evaluate_stringJoin_taggedRows :
    paidTags.JoinsBy ", " ∧ ∃ e,
      (aggregates ⟨false, []⟩ { redshift := true }).lower paidTags = some e ∧
        (e.inDialect .redshift).evaluate (.ofGroup taggedRows fun _ => .null)
          = .string "new, , gift" := by
  have hselector : paidTags.source.selector = some _ := rfl
  have hjoin : paidTags.JoinsBy ", " := .inl ⟨rfl, some .text, [], rfl⟩
  obtain ⟨e, hlower, -, hvalue⟩ :=
    evaluate_stringJoin ⟨false, []⟩ { redshift := true } hselector rfl hjoin
  refine ⟨hjoin, e, hlower, ?_⟩
  rw [(hvalue .redshift).2 taggedRows (fun _ => .null) ?_]
  · rfl
  · intro row hrow
    simp only [taggedRows, List.mem_cons, List.not_mem_nil, or_false] at hrow
    rcases hrow with rfl | rfl | rfl | rfl | rfl
    · exact .inl ⟨_, rfl⟩
    · exact .inl ⟨_, rfl⟩
    · exact .inr ⟨rfl, rfl⟩
    · exact .inl ⟨_, rfl⟩
    · exact .inl ⟨_, rfl⟩

end Registry

end PgFragment
