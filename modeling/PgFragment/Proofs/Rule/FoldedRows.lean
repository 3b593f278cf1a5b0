import PgFragment.Proofs.Expr.FilterFolding
import PgFragment.Proofs.Rule.LoweredCalls

namespace PgFragment

/-!
# What a folded filter leaves of the rows

An aggregate with a filter takes the rows that pass it.  Where the filter is folded into the first
argument, the aggregate takes every row, and a row that does not pass gives a null.  The two come to
the same for an aggregate that skips nulls; one that keeps them collects the rows that were to be
left out.

* `Expr.valueIn` — the value of an expression in a row, as far as `CASE` decides it.
* `Expr.taken` — the values that an aggregate takes from a list of rows.
* `Expr.taken_writtenFor_iff` — when the two dialects have an aggregate take the same values.
* `Registry.taken_of_aggregates` — the same of the aggregates that calls are lowered to.
-/

/-! ### Values in a row -/

/-- What a row makes of the expressions that are no tests in a `CASE`. -/
abbrev Row := Expr → Value

namespace Expr

mutual

/-- The value of an expression in a row: a `CASE` without an operand gives the result of the first
clause whose test is true, and the row gives the value of everything else. -/
def valueIn (row : Row) : Expr → Value
  | .case none whens otherwise _ => clausesIn row (optionIn row otherwise) whens
  | e => row e

/-- The result of the first clause whose test is true; a null test is not. -/
def clausesIn (row : Row) (fallback : Value) : List (Expr × Expr) → Value
  | [] => fallback
  | (test, result) :: rest =>
    if (valueIn row test).asBool? = some true then valueIn row result
    else clausesIn row fallback rest

/-- The value of an expression that may be absent, which is then null. -/
def optionIn (row : Row) : Option Expr → Value
  | none => .null
  | some e => valueIn row e

end

/-- The row passes the test: it is true, not false and not null. -/
def PassedBy (test : Expr) (row : Row) : Prop := (test.valueIn row).asBool? = some true

instance (test : Expr) : DecidablePred test.PassedBy :=
  fun row => inferInstanceAs (Decidable ((test.valueIn row).asBool? = some true))

/-- A folded filter gives the argument where the row passes, and null elsewhere. -/
theorem valueIn_folded (test first : Expr) (row : Row) :
    (Expr.case none [(test, first)] none none).valueIn row
      = if test.PassedBy row then first.valueIn row else .null := by
  rw [valueIn, clausesIn, clausesIn, optionIn]
  rfl

end Expr

/-! ### What an aggregate takes -/

/-- What an aggregate does with a row whose first argument is null. -/
inductive NullRule where
  | skips
  | keeps
  deriving DecidableEq

namespace NullRule

/-- The rule of an aggregate of the database; an object's keys follow another. -/
def of? (name : String) : Option NullRule :=
  if name ∈ ["string_agg", "sum", "avg", "range_agg", "range_intersect_agg"] then some .skips
  else if name ∈ ["array_agg", "json_agg", "jsonb_agg"] then some .keeps
  else none

/-- The values that are left of the values in each row. -/
def leaves : NullRule → List Value → List Value
  | .skips, values => values.filter (!·.isNull)
  | .keeps, values => values

variable (passes : Row → Prop) [DecidablePred passes] (value : Row → Value) (rows : List Row)

/-- Nulls in place of rows are skipped as the rows would be left out. -/
theorem skips_leaves_masked :
    skips.leaves (rows.map fun row => if passes row then value row else .null)
      = skips.leaves ((rows.filter passes).map value) := by
  induction rows with
  | nil => rfl
  | cons row rows ih =>
    simp only [leaves] at ih ⊢
    by_cases h : passes row
    · rw [List.filter_cons_of_pos (by simpa using h), List.map_cons, List.map_cons, if_pos h,
        List.filter_cons, List.filter_cons, ih]
    · rw [List.filter_cons_of_neg (by simpa using h), List.map_cons, if_neg h,
        List.filter_cons_of_neg (by simp [Value.isNull]), ih]

/-- Nulls in place of rows are kept, so that none must be left out. -/
theorem keeps_leaves_masked_iff :
    keeps.leaves (rows.map fun row => if passes row then value row else .null)
        = keeps.leaves ((rows.filter passes).map value) ↔
      ∀ row ∈ rows, passes row := by
  simp only [leaves]
  constructor
  · intro h
    -- There are as many values as rows on the one side, and as many as pass on the other.
    have hlength : rows.length = (rows.filter passes).length := by
      simpa only [List.length_map] using congrArg List.length h
    intro row hrow
    exact of_decide_eq_true (List.length_filter_eq_length_iff.1 hlength.symm row hrow)
  · intro h
    rw [List.filter_eq_self.2 fun row hrow => decide_eq_true (h row hrow)]
    apply List.map_congr_left
    intro row hrow
    exact if_pos (h row hrow)

/-- **Nulls in place of rows make no difference** exactly where they are skipped or there are
none. -/
theorem leaves_masked_iff (rule : NullRule) :
    rule.leaves (rows.map fun row => if passes row then value row else .null)
        = rule.leaves ((rows.filter passes).map value) ↔
      rule = .skips ∨ ∀ row ∈ rows, passes row := by
  cases rule with
  | skips => exact iff_of_true (skips_leaves_masked passes value rows) (.inl rfl)
  | keeps =>
    rw [keeps_leaves_masked_iff]
    constructor
    · exact .inr
    · rintro (h | h)
      · cases h
      · exact h

end NullRule

namespace Expr

/-- The values of its first argument that an aggregate takes from the rows, in the order in which
the rows come to it and before it drops repeated ones. -/
def taken (rule : NullRule) (rows : List Row) : Expr → List Value
  | .aggregate _ (first :: _) _ filter _ =>
    rule.leaves ((rows.filter fun row => ∀ test ∈ filter, test.PassedBy row).map first.valueIn)
  | _ => []

/-- The null rule of an aggregate. -/
def nullRule? : Expr → Option NullRule
  | .aggregate callee .. => NullRule.of? callee.name
  | _ => none

/-! ### What each dialect writes -/

/-- An aggregate as a dialect writes it: Redshift folds the filter away. -/
def writtenFor : Flavor → Expr → Expr
  | .postgresql, a => a
  | .redshift, a => a.foldNode

/-- An aggregate of an argument, in either dialect, has the text of what the dialect writes. -/
theorem render_writtenFor (flavor : Flavor) (callee : Callee) (first : Expr) (rest : List Expr)
    (distinct : Bool) (filter : Option Expr) (orderings : List (Expr × Direction)) :
    ((aggregate callee (first :: rest) distinct filter orderings).writtenFor flavor).render flavor
      = (aggregate callee (first :: rest) distinct filter orderings).render flavor := by
  cases flavor with
  | postgresql => rfl
  | redshift =>
    cases filter with
    | none => rfl
    | some test =>
      show (aggregate callee (.case none [(test, first)] none none :: rest) distinct none
        orderings).render .redshift = _
      rw [render, render, renderEach, renderEach, renderOption, renderOption,
        Rendered.aggregate_redshift_some, Rendered.aggregate_none, render, renderOperand,
        renderClauses, renderClauses, renderOption]

/-- **The dialects have a filtered aggregate take the same values** exactly when it skips nulls or
every row passes the filter. -/
theorem taken_writtenFor_iff (rule : NullRule) (rows : List Row) (callee : Callee)
    (first test : Expr) (rest : List Expr) (distinct : Bool) (orderings : List (Expr × Direction)) :
    ((aggregate callee (first :: rest) distinct (some test) orderings).writtenFor
          .redshift).taken rule rows
        = ((aggregate callee (first :: rest) distinct (some test) orderings).writtenFor
          .postgresql).taken rule rows ↔
      rule = .skips ∨ ∀ row ∈ rows, test.PassedBy row := by
  have hfolded : ((aggregate callee (first :: rest) distinct (some test) orderings).writtenFor
      .redshift).taken rule rows
        = rule.leaves (rows.map fun row => if test.PassedBy row then first.valueIn row
          else .null) := by
    show rule.leaves ((rows.filter _).map (Expr.case none [(test, first)] none none).valueIn) = _
    rw [List.filter_eq_self.2 (by simp)]
    exact congrArg rule.leaves (List.map_congr_left fun row _ => valueIn_folded test first row)
  have hfiltered : ((aggregate callee (first :: rest) distinct (some test) orderings).writtenFor
      .postgresql).taken rule rows = rule.leaves ((rows.filter test.PassedBy).map first.valueIn) := by
    show rule.leaves ((rows.filter fun row => ∀ t ∈ some test, t.PassedBy row).map _) = _
    simp only [Option.mem_some_iff, forall_eq']
  rw [hfolded, hfiltered]
  exact NullRule.leaves_masked_iff test.PassedBy first.valueIn rows rule

/-- The aggregate that an expression is, or whose null it makes up for. -/
def rootAggregate? : Expr → Option Expr
  | .binary .coalesce (.aggregate callee args distinct filter orderings) _ _
  | .aggregate callee args distinct filter orderings =>
    some (.aggregate callee args distinct filter orderings)
  | _ => none

end Expr

/-! ### Lowered aggregates -/

variable {catalog : Catalog}

/-- A call of a method that makes no JSON object becomes an aggregate of an argument, under the
filter of its source and with a null rule. -/
theorem Rule.aggregates_root {options : Options} {call : AggregateCall} {e : Expr}
    (hmethod : call.method ≠ .jsonObjectAgg ∧ call.method ≠ .jsonbObjectAgg)
    (h : (aggregates catalog options).lower call = .lowered e) :
    ∃ callee first rest distinct orderings rule,
      e.rootAggregate? = some (.aggregate callee (first :: rest) distinct call.source.filter
        orderings) ∧ NullRule.of? callee.name = some rule := by
  obtain ⟨selector, -, h⟩ := aggregates_offers h
  rcases h with ⟨separator, -, rfl⟩ | ⟨-, name, hname, type, mapping, rfl⟩ | ⟨hobject, -⟩
  · exact ⟨_, _, _, _, _, _, rfl, rfl⟩
  · have hsome : ∀ name ∈ plainAggregates, (NullRule.of? name).isSome = true := by decide
    obtain ⟨rule, hrule⟩ := Option.isSome_iff_exists.1 (hsome name hname)
    exact ⟨_, _, _, _, _, rule, rfl, hrule⟩
  · rcases hobject with hobject | hobject
    · exact absurd hobject hmethod.1
    · exact absurd hobject hmethod.2

namespace Registry

/-- **A folded filter keeps the values of an aggregate that skips nulls, and no others'.**  A call
over a filtered source becomes an aggregate that PostgreSQL is sent with its filter and Redshift
with the filter folded; these take the same values from a list of rows exactly when the aggregate
skips nulls or every row passes the filter. -/
theorem taken_of_aggregates (catalog : Catalog) (options : Options) {call : AggregateCall}
    {test e : Expr} (hfilter : call.source.filter = some test)
    (hmethod : call.method ≠ .jsonObjectAgg ∧ call.method ≠ .jsonbObjectAgg)
    (h : (aggregates catalog options).lower call = some e) :
    ∃ a rule, e.rootAggregate? = some a ∧ a.nullRule? = some rule ∧
      (∀ flavor, (a.writtenFor flavor).render flavor = a.render flavor) ∧
      (a.writtenFor .redshift).isFiltered = false ∧
      ∀ rows, (a.writtenFor .redshift).taken rule rows = (a.writtenFor .postgresql).taken rule rows
        ↔ rule = .skips ∨ ∀ row ∈ rows, test.PassedBy row := by
  have hrules : ∀ rule ∈ aggregates catalog options, rule.Satisfies fun call e =>
      call.method ≠ .jsonObjectAgg ∧ call.method ≠ .jsonbObjectAgg →
      ∃ callee first rest distinct orderings rule,
        e.rootAggregate? = some (.aggregate callee (first :: rest) distinct call.source.filter
          orderings) ∧ NullRule.of? callee.name = some rule := by
    intro rule hrule
    obtain rfl := List.mem_singleton.1 hrule
    exact fun call e h hmethod => Rule.aggregates_root hmethod h
  obtain ⟨callee, first, rest, distinct, orderings, rule, hroot, hrule⟩ :=
    satisfies hrules h hmethod
  rw [hfilter] at hroot
  refine ⟨_, rule, hroot, hrule, ?_, rfl, ?_⟩
  · intro flavor
    exact Expr.render_writtenFor flavor callee first rest distinct (some test) orderings
  · intro rows
    exact Expr.taken_writtenFor_iff rule rows callee first test rest distinct orderings

/-- A row that is not paid. -/
def unpaid : Row
  | .column col => if col.name = "paid" then .bool false else .string "draft"
  | _ => .null

/-- The joined tags of the paid rows are the same in both dialects, also over a row that is not. -/
theorem taken_of_aggregates_paidTags :
    ∃ e a, (aggregates ⟨false, []⟩ { redshift := true }).lower paidTags = some e ∧
      e.rootAggregate? = some a ∧ a.nullRule? = some .skips ∧
      (a.writtenFor .redshift).taken .skips [unpaid]
        = (a.writtenFor .postgresql).taken .skips [unpaid] := by
  have hmethod : paidTags.method ≠ .jsonObjectAgg ∧ paidTags.method ≠ .jsonbObjectAgg := by decide
  obtain ⟨a, rule, hroot, hrule, -, -, hiff⟩ :=
    taken_of_aggregates ⟨false, []⟩ { redshift := true } rfl hmethod rfl
  obtain rfl : rule = .skips := by
    cases hroot
    exact Option.some.inj hrule.symm
  exact ⟨_, a, rfl, hroot, hrule, (hiff [unpaid]).2 (.inl rfl)⟩

/-- The tags of the paid rows in an array. -/
def paidTagArray : AggregateCall := { paidTags with method := .arrayAgg, args := [] }

/-- Over a row that is not paid the array is to stay empty, and on Redshift it holds a null. -/
theorem taken_differs_paidTagArray :
    paidTagArray.source.distinct = false ∧
    ∃ a, (aggregates ⟨false, []⟩ { redshift := true }).lower paidTagArray = some a ∧
      a.rootAggregate? = some a ∧ a.nullRule? = some .keeps ∧
      a.render .redshift
        = .ok "array_agg(CASE WHEN o.paid THEN t.tag END ORDER BY t.tag DESC)" ∧
      (a.writtenFor .postgresql).taken .keeps [unpaid] = [] ∧
      (a.writtenFor .redshift).taken .keeps [unpaid] = [.null] := by
  refine ⟨rfl, _, rfl, rfl, rfl, ?_, rfl, ?_⟩
  · rfl
  · rfl

end Registry

end PgFragment
