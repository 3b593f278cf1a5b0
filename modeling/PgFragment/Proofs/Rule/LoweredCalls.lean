import PgFragment.Proofs.Expr.Renders
import PgFragment.Rule.Standard

namespace PgFragment

/-!
# What the rules for calls offer

Whether the expression that a rule offers for a method or an aggregate can be written, given that
the parts of the call can.

* `Rule.Satisfies`, `Registry.satisfies` — what holds of the offers of every rule holds of the
  offers of a registry, in whatever order the rules are asked.
* `Rule.toText_offers`, `Rule.databaseFunctions_offers`, `Rule.aggregates_offers` — the expressions
  that a rule can offer at all, by the builder that makes them.
* `Registry.renders_of_calls` — methods and aggregates are lowered to expressions that render.
-/

/-! ### Rules and registries -/

section Offers

variable {Call : Type}

/-- Every expression that the rule offers stands in a relation to the call. -/
def Rule.Satisfies (rule : Rule Call) (relation : Call → Expr → Prop) : Prop :=
  ∀ call e, rule.lower call = .lowered e → relation call e

/-- **A registry offers what its rules offer.** -/
theorem Registry.satisfies {rules : Registry Call} {relation : Call → Expr → Prop}
    (hrules : ∀ rule ∈ rules, rule.Satisfies relation) {call : Call} {e : Expr}
    (h : rules.lower call = some e) : relation call e := by
  obtain ⟨⟨rule, e'⟩, hclaim, rfl⟩ := Option.map_eq_some_iff.1 h
  obtain ⟨rule', hmem, hrule⟩ := List.exists_of_findSome?_eq_some hclaim
  obtain ⟨e'', hoffer, heq⟩ := Option.map_eq_some_iff.1 hrule
  obtain ⟨rfl, rfl⟩ := Prod.mk.inj heq
  refine hrules rule' hmem call e'' ?_
  cases hl : rule'.lower call with
  | lowered e =>
    rw [hl] at hoffer
    exact congrArg Outcome.lowered (Option.some.inj hoffer)
  | declined note =>
    rw [hl] at hoffer
    cases hoffer

end Offers

/-! ### Calls whose parts render -/

/-- A constant record, which stands for a row without mappings. -/
def Expr.isConstantRecord : Expr → Bool
  | .constant (.record _) _ => true
  | _ => false

/-- The instance and the arguments of a method call render. -/
structure MethodCall.Renders (flavor : Flavor) (call : MethodCall) : Prop where
  instance? : ∀ e ∈ call.instance?, e.Renders flavor
  args : ∀ a ∈ call.args, a.Renders flavor

/-- No argument of the call is a constant record. -/
def MethodCall.NoRecord (call : MethodCall) : Prop := ∀ a ∈ call.args, a.isConstantRecord = false

/-- The selector, the arguments, the filter and the sort keys of an aggregate call render. -/
structure AggregateCall.Renders (flavor : Flavor) (call : AggregateCall) : Prop where
  selector : ∀ e ∈ call.source.selector, e.Renders flavor
  args : ∀ a ∈ call.args, a.Renders flavor
  filter : ∀ test ∈ call.source.filter, test.Renders flavor
  keys : ∀ k ∈ call.source.orderings, k.1.Renders flavor

variable {catalog : Catalog} {flavor : Flavor}

/-! ### Methods -/

namespace Rule

/-- The text of a value is a `CASE` or a cast. -/
theorem toText_offers {table : CastableTypes} {call : MethodCall} {e : Expr}
    (h : (toText catalog table).lower call = .lowered e) :
    ∃ value, call.instance? = some value ∧
      (e = catalog.boolText value ∨ e = catalog.convert value .string (some .text)) := by
  unfold toText at h
  dsimp only at h
  split at h
  · next value hmethod hinstance hargs =>
    refine ⟨value, hinstance, ?_⟩
    split at h
    · cases h
      exact .inl rfl
    · split at h
      · cases h
        exact .inr rfl
      · cases h
  · cases h

/-- A database function is a match, a call of one argument, or the comparison of two rows. -/
theorem databaseFunctions_offers {call : MethodCall} {e : Expr}
    (h : (databaseFunctions catalog).lower call = .lowered e) :
    (∃ subject pattern escape, call.args = subject :: pattern :: escape.toList ∧
        e = catalog.ilike subject pattern escape) ∨
      (∃ callee value, call.args = [value] ∧ e = catalog.function callee [value]) ∨
      ∃ op l r lhs rhs, call.args = [l, r] ∧ l.asRow? = some lhs ∧ r.asRow? = some rhs ∧
        e = catalog.rowComparison op lhs rhs := by
  have hcompare : ∀ op, catalog.lowerRowComparison op call.args = .lowered e →
      ∃ op l r lhs rhs, call.args = [l, r] ∧ l.asRow? = some lhs ∧ r.asRow? = some rhs ∧
        e = catalog.rowComparison op lhs rhs := by
    intro op h
    unfold Catalog.lowerRowComparison at h
    split at h
    · next l r hargs =>
      split at h
      · next lhs rhs hl hr =>
        split at h
        · cases h
        · cases h
          exact ⟨op, l, r, lhs, rhs, hargs, hl, hr, rfl⟩
      · cases h
    · cases h
  unfold databaseFunctions at h
  dsimp only at h
  split at h
  · -- `ILIKE`, with or without an escape.
    left
    unfold Catalog.lowerIlike at h
    split at h
    · next subject pattern hargs =>
      cases h
      exact ⟨subject, pattern, none, hargs, rfl⟩
    · next subject pattern escape hargs =>
      split at h
      · cases h
        exact ⟨subject, pattern, some escape, hargs, rfl⟩
      · cases h
    · cases h
  · right
    left
    unfold Catalog.lowerReverse at h
    split at h
    · next value hargs =>
      cases h
      exact ⟨_, value, hargs, rfl⟩
    · cases h
  · exact .inr (.inr (hcompare _ h))
  · exact .inr (.inr (hcompare _ h))
  · exact .inr (.inr (hcompare _ h))
  · exact .inr (.inr (hcompare _ h))
  · cases h
  · cases h

/-- The values of a row that renders do so too. -/
theorem renders_of_asRow? {e : Expr} {values : List Expr} (h : e.Renders flavor)
    (hrecord : e.isConstantRecord = false) (hrow : e.asRow? = some values) :
    ∀ v ∈ values, v.Renders flavor := by
  unfold Expr.asRow? at hrow
  split at hrow
  · cases hrow
    exact (Expr.renders_iff.1 h).2
  · cases hrecord
  · cases hrow

end Rule

namespace Catalog

/-- The text of a truth value renders as the value does: every constant in it is of a type that has
a default mapping, or a null. -/
theorem renders_boolText {e : Expr} (h : e.Renders flavor) :
    (catalog.boolText e).Renders flavor := by
  have hclause : ∀ (b : Bool) (s : String), (catalog.equal e (catalog.constant (.bool b))).Renders
      flavor ∧ (catalog.text s).Renders flavor := by
    intro b s
    exact ⟨renders_binary .eq h (renders_bool b), renders_text s⟩
  unfold boolText
  split
  · refine renders_case ?_ ?_
    · intro w hw
      simp only [List.mem_cons, List.not_mem_nil, or_false] at hw
      rcases hw with rfl | rfl
      · exact hclause false "False"
      · exact hclause true "True"
    · intro e he
      cases he
      exact ⟨"NULL", rfl⟩
  · refine renders_case ?_ ?_
    · intro w hw
      obtain rfl := List.mem_singleton.1 hw
      exact hclause false "False"
    · intro e he
      cases he
      exact renders_text "True"

end Catalog

namespace Rule

/-- The offers for a method call whose parts render do so too. -/
theorem toText_renders (table : CastableTypes) :
    (toText catalog table).Satisfies fun call e => call.Renders flavor → e.Renders flavor := by
  intro call e h hcall
  obtain ⟨value, hinstance, rfl | rfl⟩ := toText_offers h
  · exact Catalog.renders_boolText (hcall.instance? value hinstance)
  · exact (Catalog.renders_convert_iff (hcall.instance? value hinstance)).2 (by simp)

/-- A constant record would be compared as a row of constants that may have no mapping. -/
theorem databaseFunctions_renders :
    (databaseFunctions catalog).Satisfies fun call e =>
      call.Renders flavor → call.NoRecord → e.Renders flavor := by
  intro call e h hcall hrecord
  unfold MethodCall.NoRecord at hrecord
  have hargs := hcall.args
  rcases databaseFunctions_offers h with ⟨subject, pattern, escape, heq, rfl⟩ |
    ⟨callee, value, heq, rfl⟩ | ⟨op, l, r, lhs, rhs, heq, hl, hr, rfl⟩
  · rw [heq] at hargs
    refine Catalog.renders_ilike (hargs subject (by simp)) (hargs pattern (by simp)) ?_
    intro e he
    exact hargs e (by simp [Option.mem_toList.2 he])
  · rw [heq] at hargs
    exact Catalog.renders_function callee hargs
  · rw [heq] at hargs hrecord
    exact Catalog.renders_rowComparison op
      (renders_of_asRow? (hargs l (by simp)) (hrecord l (by simp)) hl)
      (renders_of_asRow? (hargs r (by simp)) (hrecord r (by simp)) hr)

end Rule

/-! ### Aggregates -/

/-- The aggregate of the method takes the selected value as it is. -/
def AggregateMethod.isPlain : AggregateMethod → Bool
  | .arrayAgg | .jsonAgg | .jsonbAgg | .rangeAgg | .rangeIntersectAgg | .sum | .average => true
  | .stringJoin | .stringConcat | .jsonObjectAgg | .jsonbObjectAgg | .other => false

/-- The call joins strings by a separator: that of its first argument, or the empty string. -/
def AggregateCall.JoinsWith (call : AggregateCall) (separator : Expr) : Prop :=
  (call.method = .stringJoin ∧ call.args.head? = some separator) ∨
    call.method = .stringConcat ∧ separator = .constant (.string "") (some .text)

namespace Rule

/-- The names of the aggregates of one value. -/
def plainAggregates : List String :=
  ["array_agg", "json_agg", "jsonb_agg", "range_agg", "range_intersect_agg", "sum", "avg"]

/-- An aggregate call becomes a string join, an aggregate of the selector, or a JSON object of the
two values of the row that is selected. -/
theorem aggregates_offers {options : Options} {call : AggregateCall} {e : Expr}
    (h : (aggregates catalog options).lower call = .lowered e) :
    ∃ selector, call.source.selector = some selector ∧
      ((∃ separator, call.JoinsWith separator ∧ e = catalog.stringJoin call selector separator) ∨
        (call.method.isPlain = true ∧ ∃ name ∈ plainAggregates, ∃ type mapping,
          e = catalog.aggregateOf name call selector type mapping) ∨
        (call.method = .jsonObjectAgg ∨ call.method = .jsonbObjectAgg) ∧
          ∃ name type mapping key value, selector = .row [key, value] ∧
            e = catalog.aggregate
              { name, nullable := true, propagates := [false, false], type, mapping } [key, value]
              call.source) := by
  have hobject : ∀ name storeType selector,
      catalog.lowerObjectAggregate name storeType call selector = .lowered e →
      ∃ name type mapping key value, selector = .row [key, value] ∧
        e = catalog.aggregate
          { name, nullable := true, propagates := [false, false], type, mapping } [key, value]
          call.source := by
    intro name storeType selector h
    unfold Catalog.lowerObjectAggregate at h
    split at h
    · next key value =>
      cases h
      exact ⟨name, _, _, key, value, rfl, rfl⟩
    · cases h
  unfold aggregates at h
  dsimp only at h
  split at h
  · cases h
  · next selector hselector =>
    refine ⟨selector, hselector, ?_⟩
    have hplain : ∀ name ∈ plainAggregates, ∀ type mapping,
        Outcome.lowered (catalog.aggregateOf name call selector type mapping) = .lowered e →
        ∃ name ∈ plainAggregates, ∃ type mapping,
          e = catalog.aggregateOf name call selector type mapping := by
      intro name hname type mapping h
      cases h
      exact ⟨name, hname, type, mapping, rfl⟩
    split at h
    · next hmethod =>
      split at h
      · cases h
      · next separator rest hargs =>
        cases h
        exact .inl ⟨separator, .inl ⟨hmethod, by rw [hargs, List.head?_cons]⟩, rfl⟩
    · next hmethod =>
      cases h
      exact .inl ⟨_, .inr ⟨hmethod, rfl⟩, rfl⟩
    · next hmethod => exact .inr (.inl ⟨by rw [hmethod]; rfl, hplain "array_agg" (by decide) _ _ h⟩)
    · next hmethod => exact .inr (.inl ⟨by rw [hmethod]; rfl, hplain "json_agg" (by decide) _ _ h⟩)
    · next hmethod => exact .inr (.inl ⟨by rw [hmethod]; rfl, hplain "jsonb_agg" (by decide) _ _ h⟩)
    · next hmethod =>
      split at h
      · exact .inr (.inl ⟨by rw [hmethod]; rfl, hplain "range_agg" (by decide) _ _ h⟩)
      · cases h
    · next hmethod =>
      exact .inr (.inl ⟨by rw [hmethod]; rfl, hplain "range_intersect_agg" (by decide) _ _ h⟩)
    · next hmethod => exact .inr (.inl ⟨by rw [hmethod]; rfl, hplain "sum" (by decide) _ _ h⟩)
    · next hmethod => exact .inr (.inl ⟨by rw [hmethod]; rfl, hplain "avg" (by decide) _ _ h⟩)
    · next hmethod => exact .inr (.inr ⟨.inl hmethod, hobject _ _ _ h⟩)
    · next hmethod => exact .inr (.inr ⟨.inr hmethod, hobject _ _ _ h⟩)
    · cases h

end Rule

namespace Catalog

variable {call : AggregateCall} {selector separator : Expr}

theorem renders_aggregateOf (h : call.Renders flavor) (hs : selector.Renders flavor)
    (name : String) (type : HostType) (mapping : Option Mapping) :
    (catalog.aggregateOf name call selector type mapping).Renders flavor := by
  refine renders_aggregate _ (List.cons_ne_nil _ _) ?_ h.filter h.keys
  intro a ha
  rwa [List.mem_singleton.1 ha]

theorem renders_stringJoin (h : call.Renders flavor) (hs : selector.Renders flavor)
    (hsep : separator.Renders flavor) :
    (catalog.stringJoin call selector separator).Renders flavor := by
  refine renders_binary .coalesce ?_ (renders_text "")
  refine renders_aggregate _ (List.cons_ne_nil _ _) ?_ h.filter h.keys
  intro a ha
  simp only [List.mem_cons, List.not_mem_nil, or_false] at ha
  rcases ha with rfl | rfl
  · -- The selector stands alone or with the empty string in place of null.
    split
    · exact hs
    · exact renders_binary .coalesce hs (renders_text "")
  · exact hsep

end Catalog

namespace Rule

/-- The offers for an aggregate call whose parts render do so too. -/
theorem aggregates_renders (options : Options) :
    (aggregates catalog options).Satisfies fun call e => call.Renders flavor → e.Renders flavor := by
  intro call e h hcall
  obtain ⟨selector, hselector, h⟩ := aggregates_offers h
  have hs := hcall.selector selector hselector
  rcases h with ⟨separator, hjoin, rfl⟩ | ⟨-, name, -, type, mapping, rfl⟩ |
    ⟨-, name, type, mapping, key, value, rfl, rfl⟩
  · refine Catalog.renders_stringJoin hcall hs ?_
    rcases hjoin with ⟨-, hargs⟩ | ⟨-, rfl⟩
    · exact hcall.args separator (List.mem_of_head? hargs)
    · exact ⟨"''", rfl⟩
  · exact Catalog.renders_aggregateOf hcall hs name type mapping
  · exact Catalog.renders_aggregate _ (List.cons_ne_nil _ _) (Expr.renders_iff.1 hs).2
      hcall.filter hcall.keys

end Rule

namespace Registry

/-- A call that joins strings is lowered to the join of its selector. -/
theorem lower_of_joinsWith (catalog : Catalog) (options : Options) {call : AggregateCall}
    {selector separator : Expr} (hselector : call.source.selector = some selector)
    (hjoin : call.JoinsWith separator) :
    (aggregates catalog options).lower call
      = some (catalog.stringJoin call selector separator) := by
  have hoffer : (Rule.aggregates catalog options).lower call
      = .lowered (catalog.stringJoin call selector separator) := by
    rcases hjoin with ⟨hmethod, hargs⟩ | ⟨hmethod, rfl⟩
    · obtain ⟨rest, hargs⟩ := List.head?_eq_some_iff.1 hargs
      simp only [Rule.aggregates, hselector, hmethod, hargs]
    · simp only [Rule.aggregates, hselector, hmethod]
      rfl
  simp [aggregates, lower, claim?, hoffer, Outcome.expr?]

/-- **Methods and aggregates are lowered to expressions that render.**  In either dialect, where the
parts of a call have a text, so has the expression that the call becomes. -/
theorem renders_of_calls (catalog : Catalog) (flavor : Flavor) :
    (∀ (call : MethodCall) (e : Expr), call.Renders flavor → call.NoRecord →
      (methods catalog).lower call = some e → e.Renders flavor) ∧
    ∀ (options : Options) (call : AggregateCall) (e : Expr), call.Renders flavor →
      (aggregates catalog options).lower call = some e → e.Renders flavor := by
  refine ⟨?_, ?_⟩
  · have hrules : ∀ rule ∈ methods catalog,
        rule.Satisfies fun call e => call.Renders flavor → call.NoRecord → e.Renders flavor := by
      intro rule hrule
      simp only [methods, List.mem_cons, List.not_mem_nil, or_false] at hrule
      rcases hrule with rfl | rfl
      · exact fun call e h hcall _ => Rule.toText_renders .standard call e h hcall
      · exact Rule.databaseFunctions_renders
    intro call e hcall hrecord h
    exact satisfies hrules h hcall hrecord
  · intro options call e hcall h
    have hrules : ∀ rule ∈ aggregates catalog options,
        rule.Satisfies fun call e => call.Renders flavor → e.Renders flavor := by
      intro rule hrule
      obtain rfl := List.mem_singleton.1 hrule
      exact Rule.aggregates_renders options
    exact satisfies hrules h hcall

/-- A comparison of rows in which a null has no mapping of its own. -/
def afterMay : MethodCall where
  instance? := none
  method := .function .greaterThan
  args := [
    .row [.column { table := "t", name := "year", type := .int .i32, mapping := some .integer },
      .column { table := "t", name := "month", type := .int .i32 }],
    .row [.constant (.int ⟨.i32, 2024, by decide⟩) (some .bigint), .null]]

/-- The tags of the paid rows between commas, the last first. -/
def paidTags : AggregateCall where
  method := .stringJoin
  source := {
    selector := some (.column { table := "t", name := "tag", type := .string, nullable := true })
    filter := some (.column { table := "o", name := "paid", type := .bool })
    orderings := [(.column { table := "t", name := "tag", type := .string }, .descending)] }
  args := [.constant (.string ", ") (some .text)]
  returnType := .string

/-- Both calls are lowered, and to expressions that Redshift can be sent. -/
theorem renders_of_calls_afterMay_paidTags :
    (afterMay.Renders .redshift ∧ afterMay.NoRecord ∧
      ∃ e, (methods ⟨false, []⟩).lower afterMay = some e ∧ e.Renders .redshift) ∧
    (paidTags.Renders .redshift ∧ ∃ e, (aggregates ⟨false, []⟩ { redshift := true }).lower paidTags
      = some e ∧ e.Renders .redshift) := by
  have hmay : afterMay.Renders .redshift := by
    refine ⟨?_, ?_⟩
    · intro e he
      cases he
    · intro a ha
      simp only [afterMay, List.mem_cons, List.not_mem_nil, or_false] at ha
      rcases ha with rfl | rfl
      · exact ⟨"(t.year, t.month)", by rfl⟩
      · exact ⟨"(2024, NULL)", by rfl⟩
  have hrecord : afterMay.NoRecord := by
    unfold MethodCall.NoRecord
    decide
  have htags : paidTags.Renders .redshift := by
    refine ⟨?_, ?_, ?_, ?_⟩
    · intro e he
      cases he
      exact ⟨"t.tag", by rfl⟩
    · intro a ha
      obtain rfl := List.mem_singleton.1 ha
      exact ⟨"', '", by rfl⟩
    · intro test htest
      cases htest
      exact ⟨"o.paid", by rfl⟩
    · intro k hk
      obtain rfl := List.mem_singleton.1 hk
      exact ⟨"t.tag", by rfl⟩
  refine ⟨⟨hmay, hrecord, _, rfl, ?_⟩, htags, _, rfl, ?_⟩
  · exact (renders_of_calls _ _).1 afterMay _ hmay hrecord rfl
  · exact (renders_of_calls _ _).2 _ paidTags _ htags rfl

end Registry

end PgFragment
