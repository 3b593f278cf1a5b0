import PgFragment.Proofs.Expr.ErasedMappings
import PgFragment.Proofs.Rule.JoinedRows

namespace PgFragment

/-!
# What an aggregate carries over

An aggregate call names the rows that it runs over: a selector, and with it whether repeated values
are dropped, a filter and an order.  The aggregate that the call becomes carries all of that, and
its arguments are the selected values and nothing else.

* `AggregateCall.given?` — the arguments of a call's aggregate, mappings apart.
* `Rule.aggregates_carry` — what a call becomes, whatever its method.
-/

/-! ### What a call gives its aggregate -/

/-- The method joins strings. -/
def AggregateMethod.isJoin : AggregateMethod → Bool
  | .stringJoin | .stringConcat => true
  | _ => false

/-- An expression with the empty string in place of null, unless it is a column that is never
null. -/
def Expr.orEmpty (e : Expr) : Expr :=
  if e.isNonNullableColumn then e else .binary .coalesce e (.constant (.string "") none) none

/-- The arguments that the aggregate of a call is given, mappings apart, each with whether a null
there makes the result null.  A join needs a separator, and an object a pair. -/
def AggregateCall.given? (call : AggregateCall) : Option (List (Expr × Bool)) :=
  call.source.selector.bind fun selector =>
    match call.method with
    | .stringJoin =>
      call.args.head?.map fun separator => [(selector.orEmpty, false), (separator, true)]
    | .stringConcat => some [(selector.orEmpty, false), (.constant (.string "") none, true)]
    | .jsonObjectAgg | .jsonbObjectAgg =>
      match selector with
      | .row [key, value] => some [(key, false), (value, false)]
      | _ => none
    | method => if method.isPlain then some [(selector, false)] else none

namespace AggregateCall

variable {call : AggregateCall} {selector separator key value : Expr}

/-- A join is given its selector, with the empty string in place of null, and its separator. -/
theorem given_of_joinsWith (hselector : call.source.selector = some selector)
    (hjoin : call.JoinsWith separator) :
    call.method.isJoin = true ∧ ∃ separator', separator'.eraseMappings = separator.eraseMappings ∧
      call.given? = some [(selector.orEmpty, false), (separator', true)] := by
  rcases hjoin with ⟨hmethod, hargs⟩ | ⟨hmethod, rfl⟩
  · exact ⟨by rw [hmethod]; rfl, separator, rfl, by simp [given?, hselector, hmethod, hargs]⟩
  · exact ⟨by rw [hmethod]; rfl, .constant (.string "") none, rfl,
      by simp [given?, hselector, hmethod]⟩

/-- An aggregate of the selected value is given that alone. -/
theorem given_of_isPlain (hselector : call.source.selector = some selector)
    (hplain : call.method.isPlain = true) :
    call.method.isJoin = false ∧ call.given? = some [(selector, false)] := by
  cases hmethod : call.method <;> rw [hmethod] at hplain <;> cases hplain <;>
    exact ⟨rfl, by simp [given?, hselector, hmethod, AggregateMethod.isPlain]⟩

/-- An object is given the two values of the row that is selected. -/
theorem given_of_object (hselector : call.source.selector = some (.row [key, value]))
    (hobject : call.method = .jsonObjectAgg ∨ call.method = .jsonbObjectAgg) :
    call.method.isJoin = false ∧ call.given? = some [(key, false), (value, false)] := by
  rcases hobject with hmethod | hmethod <;>
    exact ⟨by rw [hmethod]; rfl, by simp [given?, hselector, hmethod]⟩

end AggregateCall

/-! ### What a call becomes -/

namespace Catalog

theorem eraseMappings_joinable (catalog : Catalog) (selector : Expr) :
    (catalog.joinable selector).eraseMappings = selector.orEmpty.eraseMappings := by
  unfold joinable Expr.orEmpty
  split
  · rfl
  · rw [coalesce, binary, Expr.eraseMappings, Expr.eraseMappings, eraseMappings_applyMapping,
      eraseMappings_applyMapping]
    rfl

end Catalog

namespace Rule

variable {catalog : Catalog} {options : Options} {call : AggregateCall} {e : Expr}

/-- **Nothing of a source is dropped.**  Whatever its method, a call that is lowered becomes an
aggregate, or for a join of strings a `COALESCE` over one, that drops repeated values, filters and
sorts as the source does; its result may be null, and its arguments are those that the call gives,
mappings apart, of which only the separator of a join makes the result null. -/
theorem aggregates_carry (h : (aggregates catalog options).lower call = .lowered e) :
    ∃ callee args given, call.given? = some given ∧
      e.rootAggregate? = some (.aggregate callee args call.source.distinct call.source.filter
        call.source.orderings) ∧
      e.isBinary .coalesce = call.method.isJoin ∧
      callee.nullable = true ∧ callee.propagates = given.map (·.2) ∧
      args.map Expr.eraseMappings = given.map (·.1.eraseMappings) := by
  obtain ⟨selector, hselector, h⟩ := aggregates_offers h
  rcases h with ⟨separator, hjoin, rfl⟩ | ⟨hplain, name, -, type, mapping, rfl⟩ |
    ⟨hobject, name, type, mapping, key, value, rfl, rfl⟩
  · obtain ⟨hmethod, separator', hseparator, hgiven⟩ :=
      AggregateCall.given_of_joinsWith hselector hjoin
    refine ⟨_, _, _, hgiven, rfl, hmethod.symm, rfl, rfl, ?_⟩
    simp only [List.map_cons, List.map_nil, hseparator, Catalog.eraseMappings_applyDefault]
    rw [← Catalog.eraseMappings_joinable catalog]
    rfl
  · obtain ⟨hmethod, hgiven⟩ := AggregateCall.given_of_isPlain hselector hplain
    refine ⟨_, _, _, hgiven, rfl, hmethod.symm, rfl, rfl, ?_⟩
    simp only [List.map_cons, List.map_nil, Catalog.eraseMappings_applyDefault]
  · obtain ⟨hmethod, hgiven⟩ := AggregateCall.given_of_object hselector hobject
    refine ⟨_, _, _, hgiven, rfl, hmethod.symm, rfl, rfl, ?_⟩
    simp only [List.map_cons, List.map_nil, Catalog.eraseMappings_applyDefault]

/-- The distinct tags of the paid rows between commas, the last first. -/
def distinctTags : AggregateCall :=
  { Registry.paidTags with source := { Registry.paidTags.source with distinct := true } }

/-- Under `COALESCE`, the join of the tags keeps `DISTINCT`, the filter and the order. -/
theorem aggregates_carry_distinctTags :
    ∃ e callee args, (aggregates ⟨false, []⟩ {}).lower distinctTags = .lowered e ∧
      e.rootAggregate? = some (.aggregate callee args true distinctTags.source.filter
        distinctTags.source.orderings) ∧
      e.isBinary .coalesce = true ∧ callee.propagates = [false, true] := by
  have h : (aggregates ⟨false, []⟩ {}).lower distinctTags = .lowered _ := rfl
  obtain ⟨callee, args, given, hgiven, hroot, hjoin, -, hpropagates, -⟩ := aggregates_carry h
  cases hgiven
  exact ⟨_, callee, args, h, hroot, hjoin, hpropagates⟩

end Rule

end PgFragment
