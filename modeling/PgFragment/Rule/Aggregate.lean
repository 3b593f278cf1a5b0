import PgFragment.Call.Aggregate
import PgFragment.Rule.Basic

namespace PgFragment

/-!
# Aggregates

String joins and the aggregates of the database.  All of them give null over no rows, so that every
result may be null, and none of them is null for the sake of one null among its arguments.  They
carry over whether the source is distinct, its filter and its order.
-/

namespace Catalog

variable (catalog : Catalog)

/-- An aggregate of one argument over the rows of a call. -/
def aggregateOf (name : String) (call : AggregateCall) (selector : Expr) (type : HostType)
    (mapping : Option Mapping) : Expr :=
  catalog.aggregate { name, nullable := true, propagates := [false], type, mapping } [selector]
    call.source

/-- The selected strings joined.  The aggregate skips nulls and is null over no rows, where the host
takes null as the empty string and gives an empty string: both are made up for. -/
def stringJoin (call : AggregateCall) (selector separator : Expr) : Expr :=
  let selector :=
    if selector.isNonNullableColumn then selector else catalog.coalesce selector (catalog.text "")
  let joined := catalog.aggregate
    { name := "string_agg", nullable := true, propagates := [false, true], type := .string,
      mapping := some .text }
    [selector, separator] call.source
  catalog.coalesce joined (catalog.text "")

/-- A JSON object of the two values of a row. -/
def lowerObjectAggregate (name storeType : String) (call : AggregateCall) (selector : Expr) :
    Outcome :=
  match selector with
  | .row [key, value] =>
    .lowered (catalog.aggregate
      { name, nullable := true, propagates := [false, false], type := call.returnType,
        mapping := catalog.findFor call.returnType storeType }
      [key, value] call.source)
  | _ => .pass

/-- A JSON array of the selected values. -/
def jsonArray (name storeType : String) (call : AggregateCall) (selector : Expr) : Expr :=
  catalog.aggregateOf name call selector (.array selector.type)
    (catalog.findFor (.array selector.type) storeType)

/-- An aggregate whose result is of the same type as the values, and stored like them. -/
def sameTyped (name : String) (call : AggregateCall) (selector : Expr) : Expr :=
  catalog.aggregateOf name call selector selector.type selector.mapping

end Catalog

/-- Lowers string joins and the aggregates of the database.  `range_agg` came with version 14. -/
def Rule.aggregates (catalog : Catalog) (options : Options) : Rule AggregateCall where
  name := "pgtranslate::translator::misc_aggregate::MiscAggregateMethodTranslator"
  lower call :=
    match call.source.selector with
    | none => .pass
    | some selector =>
      match call.method with
      | .stringJoin =>
        match call.args with
        | [] => .pass
        | separator :: _ => .lowered (catalog.stringJoin call selector separator)
      | .stringConcat => .lowered (catalog.stringJoin call selector (catalog.text ""))
      | .arrayAgg =>
        .lowered (catalog.aggregateOf "array_agg" call selector (.array selector.type)
          (selector.mapping.map Mapping.arrayOf))
      | .jsonAgg => .lowered (catalog.jsonArray "json_agg" "json" call selector)
      | .jsonbAgg => .lowered (catalog.jsonArray "jsonb_agg" "jsonb" call selector)
      | .rangeAgg =>
        if options.supports ⟨14, 0⟩ then
          .lowered (catalog.aggregateOf "range_agg" call selector (.array selector.type)
            (catalog.findByType (.array selector.type)))
        else
          .declined (some "range_agg requires PostgreSQL 14; leaving the aggregate to the client")
      | .rangeIntersectAgg => .lowered (catalog.sameTyped "range_intersect_agg" call selector)
      | .sum => .lowered (catalog.sameTyped "sum" call selector)
      | .average => .lowered (catalog.sameTyped "avg" call selector)
      | .jsonObjectAgg => catalog.lowerObjectAggregate "json_object_agg" "json" call selector
      | .jsonbObjectAgg => catalog.lowerObjectAggregate "jsonb_object_agg" "jsonb" call selector
      | .other => .pass

end PgFragment
