import PgFragment.Proofs.Mapping.CanonicalNames
import PgFragment.Proofs.Mapping.DefaultMappings
import PgFragment.Proofs.Rule.CarriedSource

namespace PgFragment

/-!
# How the results of aggregates are stored

An aggregate has a type of its own, and the mapping of its result is found by one of five ways: it is
that of text, an array over that of the selected values, theirs as it is, a document for values of the
type, or the default of the type.  Each of them gives a mapping of the type of the result.

* `Expr.FitsType` — the mapping of an expression is for values of its type.
* `Catalog.findByName_of_mem_builtin`, `Catalog.isSome_findFor` — documents are found for every type.
* `AggregateCall.Stores` — the five ways.
* `Registry.mapping_of_aggregates` — which aggregates have a mapping, and that it fits.
-/

/-- The mapping of the expression, if it has one, is for values of its type. -/
def Expr.FitsType (e : Expr) : Prop := ∀ m ∈ e.mapping, m.type = e.type

/-! ### Looking up for values of a type -/

namespace Catalog

variable {catalog : Catalog} {type : HostType} {name : String} {m : Mapping}

/-- **Built-in mappings are found by their own names**, whatever enumerations are registered. -/
theorem findByName_of_mem_builtin (catalog : Catalog) (h : m ∈ builtinScalars ++ builtinRanges) :
    catalog.findByName m.storeType = some m := by
  obtain ⟨hentry, hread⟩ := entry_of_mem_builtin catalog h
  have hself : m.Refaceted m := ⟨rfl, hentry.bare, hentry.settled⟩
  have hsuffix : false = false → ¬['[', ']'] <:+ m.baseStoreType.toList :=
    (hread [] false).unsuffixed rfl
  simpa using hentry.findByName_storeType_append hself hsuffix

/-- What is found for values of a type is of that type. -/
theorem type_of_findFor (h : catalog.findFor type name = some m) : m.type = type := by
  obtain ⟨found, -, h⟩ := Option.bind_eq_some_iff.1 h
  split at h
  · next htype =>
    cases h
    exact htype
  · split at h
    · cases h
      exact Mapping.type_withType found type
    · cases h

/-- **Documents are found for values of every type.** -/
theorem isSome_findFor (hm : catalog.findByName name = some m) (hjson : m.kind.isJson = true)
    (type : HostType) : (catalog.findFor type name).isSome = true := by
  rw [findFor, hm, Option.bind_eq_bind, Option.bind_some]
  by_cases htype : m.type = type
  · rw [if_pos htype]
    rfl
  · rw [if_neg htype, if_pos hjson]
    rfl

end Catalog

/-! ### The ways to a mapping -/

namespace AggregateMethod

/-- The aggregate makes JSON. -/
def isDocument : AggregateMethod → Bool
  | .jsonAgg | .jsonbAgg | .jsonObjectAgg | .jsonbObjectAgg => true
  | _ => false

/-- The result of the aggregate is of the type of the values and stored like them. -/
def isSameTyped : AggregateMethod → Bool
  | .rangeIntersectAgg | .sum | .average => true
  | _ => false

/-- What is stored in a way of its own is not stored after its values. -/
theorem not_storedAfterValues {method : AggregateMethod}
    (h : method.isJoin = true ∨ method.isDocument = true) :
    ¬(method = .arrayAgg ∨ method.isSameTyped = true) := by
  cases method <;> revert h <;> decide

end AggregateMethod

namespace AggregateCall

open AggregateMethod (not_storedAfterValues)

/-- How the result of an aggregate over the values of a selector comes to its type and its
mapping. -/
inductive Stores (catalog : Catalog) (call : AggregateCall) (selector : Expr) :
    HostType → Option Mapping → Prop
  /-- Joined strings are text, whatever strings they are joined from. -/
  | text (h : call.method.isJoin = true) : Stores catalog call selector .string (some .text)
  /-- Documents are found by name for values of the type. -/
  | document (h : call.method.isDocument = true) {m : Mapping} (hm : m ∈ [.json, .jsonb])
      (type : HostType) : Stores catalog call selector type (catalog.findFor type m.storeType)
  | same (h : call.method.isSameTyped = true) :
      Stores catalog call selector selector.type selector.mapping
  | arrayOf (h : call.method = .arrayAgg) :
      Stores catalog call selector (.array selector.type) (selector.mapping.map .arrayOf)
  | default (h : call.method = .rangeAgg) :
      Stores catalog call selector (.array selector.type)
        (catalog.findByType (.array selector.type))

namespace Stores

variable {catalog : Catalog} {call : AggregateCall} {selector : Expr} {type : HostType}
  {mapping : Option Mapping}

/-- **Every way leads to a mapping of the type of the result**, as long as the mapping of the values
is of theirs. -/
theorem type_of_mem (h : call.Stores catalog selector type mapping) (hs : selector.FitsType) :
    ∀ m ∈ mapping, m.type = type := by
  intro m hm
  cases h with
  | text _ =>
    cases hm
    rfl
  | document _ _ _ => exact Catalog.type_of_findFor hm
  | same _ => exact hs m hm
  | arrayOf _ =>
    obtain ⟨element, helement, rfl⟩ := Option.map_eq_some_iff.1 hm
    exact congrArg HostType.array (hs element helement)
  | default _ => exact Catalog.type_of_findByType hm

/-- Text and documents have a mapping. -/
theorem isSome_of_isJoin_or_isDocument (h : call.Stores catalog selector type mapping)
    (hmethod : call.method.isJoin = true ∨ call.method.isDocument = true) :
    mapping.isSome = true := by
  cases h with
  | text _ => rfl
  | document _ hm type =>
    have hbuiltin : ∀ m ∈ [Mapping.json, Mapping.jsonb],
        m ∈ builtinScalars ++ builtinRanges ∧ m.kind.isJson = true := by
      decide
    obtain ⟨hmem, hjson⟩ := hbuiltin _ hm
    exact Catalog.isSome_findFor (catalog.findByName_of_mem_builtin hmem) hjson type
  | same h => exact absurd (.inr h) (not_storedAfterValues hmethod)
  | arrayOf h => exact absurd (.inl h) (not_storedAfterValues hmethod)
  | default h =>
    rw [h] at hmethod
    exact absurd hmethod (by decide)

/-- What is stored after its values has a mapping when they have one. -/
theorem isSome_iff_of_storedAfterValues (h : call.Stores catalog selector type mapping)
    (hmethod : call.method = .arrayAgg ∨ call.method.isSameTyped = true) :
    mapping.isSome = true ↔ selector.mapping.isSome = true := by
  cases h with
  | text h => exact absurd hmethod (not_storedAfterValues (.inl h))
  | document h _ _ => exact absurd hmethod (not_storedAfterValues (.inr h))
  | same _ => exact Iff.rfl
  | arrayOf _ => rw [Option.isSome_map]
  | default h =>
    rw [h] at hmethod
    exact absurd hmethod (by decide)

end Stores

end AggregateCall

/-! ### Calls that are lowered -/

namespace Rule

/-- **An aggregate that is lowered is stored in one of the five ways.** -/
theorem aggregates_stores (catalog : Catalog) (options : Options) :
    (aggregates catalog options).Satisfies fun call e =>
      ∃ selector, call.source.selector = some selector ∧
        call.Stores catalog selector e.type e.mapping := by
  intro call e h
  have hobject : ∀ {name : String} {selector : Expr} {m : Mapping},
      call.method.isDocument = true → m ∈ [.json, .jsonb] →
      catalog.lowerObjectAggregate name m.storeType call selector = .lowered e →
      call.Stores catalog selector e.type e.mapping := by
    intro name selector m hmethod hm h
    unfold Catalog.lowerObjectAggregate at h
    split at h
    · cases h
      exact .document hmethod hm call.returnType
    · cases h
  unfold aggregates at h
  dsimp only at h
  split at h
  · cases h
  · next selector hselector =>
    refine ⟨selector, hselector, ?_⟩
    split at h
    · next hmethod =>
      split at h
      · cases h
      · cases h
        exact .text (by rw [hmethod]; rfl)
    · next hmethod =>
      cases h
      exact .text (by rw [hmethod]; rfl)
    · next hmethod =>
      cases h
      exact .arrayOf hmethod
    · next hmethod =>
      cases h
      exact .document (m := .json) (by rw [hmethod]; rfl) (by decide) _
    · next hmethod =>
      cases h
      exact .document (m := .jsonb) (by rw [hmethod]; rfl) (by decide) _
    · next hmethod =>
      split at h
      · cases h
        exact .default hmethod
      · cases h
    · next hmethod =>
      cases h
      exact .same (by rw [hmethod]; rfl)
    · next hmethod =>
      cases h
      exact .same (by rw [hmethod]; rfl)
    · next hmethod =>
      cases h
      exact .same (by rw [hmethod]; rfl)
    · next hmethod => exact hobject (m := .json) (by rw [hmethod]; rfl) (by decide) h
    · next hmethod => exact hobject (m := .jsonb) (by rw [hmethod]; rfl) (by decide) h
    · cases h

end Rule

namespace Registry

variable {catalog : Catalog} {options : Options} {call : AggregateCall} {e : Expr}

/-- **The results of aggregates are stored as what they are.**  Where the mapping of the selected
values is of their type, so is that of the result.  A join of strings and a document always have a
mapping, and an array, a sum, an average and an intersection of ranges have one exactly when the
selected values do. -/
theorem mapping_of_aggregates (h : (aggregates catalog options).lower call = some e) :
    ((∀ selector ∈ call.source.selector, selector.FitsType) → e.FitsType) ∧
      (call.method.isJoin = true ∨ call.method.isDocument = true → e.mapping.isSome = true) ∧
      (call.method = .arrayAgg ∨ call.method.isSameTyped = true →
        (e.mapping.isSome = true ↔ ∃ selector ∈ call.source.selector,
          selector.mapping.isSome = true)) := by
  have hrules : ∀ rule ∈ aggregates catalog options, rule.Satisfies fun call e =>
      ∃ selector, call.source.selector = some selector ∧
        call.Stores catalog selector e.type e.mapping := by
    intro rule hrule
    obtain rfl := List.mem_singleton.1 hrule
    exact Rule.aggregates_stores catalog options
  obtain ⟨selector, hselector, hstores⟩ := satisfies hrules h
  rw [hselector]
  refine ⟨?_, hstores.isSome_of_isJoin_or_isDocument, ?_⟩
  · exact fun hfits => hstores.type_of_mem (hfits selector rfl)
  · intro hmethod
    rw [hstores.isSome_iff_of_storedAfterValues hmethod]
    simp

/-- An aggregate of the moods of the rows. -/
def moodsBy (method : AggregateMethod) (mapping : Option Mapping) : AggregateCall where
  method := method
  source := {
    selector := some (.column { table := "t", name := "mood", type := .enum "mood", mapping }) }
  args := []
  returnType := .array (.enum "mood")

/-- Moods make an array of moods where they are stored as such, and a document of moods even where
they are not stored at all. -/
theorem mapping_of_aggregates_moods :
    (∃ e, (aggregates (.ofOptions {}) {}).lower (moodsBy .arrayAgg (some (.enumeration "mood")))
        = some e ∧ e.type = .array (.enum "mood") ∧ e.FitsType ∧ e.mapping.isSome = true) ∧
      ∃ e, (aggregates (.ofOptions {}) {}).lower (moodsBy .jsonbAgg none) = some e ∧
        e.type = .array (.enum "mood") ∧ e.FitsType ∧ e.mapping.isSome = true := by
  have hstored : (aggregates (.ofOptions {}) {}).lower
      (moodsBy .arrayAgg (some (.enumeration "mood"))) = some _ := rfl
  have hbare : (aggregates (.ofOptions {}) {}).lower (moodsBy .jsonbAgg none) = some _ := rfl
  have hfits : ∀ {method mapping}, mapping ∈ [some (.enumeration "mood"), none] →
      ∀ selector ∈ (moodsBy method mapping).source.selector, selector.FitsType := by
    intro method mapping hmapping selector hselector m hm
    cases hselector
    simp only [List.mem_cons, List.not_mem_nil, or_false] at hmapping
    rcases hmapping with rfl | rfl <;> cases hm
    rfl
  obtain ⟨harray, -, hlike⟩ := mapping_of_aggregates hstored
  obtain ⟨hdocument, halways, -⟩ := mapping_of_aggregates hbare
  refine ⟨⟨_, hstored, rfl, harray (hfits (by simp)), ?_⟩,
    _, hbare, rfl, hdocument (hfits (by simp)), halways (.inr rfl)⟩
  exact (hlike (.inl rfl)).2 ⟨_, rfl, rfl⟩

end Registry

end PgFragment
