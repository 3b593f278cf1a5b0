import PgFragment.Proofs.Mapping.DefaultNames
import PgFragment.Rule.Standard

namespace PgFragment

/-!
# Aggregates of ranges

`range_agg` is stored as the multirange that the type of its ranges has by default, whatever range
they are stored as.  Ranges that share their type with another one do not get the multirange that is
named after them: ranges of dates are of the type of ranges of timestamps.

* `Catalog.mem_builtinRanges_of_finds` — the ranges that a catalog finds, by type or by name.
* `Catalog.exists_findByType_of_mem_builtinRanges` — what is found by the type of a range.
* `Registry.lower_rangeAgg_mapping_iff` — when `range_agg` is stored as the multirange over its range.
-/

variable {r element : Mapping} {options : Options}

/-! ### Ranges that are found -/

theorem Params.bare_eq_self {p : Params} (h : p.Valid) (hform : p.form = .none) : p.bare = p := by
  obtain ⟨type, storeType, form, size, precision, scale, fixedLength, unicode⟩ := p
  obtain ⟨rfl, rfl, rfl⟩ := h.of_none hform
  rfl

/-- A mapping that takes no facets has none but its own. -/
theorem Mapping.Refaceted.eq_of_form {base m : Mapping} (h : base.Refaceted m)
    (hform : base.params.form = .none) : m = base := by
  have hparams : m.params = base.params := by
    rw [← h.params, Params.bare_eq_self h.params_valid (h.form.trans hform)]
  have hkind := h.kind
  cases m <;> cases base <;> cases hkind <;> cases hparams <;> rfl

namespace Catalog

variable {catalog : Catalog}

/-- The mapping is found, by some type or by some name. -/
def Finds (catalog : Catalog) (m : Mapping) : Prop :=
  (∃ type, catalog.findByType type = some m) ∨ ∃ name, catalog.findByName name = some m

theorem outer_of_mem_builtinScalars : ∀ m ∈ builtinScalars, m.kind.outer ≠ .inr .range := by decide

theorem outer_defaultMapping :
    ∀ type ∈ ScalarType.all, type.defaultMapping.kind.outer ≠ .inr .range := by
  decide

theorem form_of_mem_builtinRanges : ∀ m ∈ builtinRanges, m.params.form = .none := by decide

/-- Ranges are found by the types that there are ranges over. -/
theorem mem_builtinRanges_of_findByType {type : HostType} (h : catalog.findByType type = some r)
    (hr : r.kind.outer = .inr .range) : r ∈ builtinRanges := by
  cases type with
  | scalar type =>
    obtain rfl := Option.some.inj h
    exact absurd hr (outer_defaultMapping type type.mem_all)
  | enum name =>
    obtain ⟨-, rfl⟩ := enum?_eq_some_iff.1 h
    cases hr
  | array element =>
    obtain ⟨below, -, hlayer⟩ := exists_isLayer_of_findByType h
    unfold Mapping.IsLayer at hlayer
    split at hlayer <;> rw [hlayer.1] at hr <;> cases hr
  | range element =>
    cases element with
    | scalar type => exact ScalarType.mem_builtinRanges_of_range? h
    | _ => simp [findByType] at h
  | record _ | null => simp [findByType] at h

/-- Ranges are found by the names of built-in ones, and take no facets. -/
theorem mem_builtinRanges_of_findByName {name : String} (h : catalog.findByName name = some r)
    (hr : r.kind.outer = .inr .range) : r ∈ builtinRanges := by
  obtain ⟨base, e, isArray, hbase, he, -, rfl⟩ := exists_entry_of_findByName h
  cases isArray with
  | true => cases hr
  | false =>
    -- Facets keep the kind, so that the entry is a range, too, and no enumeration.
    have hbaseRange : base.kind.outer = .inr .range := he.kind ▸ hr
    have hmem : base ∈ builtinRanges := by
      rcases Option.or_eq_some_iff.1 hbase.found with hfound | ⟨-, henum⟩
      · refine (List.mem_append.1 (List.mem_of_find?_eq_some hfound)).resolve_left ?_
        exact fun hscalar => outer_of_mem_builtinScalars base hscalar hbaseRange
      · rw [(enum?_eq_some_iff.1 henum).2] at hbaseRange
        cases hbaseRange
    exact he.eq_of_form (form_of_mem_builtinRanges base hmem) ▸ hmem

/-- **A range that is found is built in.** -/
theorem mem_builtinRanges_of_finds (h : catalog.Finds r) (hr : r.kind = .container .range element) :
    r ∈ builtinRanges := by
  have houter : r.kind.outer = .inr .range := by rw [hr]; rfl
  rcases h with ⟨type, h⟩ | ⟨name, h⟩
  · exact mem_builtinRanges_of_findByType h houter
  · exact mem_builtinRanges_of_findByName h houter

/-- **What is found by the type of a range** is the range itself, unless it is the one over dates:
a timestamp is the type of a date in the host. -/
theorem exists_findByType_of_mem_builtinRanges (catalog : Catalog) (h : r ∈ builtinRanges) :
    ∃ found ∈ builtinRanges, catalog.findByType r.type = some found ∧
      (found = r ↔ r.element? ≠ some .date) := by
  simp only [builtinRanges, List.mem_cons, List.not_mem_nil, or_false] at h
  rcases h with rfl | rfl | rfl | rfl | rfl | rfl
  -- The last is the range over dates.
  case inr.inr.inr.inr.inr => exact ⟨.rangeOver .timestamp "tsrange", by decide, rfl, by decide⟩
  all_goals exact ⟨_, by decide, rfl, by decide⟩

/-! ### Multiranges -/

theorem element?_multirangeOf (catalog : Catalog) (m : Mapping) :
    (catalog.multirangeOf m).element? = some m := by
  unfold multirangeOf
  split
  · split <;> rfl
  · rfl

/-- A multirange tells its range. -/
theorem multirangeOf_inj {a b : Mapping} :
    catalog.multirangeOf a = catalog.multirangeOf b ↔ a = b := by
  refine ⟨fun h => ?_, congrArg catalog.multirangeOf⟩
  have helement := congrArg Mapping.element? h
  rw [element?_multirangeOf, element?_multirangeOf] at helement
  exact Option.some.inj helement

/-- The names of the built-in ranges tell them. -/
theorem eq_of_baseStoreType_of_mem_builtinRanges {a b : Mapping} (ha : a ∈ builtinRanges)
    (hb : b ∈ builtinRanges) (h : a.baseStoreType = b.baseStoreType) : a = b := by
  have hfound := (found_of_mem_builtin a (List.mem_append_right _ ha)).1
  rw [h, (found_of_mem_builtin b (List.mem_append_right _ hb)).1] at hfound
  exact (Option.some.inj hfound).symm

/-- **The multirange over a range is named after that range alone.** -/
theorem storeType_multirangeOf_iff (hm : catalog.multiranges = true) {found : Mapping}
    (hfound : found ∈ builtinRanges) (hr : r ∈ builtinRanges) {stem : String}
    (hstem : r.baseStoreType = stem ++ "range") :
    (catalog.multirangeOf found).storeType = stem ++ "multirange" ↔ found = r := by
  obtain ⟨-, foundStem, hfoundStem⟩ := storeType_of_mem_builtinRanges hfound
  have hname : (catalog.multirangeOf found).storeType = foundStem ++ "multirange" := by
    rw [multirangeOf_of_append hm hfoundStem]
    rfl
  rw [hname, String.append_left_inj]
  constructor
  · rintro rfl
    exact eq_of_baseStoreType_of_mem_builtinRanges hfound hr (hfoundStem.trans hstem.symm)
  · rintro rfl
    exact (String.append_left_inj _).1 (hfoundStem.symm.trans hstem)

/-- A list of ranges is stored by default as the multirange over what is found by their type. -/
theorem findByType_array_range {type : HostType} {found : Mapping} (hm : catalog.multiranges = true)
    (hrange : type.isRange = true) (h : catalog.findByType type = some found) :
    catalog.findByType (.array type) = some (catalog.multirangeOf found) := by
  rw [findByType, h, Option.map_some, hrange, hm]
  rfl

end Catalog

/-! ### The aggregate -/

namespace Registry

open Catalog

variable {call : AggregateCall} {selector : Expr}

/-- The lowering of `range_agg` looks its mapping up by the type of the selector. -/
theorem lower_rangeAgg (catalog : Catalog) (hversion : options.supports ⟨14, 0⟩ = true)
    (hmethod : call.method = .rangeAgg) (hselector : call.source.selector = some selector) :
    (aggregates catalog options).lower call = some (catalog.aggregateOf "range_agg" call selector
      (.array selector.type) (catalog.findByType (.array selector.type))) := by
  simp [Registry.lower, Registry.claim?, aggregates, Rule.aggregates, hselector, hmethod, hversion,
    Outcome.expr?]

/-- **`range_agg` is stored as the multirange over its range**, and under that multirange's name,
exactly when the range is not over dates. -/
theorem lower_rangeAgg_mapping_iff {names : List String} (hversion : options.supports ⟨14, 0⟩ = true)
    (hmethod : call.method = .rangeAgg) (hselector : call.source.selector = some selector)
    (hmapping : selector.mapping = some r) (htype : selector.type = r.type)
    (hr : r.kind = .container .range element)
    (hfinds : ((ofOptions options).registering names).Finds r) :
    ∃ e m stem, (aggregates ((ofOptions options).registering names) options).lower call = some e ∧
      e.mapping = some m ∧ r.storeType = stem ++ "range" ∧
      (e.mapping = selector.mapping.map ((ofOptions options).registering names).multirangeOf ↔
        element ≠ .date) ∧
      (m.storeType = stem ++ "multirange" ↔ element ≠ .date) := by
  have hmultiranges : ((ofOptions options).registering names).multiranges = true :=
    (multiranges_registering (ofOptions options) names).trans hversion
  have hmem := mem_builtinRanges_of_finds hfinds hr
  obtain ⟨found, hfound, htypeFound, hsame⟩ :=
    exists_findByType_of_mem_builtinRanges ((ofOptions options).registering names) hmem
  have helement : r.element? ≠ some .date ↔ element ≠ .date := by
    cases r with
    | scalar kind params => cases hr
    | container shape e params =>
      obtain ⟨-, rfl⟩ := Kind.container.inj hr
      exact not_congr Option.some_inj
  have hrange : r.type.isRange = true := by
    have hall : ∀ m ∈ builtinRanges, m.type.isRange = true := by decide
    exact hall r hmem
  obtain ⟨hfull, stem, hstem⟩ := storeType_of_mem_builtinRanges hmem
  have hlower := lower_rangeAgg ((ofOptions options).registering names) hversion hmethod hselector
  rw [htype, findByType_array_range hmultiranges hrange htypeFound] at hlower
  refine ⟨_, _, stem, hlower, rfl, hfull.trans hstem, ?_, ?_⟩
  · rw [hmapping, Option.map_some, ← helement, ← hsame, ← multirangeOf_inj]
    exact Option.some_inj
  · rw [storeType_multirangeOf_iff hmultiranges hfound hmem hstem, hsame, helement]

/-- The ranges of a column put together. -/
def rangesDuring (r : Mapping) : AggregateCall where
  method := .rangeAgg
  source := {
    selector := some (.column { table := "t", name := "during", type := r.type, mapping := some r }) }
  args := []
  returnType := .array r.type

/-- Ranges of 64-bit integers are put together as such. -/
theorem lower_rangeAgg_mapping_iff_int8range :
    ((ofOptions {}).registering ["mood"]).Finds (.rangeOver .bigint "int8range") ∧
      ∃ e, (aggregates ((ofOptions {}).registering ["mood"]) {}).lower
          (rangesDuring (.rangeOver .bigint "int8range")) = some e ∧
        e.mapping = some (((ofOptions {}).registering ["mood"]).multirangeOf
          (.rangeOver .bigint "int8range")) ∧
        (((ofOptions {}).registering ["mood"]).multirangeOf
          (.rangeOver .bigint "int8range")).storeType = "int8multirange" := by
  have hfinds : ((ofOptions {}).registering ["mood"]).Finds (.rangeOver .bigint "int8range") :=
    .inl ⟨.range (.int .i64), rfl⟩
  obtain ⟨e, -, -, hlower, -, -, hmapping, -⟩ :=
    @lower_rangeAgg_mapping_iff (.rangeOver .bigint "int8range") .bigint {}
      (rangesDuring (.rangeOver .bigint "int8range")) _ ["mood"] rfl rfl rfl rfl rfl rfl hfinds
  exact ⟨hfinds, e, hlower, hmapping.2 (by decide), by decide +kernel⟩

/-- Ranges of dates, which are found by name, are put together as ranges of timestamps. -/
theorem lower_rangeAgg_daterange :
    (ofOptions {}).findByName "daterange" = some (.rangeOver .date "daterange") ∧
      (∃ e, (aggregates (ofOptions {}) {}).lower (rangesDuring (.rangeOver .date "daterange"))
          = some e ∧ e.mapping.map Mapping.storeType = some "tsmultirange") ∧
      ((ofOptions {}).multirangeOf (.rangeOver .date "daterange")).storeType = "datemultirange" :=
  ⟨by decide +kernel, ⟨_, rfl, by decide +kernel⟩, by decide +kernel⟩

end Registry

end PgFragment
