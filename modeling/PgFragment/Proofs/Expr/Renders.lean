import PgFragment.Expr.Inferred
import PgFragment.Proofs.Expr.FilterFolding

namespace PgFragment

/-!
# Expressions that render

When an expression has a text, said without the text, and what the builders that infer mappings
make of expressions that have one.

* `Expr.renders_iff` — a node renders exactly when its parts do and nothing that the node itself
  writes is missing.
* `Expr.Renders.render_withMapping` — an expression that renders without a mapping is written alike
  under any.
* `Catalog.renders_binary` and the lemmas beside it — each builder gives an expression that renders
  from parts that do; only a cast asks for more, namely a mapping of its target.
-/

namespace Expr

/-- The expression has a text. -/
def Renders (flavor : Flavor) (e : Expr) : Prop := ∃ text, e.render flavor = .ok text

/-- The node has what it writes itself: the store type of a cast, the literal of a constant, and on
Redshift an argument for the filter of an aggregate. -/
def WritesItself (flavor : Flavor) : Expr → Prop
  | .cast _ _ mapping => mapping ≠ none
  | .constant value mapping => ∃ text, constantText value mapping = .ok text
  | e => flavor = .redshift → e.isBareFiltered = false

variable {flavor : Flavor} {e : Expr}

/-! ### One node -/

section Node

open Success

/-- An operand has a text as soon as the expression does. -/
theorem Renders.operand (h : e.Renders flavor) :
    ∃ text, e.asOperand <$> e.render flavor = .ok text := by
  obtain ⟨t, ht⟩ := h
  exact ⟨e.asOperand t, map_eq_ok_iff.2 ⟨t, ht, rfl⟩⟩

/-- An aggregate renders when its parts do and its filter can be written. -/
theorem renders_aggregate {callee : Callee} {args : List Expr} {distinct : Bool}
    {filter : Option Expr} {orderings : List (Expr × Direction)}
    (hargs : ∀ a ∈ args, a.Renders flavor) (hfilter : ∀ test ∈ filter, test.Renders flavor)
    (hkeys : ∀ k ∈ orderings, k.1.Renders flavor)
    (hself : flavor = .redshift → (aggregate callee args distinct filter orderings).isBareFiltered
      = false) :
    (aggregate callee args distinct filter orderings).Renders flavor := by
  obtain ⟨as, has⟩ := exists_map_eq_ok hargs
  obtain ⟨f, hf⟩ := exists_option_map_eq_ok hfilter
  have hkeys : ∀ k ∈ orderings, ∃ t, Rendered.sortKey (k.1.render flavor) k.2 = .ok t := by
    intro k hk
    exact Rendered.exists_sortKey_eq_ok_iff.2 (hkeys k hk)
  obtain ⟨ks, hks⟩ := exists_map_eq_ok hkeys
  unfold Renders
  rw [render, renderEach_eq_map, renderOption_eq_map, renderKeys_eq_map, hks]
  cases flavor with
  | postgresql =>
    rw [has, hf]
    exact ⟨_, Rendered.aggregate_postgresql_eq_ok_iff.2 ⟨as, ks, f, rfl, rfl, rfl, rfl⟩⟩
  | redshift =>
    cases filter with
    | none =>
      rw [has, Option.map_none, Rendered.aggregate_none]
      exact ⟨_, Rendered.aggregate_postgresql_eq_ok_iff.2 ⟨as, ks, none, rfl, rfl, rfl, rfl⟩⟩
    | some test =>
      -- The filter becomes the test of a clause whose result is the first argument.
      have hne : args ≠ [] := by
        rintro rfl
        exact absurd (hself rfl) (by simp [isBareFiltered])
      obtain ⟨first, rest, rfl⟩ := List.exists_cons_of_ne_nil hne
      obtain ⟨t, ht⟩ := hfilter test rfl
      obtain ⟨a, ha⟩ := hargs first List.mem_cons_self
      obtain ⟨bs, hbs⟩ := exists_map_eq_ok fun b hb => hargs b (List.mem_cons_of_mem first hb)
      have hclause := Rendered.clause_eq_ok_iff.2 ⟨t, a, ht, ha, rfl⟩
      have hcase : ∃ c, Rendered.case none [Rendered.clause (test.render .redshift)
          (first.render .redshift)] none = .ok c :=
        ⟨_, Rendered.case_eq_ok_iff.2 ⟨none, [_], none, rfl, congrArg (fun c => [c]) hclause, rfl,
          rfl⟩⟩
      obtain ⟨c, hcase⟩ := hcase
      rw [List.map_cons, Option.map_some, Rendered.aggregate_redshift_some, hcase, hbs]
      exact ⟨_, Rendered.aggregate_postgresql_eq_ok_iff.2
        ⟨c :: bs, ks, none, rfl, rfl, rfl, rfl⟩⟩

/-- **A node renders exactly when its parts do** and it has what it writes itself. -/
theorem renders_iff :
    e.Renders flavor ↔ e.WritesItself flavor ∧ ∀ p ∈ e.parts, p.Renders flavor := by
  constructor
  · intro h
    refine ⟨?_, ?_⟩
    · cases e with
      | cast operand type mapping =>
        rintro rfl
        obtain ⟨text, h⟩ := h
        simp [render] at h
      | constant value mapping =>
        obtain ⟨text, h⟩ := h
        exact ⟨text, by rwa [render] at h⟩
      | aggregate callee args distinct filter orderings =>
        intro hflavor
        subst hflavor
        -- What has a text is no filter without an argument, which fails.
        cases hbare : (aggregate callee args distinct filter orderings).isBareFiltered with
        | false => rfl
        | true =>
          obtain ⟨cause, hcause⟩ := exists_render_eq_error hbare
          obtain ⟨text, h⟩ := h
          rw [hcause] at h
          cases h
      | _ => exact fun _ => rfl
    · intro p hp
      obtain ⟨text, h⟩ := h
      exact exists_render_of_mem_parts h hp
  · rintro ⟨hself, hp⟩
    cases e with
    | aggregate callee args distinct filter orderings =>
      simp only [parts, List.mem_append, Option.mem_toList, List.mem_map] at hp
      exact renders_aggregate (fun a ha => hp a (.inl (.inl ha))) (fun a ha => hp a (.inl (.inr ha)))
        (fun k hk => hp k.1 (.inr ⟨k, hk, rfl⟩)) hself
    | binary op lhs rhs mapping =>
      have hl := hp lhs (by simp [parts])
      have hr := hp rhs (by simp [parts])
      unfold Renders
      rw [render]
      split
      · obtain ⟨l, hl⟩ := hl
        obtain ⟨r, hr⟩ := hr
        exact ⟨_, Rendered.call_eq_ok_iff.2 ⟨[l, r], by rw [hl, hr]; rfl, rfl⟩⟩
      · obtain ⟨l, hl⟩ := hl.operand
        obtain ⟨r, hr⟩ := hr.operand
        exact ⟨_, Rendered.joined_eq_ok_iff.2 ⟨l, r, hl, hr, rfl⟩⟩
    | case operand whens otherwise mapping =>
      simp only [parts, List.mem_append, Option.mem_toList, List.mem_flatMap, List.mem_cons,
        List.not_mem_nil, or_false] at hp
      have hwhens : ∀ w ∈ whens,
          ∃ t, Rendered.clause (w.1.render flavor) (w.2.render flavor) = .ok t := by
        intro w hw
        obtain ⟨t, ht⟩ := hp w.1 (.inl (.inr ⟨w, hw, .inl rfl⟩))
        obtain ⟨r, hr⟩ := hp w.2 (.inl (.inr ⟨w, hw, .inr rfl⟩))
        exact ⟨_, Rendered.clause_eq_ok_iff.2 ⟨t, r, ht, hr, rfl⟩⟩
      obtain ⟨o, ho⟩ := exists_option_map_eq_ok fun a ha => (hp a (.inl (.inl ha))).operand
      obtain ⟨cs, hcs⟩ := exists_map_eq_ok hwhens
      obtain ⟨t, ht⟩ := exists_option_map_eq_ok fun a ha => hp a (.inr ha)
      unfold Renders
      rw [render, renderOperand_eq_map, renderClauses_eq_map, renderOption_eq_map]
      exact ⟨_, Rendered.case_eq_ok_iff.2 ⟨o, cs, t, ho, hcs, ht, rfl⟩⟩
    | cast operand type mapping =>
      obtain ⟨t, ht⟩ := (hp operand (by simp [parts])).operand
      obtain ⟨m, rfl⟩ := Option.ne_none_iff_exists'.1 hself
      unfold Renders
      rw [render]
      exact ⟨_, map_eq_ok_iff.2 ⟨t, ht, rfl⟩⟩
    | column col => exact ⟨_, by rw [render]⟩
    | constant value mapping =>
      obtain ⟨text, h⟩ := hself
      exact ⟨text, by rw [render, h]⟩
    | func callee args =>
      obtain ⟨as, has⟩ := exists_map_eq_ok hp
      unfold Renders
      rw [render, renderEach_eq_map]
      exact ⟨_, Rendered.call_eq_ok_iff.2 ⟨as, has, rfl⟩⟩
    | jsonPath document steps asText type mapping =>
      simp only [parts, List.mem_cons] at hp
      obtain ⟨d, hd⟩ := (hp document (.inl rfl)).operand
      obtain ⟨ss, hss⟩ := exists_map_eq_ok fun a ha => hp a (.inr ha)
      unfold Renders
      rw [render, renderEach_eq_map]
      exact ⟨_, Rendered.jsonPath_eq_ok_iff.2 ⟨d, ss, hd, hss, rfl⟩⟩
    | like subject pattern escape ignoreCase mapping =>
      simp only [parts, List.mem_append, List.mem_cons, List.not_mem_nil, or_false,
        Option.mem_toList] at hp
      obtain ⟨l, hl⟩ := (hp subject (.inl (.inl rfl))).operand
      obtain ⟨r, hr⟩ := (hp pattern (.inl (.inr rfl))).operand
      obtain ⟨t, ht⟩ := exists_option_map_eq_ok fun a ha => hp a (.inr ha)
      unfold Renders
      simp only [render, bind_eq_ok_iff, renderOption_eq_map, Rendered.joined_eq_ok_iff,
        Rendered.optional_eq_ok_iff]
      exact ⟨_, _, ⟨l, r, hl, hr, rfl⟩, _, ⟨t, ht, rfl⟩, rfl⟩
    | not operand mapping =>
      obtain ⟨t, ht⟩ := (hp operand (by simp [parts])).operand
      unfold Renders
      rw [render]
      exact ⟨_, map_eq_ok_iff.2 ⟨t, ht, rfl⟩⟩
    | row values =>
      obtain ⟨as, has⟩ := exists_map_eq_ok hp
      unfold Renders
      rw [render, renderEach_eq_map]
      exact ⟨_, Rendered.call_eq_ok_iff.2 ⟨as, has, rfl⟩⟩

end Node

/-! ### Giving a mapping -/

theorem asOperand_withMapping (mapping : Option Mapping) (e : Expr) :
    (e.withMapping mapping).asOperand = e.asOperand := by
  cases e <;> rfl

/-- **A mapping for an expression that has none changes no text.**  A cast without a mapping has no
text to be changed, and the only constant that has one is null, which is written alike under every
mapping. -/
theorem Renders.render_withMapping (h : e.Renders flavor) (hnone : e.mapping = none)
    (mapping : Option Mapping) : (e.withMapping mapping).render flavor = e.render flavor := by
  have hself := (renders_iff.1 h).1
  cases e with
  | cast operand type m => exact absurd hnone hself
  | constant value m =>
    obtain rfl : m = none := hnone
    obtain ⟨text, ht⟩ := hself
    rw [constantText] at ht
    split at ht
    · next hnull =>
      cases mapping with
      | none => rfl
      | some m =>
        rw [Expr.withMapping, render, render, constantText, constantText, if_pos hnull,
          m.literal_of_isNull hnull]
    · cases ht
  | _ => rfl

end Expr

namespace Catalog

variable {catalog : Catalog} {flavor : Flavor} {e lhs rhs : Expr}

/-- An expression that renders keeps its text under the default mapping of its type. -/
theorem render_applyDefault (h : e.Renders flavor) :
    (catalog.applyDefault e).render flavor = e.render flavor := by
  unfold applyDefault
  split
  · rfl
  · next hnone =>
    simp only [Bool.or_eq_true, not_or, Bool.not_eq_true, Option.isSome_eq_false_iff,
      Option.isNone_iff_eq_none] at hnone
    exact h.render_withMapping hnone.1 _

/-- The same of a mapping that is proposed. -/
theorem render_applyMapping (h : e.Renders flavor) (proposed : Option Mapping) :
    (catalog.applyMapping proposed e).render flavor = e.render flavor := by
  unfold applyMapping
  split
  · rfl
  · next hnone =>
    split
    · exact h.render_withMapping (by simpa using hnone) _
    · exact render_applyDefault h

theorem renders_applyDefault (h : e.Renders flavor) : (catalog.applyDefault e).Renders flavor := by
  unfold Expr.Renders
  rwa [render_applyDefault h]

theorem renders_applyMapping (h : e.Renders flavor) (proposed : Option Mapping) :
    (catalog.applyMapping proposed e).Renders flavor := by
  unfold Expr.Renders
  rwa [render_applyMapping h]

/-! ### Constants -/

/-- A constant renders under the default mapping of its type, if that has a literal for it. -/
theorem renders_constant {value : Value} {m : Mapping} {text : String}
    (hm : catalog.findByType value.type = some m) (ht : m.literal value = .ok text) :
    (catalog.constant value).Renders flavor := by
  refine ⟨text, ?_⟩
  rw [constant_eq, hm, Expr.render, Expr.constantText, ht]

theorem renders_text (s : String) : (catalog.text s).Renders flavor :=
  renders_constant rfl rfl

theorem renders_bool (b : Bool) : (catalog.constant (.bool b)).Renders flavor :=
  renders_constant rfl rfl

/-! ### Builders -/

theorem renders_binary (op : BinaryOp) (hl : lhs.Renders flavor) (hr : rhs.Renders flavor) :
    (catalog.binary op lhs rhs).Renders flavor := by
  refine Expr.renders_iff.2 ⟨fun _ => rfl, ?_⟩
  intro p hp
  simp only [binary, Expr.parts, List.mem_cons, List.not_mem_nil, or_false] at hp
  rcases hp with rfl | rfl
  · exact renders_applyMapping hl _
  · exact renders_applyMapping hr _

/-- Rows that render give a comparison that renders, whatever mappings the positions share. -/
theorem renders_rowComparison (op : BinaryOp) {lhs rhs : List Expr}
    (hl : ∀ e ∈ lhs, e.Renders flavor) (hr : ∀ e ∈ rhs, e.Renders flavor) :
    (catalog.rowComparison op lhs rhs).Renders flavor := by
  have hrow : ∀ values : List Expr, (∀ e ∈ values, e.Renders flavor) →
      (Expr.row values).Renders flavor := by
    intro values h
    exact Expr.renders_iff.2 ⟨fun _ => rfl, h⟩
  refine Expr.renders_iff.2 ⟨fun _ => rfl, ?_⟩
  intro p hp
  simp only [rowComparison, Expr.parts, List.mem_cons, List.not_mem_nil, or_false] at hp
  rcases hp with rfl | rfl
  · apply hrow
    intro e he
    obtain ⟨pair, hpair, rfl⟩ := List.mem_map.1 he
    exact renders_applyMapping (hl pair.1 (List.of_mem_zip hpair).1) _
  · apply hrow
    intro e he
    obtain ⟨pair, hpair, rfl⟩ := List.mem_map.1 he
    exact renders_applyMapping (hr pair.2 (List.of_mem_zip hpair).2) _

theorem renders_case {whens : List (Expr × Expr)} {otherwise : Option Expr}
    (hw : ∀ w ∈ whens, w.1.Renders flavor ∧ w.2.Renders flavor)
    (ho : ∀ e ∈ otherwise, e.Renders flavor) : (catalog.case whens otherwise).Renders flavor := by
  refine Expr.renders_iff.2 ⟨fun _ => rfl, ?_⟩
  intro p hp
  simp only [case, Expr.withMapping, Expr.parts, List.mem_append, Option.mem_toList,
    List.mem_flatMap, List.mem_map, List.mem_cons, List.not_mem_nil, or_false,
    Option.map_eq_some_iff] at hp
  rcases hp with (hp | ⟨_, ⟨w, hwhen, rfl⟩, rfl | rfl⟩) | ⟨e, he, rfl⟩
  · cases hp
  · exact renders_applyDefault (hw w hwhen).1
  · exact renders_applyMapping (hw w hwhen).2 _
  · exact renders_applyMapping (ho e he) _

/-- **A cast renders exactly when its target has a mapping**, given or by default. -/
theorem renders_convert_iff (h : e.Renders flavor) {type : HostType} {mapping : Option Mapping} :
    (catalog.convert e type mapping).Renders flavor ↔
      mapping.or (catalog.findByType type) ≠ none := by
  constructor
  · intro hr
    exact (Expr.renders_iff.1 hr).1
  · intro hm
    refine Expr.renders_iff.2 ⟨hm, ?_⟩
    intro p hp
    obtain rfl := List.mem_singleton.1 hp
    exact renders_applyDefault h

theorem renders_function (callee : Callee) {args : List Expr} (h : ∀ a ∈ args, a.Renders flavor) :
    (catalog.function callee args).Renders flavor := by
  refine Expr.renders_iff.2 ⟨fun _ => rfl, ?_⟩
  intro p hp
  obtain ⟨a, ha, rfl⟩ := List.mem_map.1 hp
  exact renders_applyDefault (h a ha)

theorem renders_functionOf (callee : Callee) (h : e.Renders flavor) :
    (catalog.function callee [e]).Renders flavor := by
  refine renders_function callee ?_
  intro a ha
  rwa [List.mem_singleton.1 ha]

theorem renders_functionOfBoth (callee : Callee) (hl : lhs.Renders flavor)
    (hr : rhs.Renders flavor) : (catalog.function callee [lhs, rhs]).Renders flavor := by
  refine renders_function callee ?_
  intro a ha
  simp only [List.mem_cons, List.not_mem_nil, or_false] at ha
  rcases ha with rfl | rfl
  · exact hl
  · exact hr

/-- With an argument for its filter an aggregate renders in either dialect. -/
theorem renders_aggregate (callee : Callee) {args : List Expr} {source : RowSource}
    (hne : args ≠ []) (hargs : ∀ a ∈ args, a.Renders flavor)
    (hfilter : ∀ test ∈ source.filter, test.Renders flavor)
    (hkeys : ∀ k ∈ source.orderings, k.1.Renders flavor) :
    (catalog.aggregate callee args source).Renders flavor := by
  refine Expr.renders_aggregate ?_ hfilter hkeys ?_
  · intro p hp
    obtain ⟨a, ha, rfl⟩ := List.mem_map.1 hp
    exact renders_applyDefault (hargs a ha)
  · intro _
    cases args with
    | nil => exact absurd rfl hne
    | cons first rest => exact Bool.and_false _

theorem renders_ilike {subject pattern : Expr} {escape : Option Expr}
    (hs : subject.Renders flavor) (hp : pattern.Renders flavor)
    (he : ∀ e ∈ escape, e.Renders flavor) :
    (catalog.ilike subject pattern escape).Renders flavor := by
  refine Expr.renders_iff.2 ⟨fun _ => rfl, ?_⟩
  intro p hpart
  simp only [ilike, Expr.parts, List.mem_append, List.mem_cons, List.not_mem_nil, or_false,
    Option.mem_toList, Option.map_eq_some_iff] at hpart
  rcases hpart with (rfl | rfl) | ⟨e, hesc, rfl⟩
  · exact renders_applyMapping hs _
  · exact renders_applyMapping hp _
  · exact renders_applyMapping (he e hesc) _

theorem renders_jsonPath {document : Expr} {steps : List Expr} (hd : document.Renders flavor)
    (hs : ∀ e ∈ steps, e.Renders flavor) (asText : Bool) (type : HostType)
    (mapping : Option Mapping) :
    (catalog.jsonPath document steps asText type mapping).Renders flavor := by
  refine Expr.renders_iff.2 ⟨fun _ => rfl, ?_⟩
  intro p hp
  simp only [jsonPath, Expr.parts, List.mem_cons, List.mem_map] at hp
  rcases hp with rfl | ⟨e, he, rfl⟩
  · exact hd
  · exact renders_applyDefault (hs e he)

end Catalog

end PgFragment
