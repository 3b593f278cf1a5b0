import PgFragment.Proofs.Expr.Rendered

namespace PgFragment.Expr

/-!
# Folding filters away

Redshift writes no `FILTER`.  What it writes instead is said here on expressions: `foldFilters`
turns each filtered aggregate, at any depth, into one without a filter whose first argument is a
`CASE` on the old filter.

* `render_foldFilters` — the Redshift text of an expression is the PostgreSQL text of the folded
  one, failures included.
* `redshift_renders_folded` — together with the two consequences: the dialects agree where nothing
  is filtered, and a filter that has no argument to be folded into makes every expression around it
  fail on Redshift.
-/

/-! ### The folded expression -/

/-- An aggregate whose filter, if it has one, is folded into the first argument; a filter stays
where there is no argument. -/
def foldAggregate (callee : Callee) (args : List Expr) (distinct : Bool) (filter : Option Expr)
    (orderings : List (Expr × Direction)) : Expr :=
  match filter, args with
  | some test, first :: rest =>
    .aggregate callee (.case none [(test, first)] none none :: rest) distinct none orderings
  | filter, args => .aggregate callee args distinct filter orderings

/-- Folds the filter of a node that is an aggregate. -/
def foldNode : Expr → Expr
  | .aggregate callee args distinct filter orderings =>
    foldAggregate callee args distinct filter orderings
  | e => e

mutual

/-- The expression with the filter of every aggregate folded into its first argument. -/
def foldFilters : Expr → Expr
  | .aggregate callee args distinct filter orderings =>
    foldAggregate callee (foldFiltersEach args) distinct (foldFiltersOption filter)
      (foldFiltersKeys orderings)
  | .binary op lhs rhs mapping => .binary op (foldFilters lhs) (foldFilters rhs) mapping
  | .case operand whens otherwise mapping =>
    .case (foldFiltersOption operand) (foldFiltersClauses whens) (foldFiltersOption otherwise)
      mapping
  | .cast operand type mapping => .cast (foldFilters operand) type mapping
  | .column col => .column col
  | .constant value mapping => .constant value mapping
  | .func callee args => .func callee (foldFiltersEach args)
  | .jsonPath document steps asText type mapping =>
    .jsonPath (foldFilters document) (foldFiltersEach steps) asText type mapping
  | .like subject pattern escape ignoreCase mapping =>
    .like (foldFilters subject) (foldFilters pattern) (foldFiltersOption escape) ignoreCase mapping
  | .not operand mapping => .not (foldFilters operand) mapping
  | .row values => .row (foldFiltersEach values)

/-- `foldFilters` on each expression. -/
def foldFiltersEach : List Expr → List Expr
  | [] => []
  | e :: rest => foldFilters e :: foldFiltersEach rest

/-- `foldFilters` on an expression that may be absent. -/
def foldFiltersOption : Option Expr → Option Expr
  | none => none
  | some e => some (foldFilters e)

/-- `foldFilters` on the tests and results of clauses. -/
def foldFiltersClauses : List (Expr × Expr) → List (Expr × Expr)
  | [] => []
  | (test, result) :: rest => (foldFilters test, foldFilters result) :: foldFiltersClauses rest

/-- `foldFilters` on sort keys. -/
def foldFiltersKeys : List (Expr × Direction) → List (Expr × Direction)
  | [] => []
  | (key, direction) :: rest => (foldFilters key, direction) :: foldFiltersKeys rest

end

theorem foldFiltersEach_eq_map (es : List Expr) : foldFiltersEach es = es.map foldFilters := by
  induction es with
  | nil => rfl
  | cons e es ih => simp [foldFiltersEach, ih]

theorem foldFiltersOption_eq_map (e : Option Expr) :
    foldFiltersOption e = e.map foldFilters := by
  cases e <;> rfl

theorem foldFiltersClauses_eq_map (whens : List (Expr × Expr)) :
    foldFiltersClauses whens = whens.map fun w => (foldFilters w.1, foldFilters w.2) := by
  induction whens with
  | nil => rfl
  | cons w whens ih => simp [foldFiltersClauses, ih]

theorem foldFiltersKeys_eq_map (keys : List (Expr × Direction)) :
    foldFiltersKeys keys = keys.map fun k => (foldFilters k.1, k.2) := by
  induction keys with
  | nil => rfl
  | cons k keys ih => simp [foldFiltersKeys, ih]

/-- Folding a tree folds its parts first and then the node. -/
theorem foldFilters_eq (e : Expr) : e.foldFilters = (e.mapParts foldFilters).foldNode := by
  cases e <;> simp only [foldFilters, mapParts, foldNode, foldFiltersEach_eq_map,
    foldFiltersOption_eq_map, foldFiltersClauses_eq_map, foldFiltersKeys_eq_map]

/-! ### Filters within an expression -/

/-- An aggregate with a filter. -/
def isFiltered : Expr → Bool
  | .aggregate _ _ _ filter _ => filter.isSome
  | _ => false

/-- An aggregate with a filter and without arguments. -/
def isBareFiltered : Expr → Bool
  | .aggregate _ args _ filter _ => filter.isSome && args.isEmpty
  | _ => false

/-- Every filter within the expression has an argument to be folded into. -/
def Foldable (e : Expr) : Prop := ∀ a, Within a e → a.isBareFiltered = false

/-- No aggregate within the expression has a filter. -/
def Unfiltered (e : Expr) : Prop := ∀ a, Within a e → a.isFiltered = false

variable {e p : Expr}

/-- Foldability, node by node. -/
theorem foldable_iff : e.Foldable ↔ e.isBareFiltered = false ∧ ∀ p ∈ e.parts, p.Foldable :=
  forall_within_iff

theorem Foldable.of_mem_parts (h : e.Foldable) (hp : p ∈ e.parts) : p.Foldable :=
  (foldable_iff.1 h).2 p hp

theorem Unfiltered.of_mem_parts (h : e.Unfiltered) (hp : p ∈ e.parts) : p.Unfiltered :=
  (forall_within_iff.1 h).2 p hp

theorem isBareFiltered_eq_false (h : e.isFiltered = false) : e.isBareFiltered = false := by
  cases e <;> simp_all [isFiltered, isBareFiltered]

theorem Unfiltered.foldable (h : e.Unfiltered) : e.Foldable := by
  intro a ha
  exact isBareFiltered_eq_false (h a ha)

theorem foldNode_eq_self (h : e.isFiltered = false) : e.foldNode = e := by
  cases e with
  | aggregate callee args distinct filter orderings =>
    obtain rfl : filter = none := by simpa [isFiltered] using h
    rfl
  | _ => rfl

theorem isFiltered_mapParts (f : Expr → Expr) : (e.mapParts f).isFiltered = e.isFiltered := by
  cases e <;> simp [mapParts, isFiltered]

/-- An expression without filters is its own folding. -/
theorem foldFilters_eq_self (h : e.Unfiltered) : e.foldFilters = e := by
  induction e using induction_on_parts with
  | step e ih =>
    have hparts : e.mapParts foldFilters = e := by
      rw [mapParts_congr fun p hp => ih p hp (h.of_mem_parts hp)]
      exact mapParts_id e
    rw [foldFilters_eq, hparts, foldNode_eq_self (h e .self)]

/-! ### Rendering -/

/-- Folding keeps the bracketing of operands, which goes by the kind of a node. -/
theorem asOperand_foldFilters (e : Expr) : e.foldFilters.asOperand = e.asOperand := by
  funext text
  cases e with
  | aggregate callee args distinct filter orderings => cases filter <;> cases args <;> rfl
  | _ => rfl

section Parts

variable {f : Expr → Expr} {flavor flavor' : Flavor}

theorem renderEach_map {es : List Expr} (h : ∀ p ∈ es, (f p).render flavor = p.render flavor') :
    renderEach flavor (es.map f) = renderEach flavor' es := by
  rw [renderEach_eq_map, renderEach_eq_map, List.map_map]
  exact List.map_congr_left h

theorem renderOption_map {o : Option Expr}
    (h : ∀ p ∈ o, (f p).render flavor = p.render flavor') :
    renderOption flavor (o.map f) = renderOption flavor' o := by
  rw [renderOption_eq_map, renderOption_eq_map, Option.map_map]
  exact Option.map_congr h

theorem renderKeys_map {keys : List (Expr × Direction)}
    (h : ∀ k ∈ keys, (f k.1).render flavor = k.1.render flavor') :
    renderKeys flavor (keys.map fun k => (f k.1, k.2)) = renderKeys flavor' keys := by
  rw [renderKeys_eq_map, renderKeys_eq_map, List.map_map]
  apply List.map_congr_left
  intro k hk
  rw [Function.comp_apply, h k hk]

/-- A node without a filter of its own is written alike in both dialects, as soon as its parts
are and keep their bracketing as operands. -/
theorem render_mapParts (hp : ∀ p ∈ e.parts, (f p).render flavor = p.render flavor')
    (ho : ∀ p, (f p).asOperand = p.asOperand) (h : e.isFiltered = false) :
    (e.mapParts f).render flavor = e.render flavor' := by
  cases e with
  | aggregate callee args distinct filter orderings =>
    -- The one node that the dialects write apart; without a filter they do not.
    obtain rfl : filter = none := by simpa [isFiltered] using h
    simp only [parts, List.mem_append, List.mem_map] at hp
    have hargs := renderEach_map fun a ha => hp a (.inl (.inl ha))
    have hkeys := renderKeys_map fun k hk => hp k.1 (.inr ⟨k, hk, rfl⟩)
    rw [mapParts, render, render, hargs, hkeys]
    exact (Rendered.aggregate_none flavor).trans (Rendered.aggregate_none flavor').symm
  | case operand whens otherwise mapping =>
    simp only [parts, List.mem_append, Option.mem_toList, List.mem_flatMap, List.mem_cons,
      List.not_mem_nil, or_false] at hp
    have hoperand : renderOperand flavor (operand.map f) = renderOperand flavor' operand := by
      rw [renderOperand_eq_map, renderOperand_eq_map, Option.map_map]
      apply Option.map_congr
      intro a ha
      rw [Function.comp_apply, ho, hp a (.inl (.inl ha))]
    have hwhens : renderClauses flavor (whens.map fun w => (f w.1, f w.2))
        = renderClauses flavor' whens := by
      rw [renderClauses_eq_map, renderClauses_eq_map, List.map_map]
      apply List.map_congr_left
      intro w hw
      rw [Function.comp_apply, hp w.1 (.inl (.inr ⟨w, hw, .inl rfl⟩)),
        hp w.2 (.inl (.inr ⟨w, hw, .inr rfl⟩))]
    have hotherwise := renderOption_map fun a ha => hp a (.inr ha)
    rw [mapParts, render, render, hoperand, hwhens, hotherwise]
  | like subject pattern escape ignoreCase mapping =>
    simp only [parts, List.mem_append, List.mem_cons, List.not_mem_nil, or_false,
      Option.mem_toList] at hp
    have hescape := renderOption_map fun a ha => hp a (.inr ha)
    rw [mapParts, render, render, ho, ho, hp subject (.inl (.inl rfl)),
      hp pattern (.inl (.inr rfl)), hescape]
  | jsonPath document steps asText type mapping =>
    simp only [parts, List.mem_cons] at hp
    rw [mapParts, render, render, ho, hp document (.inl rfl),
      renderEach_map fun a ha => hp a (.inr ha)]
  | func callee args =>
    simp only [parts] at hp
    rw [mapParts, render, render, renderEach_map hp]
  | row values =>
    simp only [parts] at hp
    rw [mapParts, render, render, renderEach_map hp]
  | binary op lhs rhs mapping =>
    rw [mapParts, render, render, ho, ho, hp lhs (by simp [parts]), hp rhs (by simp [parts])]
  | cast operand type mapping =>
    cases mapping with
    | none => rfl
    | some mapping => rw [mapParts, render, render, ho, hp operand (by simp [parts])]
  | not operand mapping => rw [mapParts, render, render, ho, hp operand (by simp [parts])]
  | column _ => rw [mapParts, render, render]
  | constant _ _ => rw [mapParts, render, render]

end Parts

/-- A filtered aggregate with an argument is written on Redshift as its folding is for
PostgreSQL, as soon as its parts are. -/
theorem render_foldAggregate {callee : Callee} {first test : Expr} {rest : List Expr}
    {distinct : Bool} {orderings : List (Expr × Direction)}
    (hp : ∀ p ∈ (aggregate callee (first :: rest) distinct (some test) orderings).parts,
      p.foldFilters.render .postgresql = p.render .redshift) :
    (foldAggregate callee ((first :: rest).map foldFilters) distinct (some test.foldFilters)
        (orderings.map fun k => (k.1.foldFilters, k.2))).render .postgresql
      = (aggregate callee (first :: rest) distinct (some test) orderings).render .redshift := by
  simp only [parts, List.mem_append, List.mem_cons, Option.mem_toList, List.mem_map] at hp
  have hfirst := hp first (.inl (.inl (.inl rfl)))
  have hrest := renderEach_map fun a ha => hp a (.inl (.inl (.inr ha)))
  have htest := hp test (.inl (.inr rfl))
  have hkeys := renderKeys_map fun k hk => hp k.1 (.inr ⟨k, hk, rfl⟩)
  rw [List.map_cons, foldAggregate, render, render, renderEach, renderEach, hrest, hkeys,
    renderOption, renderOption, Rendered.aggregate_redshift_some, render, renderOperand,
    renderClauses, renderClauses, renderOption, hfirst, htest]

/-- **Redshift writes an expression as PostgreSQL writes its folding**, and fails alike. -/
theorem render_foldFilters (h : e.Foldable) :
    e.foldFilters.render .postgresql = e.render .redshift := by
  induction e using induction_on_parts with
  | step e ih =>
    have hp : ∀ p ∈ e.parts, p.foldFilters.render .postgresql = p.render .redshift := by
      intro p hp
      exact ih p hp (h.of_mem_parts hp)
    -- Either the node itself is folded, or folding only goes on into its parts.
    by_cases hf : e.isFiltered = false
    · rw [foldFilters_eq, foldNode_eq_self (by rw [isFiltered_mapParts, hf])]
      exact render_mapParts hp asOperand_foldFilters hf
    · cases e with
      | aggregate callee args distinct filter orderings =>
        obtain ⟨test, rfl⟩ := Option.isSome_iff_exists.1 (eq_true_of_ne_false hf)
        have hargs : args ≠ [] := by
          rintro rfl
          exact absurd (h _ .self) (by simp [isBareFiltered])
        obtain ⟨first, rest, rfl⟩ := List.exists_cons_of_ne_nil hargs
        rw [foldFilters_eq]
        exact render_foldAggregate hp
      | _ => exact absurd rfl hf

/-- A filter that has no argument to be folded into fails on Redshift. -/
theorem exists_render_eq_error (h : e.isBareFiltered = true) :
    ∃ cause, e.render .redshift = .error cause := by
  cases e with
  | aggregate callee args distinct filter orderings =>
    simp only [isBareFiltered, Bool.and_eq_true, List.isEmpty_iff] at h
    obtain ⟨hfilter, rfl⟩ := h
    obtain ⟨test, rfl⟩ := Option.isSome_iff_exists.1 hfilter
    exact ⟨_, by rw [render, renderOption, renderEach, Rendered.aggregate_redshift_nil]⟩
  | _ => simp [isBareFiltered] at h

/-- **Redshift is PostgreSQL after folding.**  Where every filter has an argument to be folded
into, the Redshift text or failure is that of the folded expression for PostgreSQL; without any
filter the dialects agree; and where some filter has no argument, Redshift fails. -/
theorem redshift_renders_folded (e : Expr) :
    (e.Foldable → e.render .redshift = e.foldFilters.render .postgresql) ∧
    (e.Unfiltered → e.render .redshift = e.render .postgresql) ∧
    (¬ e.Foldable → ∃ cause, e.render .redshift = .error cause) := by
  refine ⟨?_, ?_, ?_⟩
  · intro h
    exact (render_foldFilters h).symm
  · intro h
    rw [← render_foldFilters h.foldable, foldFilters_eq_self h]
  · intro h
    -- The aggregate that cannot be folded fails, wherever it stands.
    obtain ⟨a, ha⟩ := Classical.not_forall.1 h
    obtain ⟨ha, hbare⟩ := Classical.not_imp.1 ha
    obtain ⟨cause, hcause⟩ := exists_render_eq_error (eq_true_of_ne_false hbare)
    cases hr : e.render .redshift with
    | error cause => exact ⟨cause, rfl⟩
    | ok text =>
      -- A text of the whole is put together from texts of all that is within it.
      obtain ⟨t, ht⟩ := exists_render_of_within ha ⟨text, hr⟩
      rw [hcause] at ht
      cases ht

/-- The sum of the paid amounts, compared with a column. -/
def paidTotal : Expr :=
  .binary .gt
    (.aggregate { name := "sum", nullable := true, propagates := [true], type := .int .i64 }
      [.column { table := "", name := "amount", type := .int .i64 }] false
      (some (.column { table := "o", name := "paid", type := .bool })) [])
    (.column { table := "", name := "budget", type := .int .i64 }) none

/-- The folding of `paidTotal` is what Redshift is sent. -/
theorem redshift_renders_folded_paidTotal :
    paidTotal.Foldable ∧
      paidTotal.render .redshift = paidTotal.foldFilters.render .postgresql ∧
      paidTotal.foldFilters.render .postgresql
        = .ok "sum(CASE WHEN o.paid THEN amount END) > budget" := by
  have hcol : ∀ col, (column col).Foldable := fun col => foldable_iff.2 ⟨rfl, by simp [parts]⟩
  have h : paidTotal.Foldable := by
    refine foldable_iff.2 ⟨rfl, fun p hp => ?_⟩
    simp only [paidTotal, parts, List.mem_cons, List.not_mem_nil, or_false] at hp
    rcases hp with rfl | rfl
    · exact foldable_iff.2 ⟨rfl, by simp [parts, hcol]⟩
    · exact hcol _
  exact ⟨h, (redshift_renders_folded paidTotal).1 h, by rfl⟩

end PgFragment.Expr
