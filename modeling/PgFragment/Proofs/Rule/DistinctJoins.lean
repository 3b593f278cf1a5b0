import PgFragment.Proofs.Expr.InferredText
import PgFragment.Proofs.Rule.JoinedRows

namespace PgFragment

/-!
# Joins of distinct strings

PostgreSQL refuses an aggregate that drops repeated values and sorts by anything but its arguments.
A join of strings takes its selector into `COALESCE` where that may be null, and leaves the sort
keys as they are.  Keys that are written like the selector are then written like no argument.

* `Expr.SortsByArguments` — the rule of PostgreSQL.
* `Catalog.render_joinable_ne` — a selector is not written as it is joined.
* `Registry.sortsByArguments_distinctJoin_iff` — when a join of distinct strings keeps the rule.
-/

/-- An aggregate that drops repeated values sorts by its arguments alone: each sort key is written
like one of them. -/
def Expr.SortsByArguments : Expr → Prop
  | .aggregate _ args distinct _ orderings => distinct = true → ∀ k ∈ orderings,
    ∃ a ∈ args, k.1.render .postgresql = a.render .postgresql
  | _ => True

namespace Catalog

variable {catalog : Catalog} {selector : Expr} {text : String}

/-- A column that is never null is joined as it is. -/
theorem render_joinable_of_isNonNullableColumn (h : selector.isNonNullableColumn = true)
    (htext : selector.render .postgresql = .ok text) :
    (catalog.applyDefault (catalog.joinable selector)).render .postgresql = .ok text := by
  rw [joinable, if_pos h, render_applyDefault ⟨text, htext⟩, htext]

/-- Anything else is joined in `COALESCE`. -/
theorem render_joinable (h : selector.isNonNullableColumn = false)
    (htext : selector.render .postgresql = .ok text) :
    (catalog.applyDefault (catalog.joinable selector)).render .postgresql
      = .ok ("COALESCE" ++ "(" ++ (text ++ ", " ++ "''") ++ ")") := by
  have hargs : ∀ a ∈ [selector, catalog.text ""], a.Renders .postgresql := by
    intro a ha
    simp only [List.mem_cons, List.not_mem_nil, or_false] at ha
    rcases ha with rfl | rfl
    · exact ⟨text, htext⟩
    · exact renders_text ""
  -- Inference changes no text, so that the plain node can be written instead.
  have hplain : (catalog.coalesce selector (catalog.text "")).render .postgresql
      = (Expr.binary .coalesce selector (catalog.text "") none).render .postgresql :=
    Build.render_inferred (b := .binary .coalesce selector (catalog.text "")) hargs
  have hcoalesce : (catalog.coalesce selector (catalog.text "")).render .postgresql
      = .ok ("COALESCE" ++ "(" ++ (text ++ ", " ++ "''") ++ ")") := by
    rw [hplain, Expr.render, if_pos rfl, htext]
    rfl
  rw [joinable, if_neg (by simp [h]), render_applyDefault ⟨_, hcoalesce⟩, hcoalesce]

/-- A selector that may be null is not written as it is joined. -/
theorem render_joinable_ne (h : selector.isNonNullableColumn = false)
    (htext : selector.render .postgresql = .ok text) :
    (catalog.applyDefault (catalog.joinable selector)).render .postgresql ≠ .ok text := by
  rw [render_joinable h htext]
  intro heq
  have hlength := congrArg String.length (Except.ok.inj heq)
  simp only [String.length_append] at hlength
  have hbracket : "(".length = 1 := rfl
  omega

end Catalog

namespace Registry

variable {call : AggregateCall} {selector separator : Expr} {text separatorText : String}

/-- **A join of distinct strings that sorts by its selector** keeps the rule exactly when there is
no sort key, the selector is a column that is never null, or the separator is written like it. -/
theorem sortsByArguments_distinctJoin_iff (catalog : Catalog) (options : Options)
    (hselector : call.source.selector = some selector) (hdistinct : call.source.distinct = true)
    (hjoin : call.JoinsWith separator) (htext : selector.render .postgresql = .ok text)
    (hseparator : separator.render .postgresql = .ok separatorText)
    (hkeys : ∀ k ∈ call.source.orderings, k.1.render .postgresql = .ok text) :
    ∃ e a, (aggregates catalog options).lower call = some e ∧ e.rootAggregate? = some a ∧
      (a.SortsByArguments ↔ call.source.orderings = [] ∨ selector.isNonNullableColumn = true ∨
        separatorText = text) := by
  have hlower := lower_of_joinsWith catalog options hselector hjoin
  rw [catalog.stringJoin_eq] at hlower
  refine ⟨_, _, hlower, rfl, ?_⟩
  have hsecond : (catalog.applyDefault separator).render .postgresql = .ok separatorText := by
    rw [Catalog.render_applyDefault ⟨separatorText, hseparator⟩, hseparator]
  simp only [Expr.SortsByArguments, hdistinct, forall_const, List.mem_cons, List.not_mem_nil,
    or_false, exists_eq_or_imp, exists_eq_left, hsecond]
  constructor
  · intro h
    cases hcolumn : selector.isNonNullableColumn with
    | true => exact .inr (.inl rfl)
    | false =>
      cases horderings : call.source.orderings with
      | nil => exact .inl rfl
      | cons k rest =>
        -- A key is written like the selector, which only the separator can be.
        have hk : k ∈ call.source.orderings := horderings ▸ List.mem_cons_self
        have hkey := hkeys k hk
        rcases h k hk with hfirst | hother
        · exact absurd (hfirst.symm.trans hkey) (Catalog.render_joinable_ne hcolumn htext)
        · exact .inr (.inr (Except.ok.inj (hother.symm.trans hkey)))
  · rintro (hnone | hcolumn | rfl) k hk
    · rw [hnone] at hk
      cases hk
    · left
      rw [hkeys k hk, Catalog.render_joinable_of_isNonNullableColumn hcolumn htext]
    · exact .inr (hkeys k hk)

/-- The distinct names between commas, the last first; no name is null. -/
def distinctNames : AggregateCall where
  method := .stringJoin
  source := {
    selector := some (.column { table := "t", name := "name", type := .string })
    distinct := true
    orderings := [(.column { table := "t", name := "name", type := .string }, .descending)] }
  args := [.constant (.string ", ") (some .text)]
  returnType := .string

/-- The names are sorted by an argument of their join. -/
theorem sortsByArguments_distinctJoin_iff_distinctNames :
    (∀ k ∈ distinctNames.source.orderings, k.1.render .postgresql = .ok "t.name") ∧
      ∃ e a, (aggregates ⟨false, []⟩ {}).lower distinctNames = some e ∧
        e.rootAggregate? = some a ∧ a.SortsByArguments := by
  have hselector : distinctNames.source.selector = some _ := rfl
  have hkeys : ∀ k ∈ distinctNames.source.orderings, k.1.render .postgresql = .ok "t.name" := by
    intro k hk
    obtain rfl := List.mem_singleton.1 hk
    rfl
  obtain ⟨e, a, hlower, hroot, hiff⟩ := sortsByArguments_distinctJoin_iff ⟨false, []⟩ {} hselector
    rfl (.inl ⟨rfl, rfl⟩) rfl rfl hkeys
  exact ⟨hkeys, e, a, hlower, hroot, hiff.2 (.inr (.inl rfl))⟩

/-- The distinct tags between commas, in order; a tag may be null. -/
def sortedTags : AggregateCall where
  method := .stringJoin
  source := {
    selector := some (.column { table := "t", name := "tag", type := .string, nullable := true })
    distinct := true
    orderings := [(.column { table := "t", name := "tag", type := .string, nullable := true },
      .ascending)] }
  args := [.constant (.string ", ") (some .text)]
  returnType := .string

/-- Tags, which may be null, are sorted by what is no argument of their join. -/
theorem not_sortsByArguments_sortedTags :
    sortedTags.source.selector.map (Expr.render .postgresql) = some (.ok "t.tag") ∧
      sortedTags.source.orderings.map (·.1.render .postgresql) = [.ok "t.tag"] ∧
      ∃ e a, (aggregates ⟨false, []⟩ {}).lower sortedTags = some e ∧
        e.render .postgresql = .ok
          "COALESCE(string_agg(DISTINCT COALESCE(t.tag, ''), ', ' ORDER BY t.tag), '')" ∧
        e.rootAggregate? = some a ∧ ¬ a.SortsByArguments := by
  refine ⟨rfl, rfl, _, _, rfl, by rfl, rfl, ?_⟩
  intro h
  obtain ⟨a, ha, heq⟩ := h rfl _ List.mem_cons_self
  simp only [List.map_cons, List.map_nil, List.mem_cons, List.not_mem_nil, or_false] at ha
  rcases ha with rfl | rfl
  · have htext : Except.ok "t.tag" = (Except.ok "COALESCE(t.tag, '')" : Rendered) := heq
    exact absurd (Except.ok.inj htext) (by decide)
  · have htext : Except.ok "t.tag" = (Except.ok "', '" : Rendered) := heq
    exact absurd (Except.ok.inj htext) (by decide)

end Registry

end PgFragment
