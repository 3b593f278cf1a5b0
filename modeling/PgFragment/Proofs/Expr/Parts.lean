import PgFragment.Expr.Basic

namespace PgFragment.Expr

/-!
# Parts of an expression

The immediate parts of a node, in the order in which they are written, whatever list, option or
pair the node keeps them in.

* `induction_on_parts` — what holds of a node as soon as it holds of its parts holds of every
  expression.  One induction then serves all eleven kinds of nodes, lists and options included.
* `Within` — an expression occurs in another, at any depth; `iff_forall_within` leads from single nodes
  to everything within.
* `mapParts` — a node with its parts replaced; a rewriting of whole trees is a rewriting of one
  node after that of its parts.
-/

/-- The immediate parts of an expression. -/
def parts : Expr → List Expr
  | .aggregate _ args _ filter orderings => args ++ filter.toList ++ orderings.map Prod.fst
  | .binary _ lhs rhs _ => [lhs, rhs]
  | .case operand whens otherwise _ =>
    operand.toList ++ whens.flatMap (fun w => [w.1, w.2]) ++ otherwise.toList
  | .cast operand _ _ => [operand]
  | .column _ | .constant .. => []
  | .func _ args => args
  | .jsonPath document steps .. => document :: steps
  | .like subject pattern escape _ _ => [subject, pattern] ++ escape.toList
  | .not operand _ => [operand]
  | .row values => values

theorem sizeOf_lt_of_mem_parts {p e : Expr} (h : p ∈ e.parts) : sizeOf p < sizeOf e := by
  cases e with
  | aggregate callee args distinct filter orderings =>
    simp only [parts, List.mem_append, Option.mem_toList, List.mem_map] at h
    rcases h with (h | rfl) | ⟨key, hkey, rfl⟩
    · have := List.sizeOf_lt_of_mem h
      simp only [aggregate.sizeOf_spec]; omega
    · simp only [aggregate.sizeOf_spec, Option.some.sizeOf_spec]; omega
    · have := List.sizeOf_lt_of_mem hkey
      have : sizeOf key = 1 + sizeOf key.1 + sizeOf key.2 := rfl
      simp only [aggregate.sizeOf_spec]; omega
  | case operand whens otherwise mapping =>
    simp only [parts, List.mem_append, Option.mem_toList, List.mem_flatMap] at h
    rcases h with (rfl | ⟨w, hw, hp⟩) | rfl
    · simp only [case.sizeOf_spec, Option.some.sizeOf_spec]; omega
    · have := List.sizeOf_lt_of_mem hw
      have hs : sizeOf w = 1 + sizeOf w.1 + sizeOf w.2 := rfl
      simp only [List.mem_cons, List.not_mem_nil, or_false] at hp
      simp only [case.sizeOf_spec]
      rcases hp with rfl | rfl <;> omega
    · simp only [case.sizeOf_spec, Option.some.sizeOf_spec]; omega
  | func callee args =>
    have := List.sizeOf_lt_of_mem h
    simp only [func.sizeOf_spec, parts] at *; omega
  | jsonPath document steps asText type mapping =>
    simp only [parts, List.mem_cons] at h
    rcases h with rfl | h
    · simp only [jsonPath.sizeOf_spec]; omega
    · have := List.sizeOf_lt_of_mem h
      simp only [jsonPath.sizeOf_spec]; omega
  | like subject pattern escape ignoreCase mapping =>
    simp only [parts, List.mem_append, List.mem_cons, List.not_mem_nil, or_false,
      Option.mem_toList] at h
    rcases h with (rfl | rfl) | rfl
    · simp only [like.sizeOf_spec]; omega
    · simp only [like.sizeOf_spec]; omega
    · simp only [like.sizeOf_spec, Option.some.sizeOf_spec]; omega
  | row values =>
    have := List.sizeOf_lt_of_mem h
    simp only [row.sizeOf_spec, parts] at *; omega
  | binary op lhs rhs mapping =>
    simp only [parts, List.mem_cons, List.not_mem_nil, or_false] at h
    rcases h with rfl | rfl <;> simp only [binary.sizeOf_spec] <;> omega
  | cast operand type mapping =>
    obtain rfl := List.mem_singleton.1 h
    simp only [cast.sizeOf_spec]; omega
  | not operand mapping =>
    obtain rfl := List.mem_singleton.1 h
    simp only [not.sizeOf_spec]; omega
  | column _ | constant _ _ => simp [parts] at h

/-- **Induction on expressions through their parts.** -/
theorem induction_on_parts {motive : Expr → Prop}
    (step : ∀ e, (∀ p ∈ e.parts, motive p) → motive e) (e : Expr) : motive e :=
  step e fun p hp =>
    have := sizeOf_lt_of_mem_parts hp
    induction_on_parts step p
termination_by sizeOf e

/-- The expression `a` occurs in `e`, as a whole or within a part. -/
inductive Within (a : Expr) : Expr → Prop
  | self : Within a a
  | part {p e : Expr} (hp : p ∈ e.parts) (h : Within a p) : Within a e

section Within

variable {P Q : Expr → Prop}

/-- What holds of everything within an expression, node by node. -/
theorem forall_within_iff {e : Expr} :
    (∀ a, Within a e → P a) ↔ P e ∧ ∀ p ∈ e.parts, ∀ a, Within a p → P a := by
  constructor
  · intro h
    refine ⟨h e .self, ?_⟩
    intro p hp a ha
    exact h a (.part hp ha)
  · rintro ⟨he, hparts⟩ a ha
    cases ha with
    | self => exact he
    | part hp ha => exact hparts _ hp a ha

/-- What goes from node to node is said of everything within. -/
theorem iff_forall_within (h : ∀ e, Q e ↔ P e ∧ ∀ p ∈ e.parts, Q p) (e : Expr) :
    Q e ↔ ∀ a, Within a e → P a := by
  induction e using induction_on_parts with
  | step e ih =>
    rw [h, forall_within_iff]
    exact and_congr_right fun _ => forall₂_congr ih

end Within

/-! ### Replacing the parts -/

/-- The node with each part replaced by its image. -/
def mapParts (f : Expr → Expr) : Expr → Expr
  | .aggregate callee args distinct filter orderings =>
    .aggregate callee (args.map f) distinct (filter.map f) (orderings.map fun k => (f k.1, k.2))
  | .binary op lhs rhs mapping => .binary op (f lhs) (f rhs) mapping
  | .case operand whens otherwise mapping =>
    .case (operand.map f) (whens.map fun w => (f w.1, f w.2)) (otherwise.map f) mapping
  | .cast operand type mapping => .cast (f operand) type mapping
  | .column col => .column col
  | .constant value mapping => .constant value mapping
  | .func callee args => .func callee (args.map f)
  | .jsonPath document steps asText type mapping =>
    .jsonPath (f document) (steps.map f) asText type mapping
  | .like subject pattern escape ignoreCase mapping =>
    .like (f subject) (f pattern) (escape.map f) ignoreCase mapping
  | .not operand mapping => .not (f operand) mapping
  | .row values => .row (values.map f)

theorem mapParts_id (e : Expr) : e.mapParts id = e := by
  cases e <;> simp [mapParts]

theorem mapParts_congr {f g : Expr → Expr} {e : Expr} (h : ∀ p ∈ e.parts, f p = g p) :
    e.mapParts f = e.mapParts g := by
  cases e with
  | aggregate callee args distinct filter orderings =>
    simp only [parts, List.mem_append, Option.mem_toList, List.mem_map] at h
    have hargs : args.map f = args.map g := by
      apply List.map_congr_left
      intro a ha
      exact h a (.inl (.inl ha))
    have hfilter : filter.map f = filter.map g := by
      apply Option.map_congr
      intro a ha
      exact h a (.inl (.inr ha))
    have hkeys : (orderings.map fun k => (f k.1, k.2)) = orderings.map fun k => (g k.1, k.2) := by
      apply List.map_congr_left
      intro k hk
      rw [h k.1 (.inr ⟨k, hk, rfl⟩)]
    rw [mapParts, mapParts, hargs, hfilter, hkeys]
  | case operand whens otherwise mapping =>
    simp only [parts, List.mem_append, Option.mem_toList, List.mem_flatMap, List.mem_cons,
      List.not_mem_nil, or_false] at h
    have hoperand : operand.map f = operand.map g := by
      apply Option.map_congr
      intro a ha
      exact h a (.inl (.inl ha))
    have hwhens : (whens.map fun w => (f w.1, f w.2)) = whens.map fun w => (g w.1, g w.2) := by
      apply List.map_congr_left
      intro w hw
      rw [h w.1 (.inl (.inr ⟨w, hw, .inl rfl⟩)), h w.2 (.inl (.inr ⟨w, hw, .inr rfl⟩))]
    have hotherwise : otherwise.map f = otherwise.map g := by
      apply Option.map_congr
      intro a ha
      exact h a (.inr ha)
    rw [mapParts, mapParts, hoperand, hwhens, hotherwise]
  | like subject pattern escape ignoreCase mapping =>
    simp only [parts, List.mem_append, List.mem_cons, List.not_mem_nil, or_false,
      Option.mem_toList] at h
    have hescape : escape.map f = escape.map g := by
      apply Option.map_congr
      intro a ha
      exact h a (.inr ha)
    rw [mapParts, mapParts, h subject (.inl (.inl rfl)), h pattern (.inl (.inr rfl)), hescape]
  | jsonPath document steps asText type mapping =>
    simp only [parts, List.mem_cons] at h
    have hsteps : steps.map f = steps.map g := by
      apply List.map_congr_left
      intro a ha
      exact h a (.inr ha)
    rw [mapParts, mapParts, h document (.inl rfl), hsteps]
  | func callee args =>
    have hargs : args.map f = args.map g := List.map_congr_left h
    rw [mapParts, mapParts, hargs]
  | row values =>
    have hvalues : values.map f = values.map g := List.map_congr_left h
    rw [mapParts, mapParts, hvalues]
  | binary op lhs rhs mapping =>
    rw [mapParts, mapParts, h lhs (by simp [parts]), h rhs (by simp [parts])]
  | cast operand type mapping => rw [mapParts, mapParts, h operand (by simp [parts])]
  | not operand mapping => rw [mapParts, mapParts, h operand (by simp [parts])]
  | column _ | constant _ _ => rfl

end PgFragment.Expr
