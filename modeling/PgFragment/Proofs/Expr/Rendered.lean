import PgFragment.Expr.Render
import PgFragment.Proofs.Expr.Parts
import PgFragment.Proofs.Success

namespace PgFragment

/-!
# When rendering succeeds

For every kind of node, the text that it has once all of its parts have one, as an equivalence:
the node renders to a text exactly when its parts render and the text is put together from theirs.
-/

namespace Rendered

open Success

variable {text : String}

theorem all_eq_ok_iff {parts : List Rendered} {texts : List String} :
    all parts = .ok texts ↔ parts = texts.map .ok := by
  rw [all, mapM_eq_ok_iff, List.map_id]

theorem commaSeparated_eq_ok_iff {parts : List Rendered} :
    commaSeparated parts = .ok text ↔
      ∃ texts : List String, parts = texts.map .ok ∧ String.intercalate ", " texts = text := by
  simp only [commaSeparated, map_eq_ok_iff, all_eq_ok_iff]

/-- The text of a part that may be absent, once it has one. -/
def optionalText (opening : String) (part : Option String) (closing : String := "") : String :=
  (part.map (opening ++ · ++ closing)).getD ""

theorem optional_eq_ok_iff {opening closing : String} {part : Option Rendered} :
    optional opening part closing = .ok text ↔
      ∃ t : Option String, part = t.map .ok ∧ optionalText opening t closing = text := by
  cases part with
  | none =>
    simp only [optional, Except.ok.injEq]
    constructor
    · rintro rfl
      exact ⟨none, rfl, rfl⟩
    · rintro ⟨t, ht, rfl⟩
      rw [Option.map_eq_none_iff.1 ht.symm]
      rfl
  | some part =>
    simp only [optional, map_eq_ok_iff]
    constructor
    · rintro ⟨t, rfl, rfl⟩
      exact ⟨some t, rfl, rfl⟩
    · rintro ⟨t, ht, rfl⟩
      obtain ⟨s, rfl, hs⟩ := Option.map_eq_some_iff.1 ht.symm
      exact ⟨s, hs.symm, rfl⟩

theorem call_eq_ok_iff {name : String} {args : List Rendered} :
    call name args = .ok text ↔ ∃ texts : List String, args = texts.map .ok ∧
      name ++ "(" ++ String.intercalate ", " texts ++ ")" = text := by
  simp only [call, bind_eq_ok_iff, commaSeparated_eq_ok_iff, Except.ok.injEq]
  constructor
  · rintro ⟨_, ⟨texts, h, rfl⟩, rfl⟩
    exact ⟨texts, h, rfl⟩
  · rintro ⟨texts, h, rfl⟩
    exact ⟨_, ⟨texts, h, rfl⟩, rfl⟩

theorem joined_eq_ok_iff {operator : String} {lhs rhs : Rendered} :
    joined operator lhs rhs = .ok text ↔
      ∃ l r, lhs = .ok l ∧ rhs = .ok r ∧ l ++ operator ++ r = text := by
  simp only [joined, bind_eq_ok_iff, Except.ok.injEq]
  constructor
  · rintro ⟨l, hl, r, hr, h⟩
    exact ⟨l, r, hl, hr, h⟩
  · rintro ⟨l, r, hl, hr, h⟩
    exact ⟨l, hl, r, hr, h⟩

theorem clause_eq_ok_iff {test result : Rendered} :
    clause test result = .ok text ↔
      ∃ t r, test = .ok t ∧ result = .ok r ∧ " WHEN " ++ t ++ " THEN " ++ r = text := by
  simp only [clause, bind_eq_ok_iff, Except.ok.injEq]
  constructor
  · rintro ⟨t, ht, r, hr, h⟩
    exact ⟨t, r, ht, hr, h⟩
  · rintro ⟨t, r, ht, hr, h⟩
    exact ⟨t, ht, r, hr, h⟩

theorem case_eq_ok_iff {operand otherwise : Option Rendered} {clauses : List Rendered} :
    case operand clauses otherwise = .ok text ↔
      ∃ (o : Option String) (cs : List String) (e : Option String),
        operand = o.map .ok ∧ clauses = cs.map .ok ∧ otherwise = e.map .ok ∧
        "CASE" ++ optionalText " " o ++ String.join cs ++ optionalText " ELSE " e ++ " END"
          = text := by
  simp only [case, bind_eq_ok_iff, optional_eq_ok_iff, all_eq_ok_iff, Except.ok.injEq]
  constructor
  · rintro ⟨_, ⟨o, ho, rfl⟩, cs, hcs, _, ⟨e, he, rfl⟩, h⟩
    exact ⟨o, cs, e, ho, hcs, he, h⟩
  · rintro ⟨o, cs, e, ho, hcs, he, h⟩
    exact ⟨_, ⟨o, ho, rfl⟩, cs, hcs, _, ⟨e, he, rfl⟩, h⟩

theorem exists_sortKey_eq_ok_iff {key : Rendered} {direction : Direction} :
    (∃ text, sortKey key direction = .ok text) ↔ ∃ t, key = .ok t := by
  cases direction with
  | ascending => rfl
  | descending =>
    simp only [sortKey, map_eq_ok_iff]
    constructor
    · rintro ⟨_, t, ht, _⟩
      exact ⟨t, ht⟩
    · rintro ⟨t, ht⟩
      exact ⟨_, t, ht, rfl⟩

theorem orderBy_eq_ok_iff {keys : List Rendered} :
    orderBy keys = .ok text ↔ ∃ texts : List String, keys = texts.map .ok ∧
      (if texts = [] then "" else " ORDER BY " ++ String.intercalate ", " texts) = text := by
  cases keys with
  | nil => simp [orderBy]
  | cons key keys =>
    simp only [orderBy, List.isEmpty_cons, Bool.false_eq_true, ↓reduceIte, optional,
      map_eq_ok_iff, commaSeparated_eq_ok_iff]
    constructor
    · rintro ⟨_, ⟨texts, h, rfl⟩, rfl⟩
      have hne : texts ≠ [] := by rintro rfl; simp at h
      exact ⟨texts, h, by simp [hne]⟩
    · rintro ⟨texts, h, rfl⟩
      have hne : texts ≠ [] := by rintro rfl; simp at h
      exact ⟨_, ⟨texts, h, rfl⟩, by simp [hne]⟩

variable {name : String} {args keys : List Rendered} {distinct : Bool} {filter : Option Rendered}

theorem aggregate_postgresql_eq_ok_iff :
    aggregate .postgresql name args distinct filter keys = .ok text ↔
      ∃ (as : List String) (ks : List String) (f : Option String),
        args = as.map .ok ∧ keys = ks.map .ok ∧ filter = f.map .ok ∧
        name ++ "(" ++ (if distinct then "DISTINCT " else "") ++ String.intercalate ", " as ++
          (if ks = [] then "" else " ORDER BY " ++ String.intercalate ", " ks) ++ ")" ++
          optionalText " FILTER (WHERE " f ")" = text := by
  simp only [aggregate, bind_eq_ok_iff, commaSeparated_eq_ok_iff, orderBy_eq_ok_iff,
    optional_eq_ok_iff, Except.ok.injEq, exists_eq_left']
  constructor
  · rintro ⟨_, ⟨as, ha, rfl⟩, _, ⟨ks, hk, rfl⟩, _, ⟨f, hf, rfl⟩, h⟩
    exact ⟨as, ks, f, ha, hk, hf, h⟩
  · rintro ⟨as, ks, f, ha, hk, hf, h⟩
    exact ⟨_, ⟨as, ha, rfl⟩, _, ⟨ks, hk, rfl⟩, _, ⟨f, hf, rfl⟩, h⟩

/-- Without a filter the dialects write aggregates alike. -/
theorem aggregate_none (flavor : Flavor) :
    aggregate flavor name args distinct none keys
      = aggregate .postgresql name args distinct none keys := by
  cases flavor <;> rfl

/-- On Redshift a filter is a clause in front of the first argument. -/
theorem aggregate_redshift_some (filter first : Rendered) (rest : List Rendered) :
    aggregate .redshift name (first :: rest) distinct (some filter) keys
      = aggregate .postgresql name (case none [clause filter first] none :: rest) distinct none
          keys := rfl

/-- On Redshift a filter without an argument has no place. -/
theorem aggregate_redshift_nil (filter : Rendered) :
    aggregate .redshift name [] distinct (some filter) keys
      = .error (.filterWithoutArguments name) := rfl

/-- Where an aggregate has a text, its arguments, its filter and its sort keys have one. -/
theorem exists_parts_of_aggregate_eq_ok {flavor : Flavor}
    (h : aggregate flavor name args distinct filter keys = .ok text) :
    (∃ as : List String, args = as.map .ok) ∧ (∃ f : Option String, filter = f.map .ok) ∧
      ∃ ks : List String, keys = ks.map .ok := by
  cases flavor with
  | postgresql =>
    obtain ⟨as, ks, f, ha, hk, hf, -⟩ := aggregate_postgresql_eq_ok_iff.1 h
    exact ⟨⟨as, ha⟩, ⟨f, hf⟩, ks, hk⟩
  | redshift =>
    cases filter with
    | none =>
      rw [aggregate_none] at h
      obtain ⟨as, ks, f, ha, hk, hf, -⟩ := aggregate_postgresql_eq_ok_iff.1 h
      exact ⟨⟨as, ha⟩, ⟨f, hf⟩, ks, hk⟩
    | some filter =>
      cases args with
      | nil => simp [aggregate_redshift_nil] at h
      | cons first rest =>
        -- The filter and the first argument are the test and the result of a clause.
        rw [aggregate_redshift_some] at h
        obtain ⟨as, ks, -, ha, hk, -⟩ := aggregate_postgresql_eq_ok_iff.1 h
        obtain ⟨a, as, rfl⟩ := List.exists_cons_of_ne_nil (l := as) (by rintro rfl; simp at ha)
        simp only [List.map_cons, List.cons.injEq] at ha
        obtain ⟨-, cs, -, -, hcs, -⟩ := case_eq_ok_iff.1 ha.1
        obtain ⟨c, cs, rfl⟩ := List.exists_cons_of_ne_nil (l := cs) (by rintro rfl; simp at hcs)
        simp only [List.map_cons, List.cons.injEq] at hcs
        obtain ⟨f, a, rfl, rfl, -⟩ := clause_eq_ok_iff.1 hcs.1
        exact ⟨⟨a :: as, by rw [ha.2]; rfl⟩, ⟨some f, rfl⟩, ks, hk⟩

theorem jsonPath_eq_ok_iff {document : Rendered} {steps : List Rendered} {asText : Bool} :
    jsonPath document steps asText = .ok text ↔
      ∃ (d : String) (ss : List String), document = .ok d ∧ steps = ss.map .ok ∧
        d ++ String.join (ss.mapIdx fun i step =>
          (if asText && i + 1 == ss.length then "->>" else "->") ++ step) = text := by
  simp only [jsonPath, bind_eq_ok_iff, all_eq_ok_iff, Except.ok.injEq]
  constructor
  · rintro ⟨d, hd, ss, hs, h⟩
    exact ⟨d, ss, hd, hs, h⟩
  · rintro ⟨d, ss, hd, hs, h⟩
    exact ⟨d, hd, ss, hs, h⟩

end Rendered

namespace Expr

open Success

/-! ### The lists and options of a node -/

theorem renderOperand_eq_map (flavor : Flavor) (e : Option Expr) :
    renderOperand flavor e = e.map fun e => e.asOperand <$> render flavor e := by
  cases e <;> rfl

theorem renderClauses_eq_map (flavor : Flavor) (whens : List (Expr × Expr)) :
    renderClauses flavor whens
      = whens.map fun w => Rendered.clause (render flavor w.1) (render flavor w.2) := by
  induction whens with
  | nil => rfl
  | cons w whens ih => simp [renderClauses, ih]

theorem renderKeys_eq_map (flavor : Flavor) (keys : List (Expr × Direction)) :
    renderKeys flavor keys = keys.map fun k => Rendered.sortKey (render flavor k.1) k.2 := by
  induction keys with
  | nil => rfl
  | cons k keys ih => simp [renderKeys, ih]

/-! ### The parts of a node that renders -/

/-- An operand renders when the expression does. -/
theorem exists_render_of_operand {flavor : Flavor} {e : Expr} {text : String}
    (h : e.asOperand <$> e.render flavor = .ok text) : ∃ t, e.render flavor = .ok t := by
  obtain ⟨t, ht, -⟩ := map_eq_ok_iff.1 h
  exact ⟨t, ht⟩

/-- **A node renders only if all of its parts do.** -/
theorem exists_render_of_mem_parts {flavor : Flavor} {e p : Expr} {text : String}
    (h : e.render flavor = .ok text) (hp : p ∈ e.parts) : ∃ t, p.render flavor = .ok t := by
  cases e with
  | aggregate callee args distinct filter orderings =>
    rw [render, renderEach_eq_map, renderOption_eq_map, renderKeys_eq_map] at h
    obtain ⟨⟨as, ha⟩, ⟨f, hf⟩, ks, hk⟩ := Rendered.exists_parts_of_aggregate_eq_ok h
    simp only [parts, List.mem_append, Option.mem_toList, List.mem_map] at hp
    rcases hp with (hp | rfl) | ⟨key, hkey, rfl⟩
    · exact exists_eq_ok_of_mem ha hp
    · obtain ⟨t, -, ht⟩ := Option.map_eq_some_iff.1 hf.symm
      exact ⟨t, ht.symm⟩
    · exact Rendered.exists_sortKey_eq_ok_iff.1 (exists_eq_ok_of_mem hk hkey)
  | binary op lhs rhs mapping =>
    simp only [parts, List.mem_cons, List.not_mem_nil, or_false] at hp
    rw [render] at h
    split at h
    · obtain ⟨texts, ht, -⟩ := Rendered.call_eq_ok_iff.1 h
      have hmap : [lhs, rhs].map (render flavor) = texts.map .ok := ht
      exact exists_eq_ok_of_mem hmap (by simpa using hp)
    · obtain ⟨l, r, hl, hr, -⟩ := Rendered.joined_eq_ok_iff.1 h
      rcases hp with rfl | rfl
      · exact exists_render_of_operand hl
      · exact exists_render_of_operand hr
  | case operand whens otherwise mapping =>
    rw [render, renderOperand_eq_map, renderClauses_eq_map, renderOption_eq_map] at h
    obtain ⟨o, cs, e, ho, hcs, he, -⟩ := Rendered.case_eq_ok_iff.1 h
    simp only [parts, List.mem_append, Option.mem_toList, List.mem_flatMap] at hp
    rcases hp with (rfl | ⟨w, hw, hp⟩) | rfl
    · obtain ⟨t, -, ht⟩ := Option.map_eq_some_iff.1 ho.symm
      exact exists_render_of_operand ht.symm
    · obtain ⟨c, hc⟩ := exists_eq_ok_of_mem hcs hw
      obtain ⟨t, r, ht, hr, -⟩ := Rendered.clause_eq_ok_iff.1 hc
      simp only [List.mem_cons, List.not_mem_nil, or_false] at hp
      rcases hp with rfl | rfl
      · exact ⟨t, ht⟩
      · exact ⟨r, hr⟩
    · obtain ⟨t, -, ht⟩ := Option.map_eq_some_iff.1 he.symm
      exact ⟨t, ht.symm⟩
  | cast operand type mapping =>
    obtain rfl := List.mem_singleton.1 hp
    cases mapping with
    -- A cast to a type without a mapping fails whatever its operand is.
    | none => simp [render] at h
    | some mapping =>
      rw [render] at h
      obtain ⟨t, ht, -⟩ := map_eq_ok_iff.1 h
      exact exists_render_of_operand ht
  | column _ | constant _ _ => simp [parts] at hp
  | func callee args =>
    rw [render, renderEach_eq_map] at h
    obtain ⟨texts, ht, -⟩ := Rendered.call_eq_ok_iff.1 h
    exact exists_eq_ok_of_mem ht hp
  | jsonPath document steps asText type mapping =>
    rw [render, renderEach_eq_map] at h
    obtain ⟨d, ss, hd, hs, -⟩ := Rendered.jsonPath_eq_ok_iff.1 h
    simp only [parts, List.mem_cons] at hp
    rcases hp with rfl | hp
    · exact exists_render_of_operand hd
    · exact exists_eq_ok_of_mem hs hp
  | like subject pattern escape ignoreCase mapping =>
    simp only [render, bind_eq_ok_iff, renderOption_eq_map, Rendered.joined_eq_ok_iff,
      Rendered.optional_eq_ok_iff] at h
    obtain ⟨_, ⟨l, r, hl, hr, -⟩, _, ⟨t, ht, -⟩, -⟩ := h
    simp only [parts, List.mem_append, List.mem_cons, List.not_mem_nil, or_false,
      Option.mem_toList] at hp
    rcases hp with (rfl | rfl) | rfl
    · exact exists_render_of_operand hl
    · exact exists_render_of_operand hr
    · obtain ⟨t, -, ht⟩ := Option.map_eq_some_iff.1 ht.symm
      exact ⟨t, ht.symm⟩
  | not operand mapping =>
    obtain rfl := List.mem_singleton.1 hp
    rw [render] at h
    obtain ⟨t, ht, -⟩ := map_eq_ok_iff.1 h
    exact exists_render_of_operand ht
  | row values =>
    rw [render, renderEach_eq_map] at h
    obtain ⟨texts, ht, -⟩ := Rendered.call_eq_ok_iff.1 h
    exact exists_eq_ok_of_mem ht hp

/-- Whatever occurs in an expression that renders does so itself. -/
theorem exists_render_of_within {flavor : Flavor} {a e : Expr} (ha : Within a e) :
    (∃ text, e.render flavor = .ok text) → ∃ t, a.render flavor = .ok t := by
  induction ha with
  | self => exact id
  | part hp _ ih =>
    rintro ⟨text, h⟩
    exact ih (exists_render_of_mem_parts h hp)

end Expr

end PgFragment
