import PgFragment.Proofs.Expr.Rendered
import PgFragment.Proofs.Mapping.CatalogNames

namespace PgFragment.Expr

/-!
# The texts of expressions are closed

An expression matches its brackets and words, and what it writes keeps every arrow within brackets,
except for the arrows of a path itself.  A path stands in brackets as an operand; what is written
after it without brackets, the escape of a match, may be a path as well.

* `Spelled` — the names that an expression writes as they are are closed.
* `Spelled.of_namedBy` — they are when its mappings are built from a catalog and its functions have
  plain names.
* `endsInPath` — a path stands at the end of the text without brackets.
* `textNests` — every spelled expression has a nested text, which is closed unless it ends in a
  path.
-/

open Text Success

/-! ### What is asked of names -/

/-- The names and decimals that the node writes as they are are closed. -/
def NamesClosed : Expr → Prop
  | .aggregate callee .. | .func callee _ => Closed callee.name
  | .cast _ _ (some mapping) => Closed mapping.storeType
  | .constant value (some mapping) => mapping.NamesClosed ∧ value.DecimalsClosed
  | _ => True

/-- The names within the expression are closed. -/
def Spelled (e : Expr) : Prop := ∀ a, Within a e → a.NamesClosed

/-- The text ends in a path that no brackets enclose: the expression is a path with a step, or a
match whose escape ends in one. -/
def endsInPath : Expr → Bool
  | .jsonPath _ steps .. => !steps.isEmpty
  | .like _ _ (some escape) .. => escape.endsInPath
  | _ => false

variable {e p : Expr} {text : String}

/-- The names within an expression, node by node. -/
theorem spelled_iff : e.Spelled ↔ e.NamesClosed ∧ ∀ p ∈ e.parts, p.Spelled := forall_within_iff

theorem Spelled.of_mem_parts (h : e.Spelled) (hp : p ∈ e.parts) : p.Spelled :=
  (spelled_iff.1 h).2 p hp

/-- The mappings of the node are built from a catalog, its functions have plain names, and its
decimals are closed. -/
def NamedBy (catalog : Catalog) : Expr → Prop
  | .aggregate callee .. | .func callee _ => isLowerName callee.name = true
  | .cast _ _ (some mapping) => catalog.Built mapping
  | .constant value (some mapping) => catalog.Built mapping ∧ value.DecimalsClosed
  | _ => True

/-- **What is named by a catalog is spelled**, as long as its enumerations have plain names. -/
theorem Spelled.of_namedBy {catalog : Catalog}
    (henums : ∀ name ∈ catalog.enums, isLowerName name = true)
    (h : ∀ a, Within a e → a.NamedBy catalog) : e.Spelled := by
  intro a ha
  have hname := h a ha
  cases a with
  | aggregate callee | func callee => exact Closed.of_isLowerName hname
  | cast operand type mapping =>
    cases mapping with
    | none => trivial
    | some mapping => exact (hname.namesClosed henums).1
  | constant value mapping =>
    cases mapping with
    | none => trivial
    | some mapping => exact ⟨(hname.1.namesClosed henums).2, hname.2⟩
  | _ => trivial

theorem isOperator_of_endsInPath (h : e.endsInPath = true) : e.isOperator = true := by
  cases e with
  | jsonPath | like => rfl
  | _ => cases h

/-! ### Parts -/

/-- The text of the expression is nested, and closed unless it ends in a path. -/
structure TextNests (e : Expr) : Prop where
  nested : ∀ {text}, e.render .postgresql = .ok text → Nested text
  closed : e.endsInPath = false → ∀ {text}, e.render .postgresql = .ok text → Closed text

/-- A closed text is nested. -/
theorem TextNests.of_closed (h : ∀ {text}, e.render .postgresql = .ok text → Closed text) :
    e.TextNests := ⟨fun ht => (h ht).nested, fun _ => h⟩

/-- **An operand is closed**, since what ends in a path stands in brackets. -/
theorem TextNests.operand (h : p.TextNests)
    (ht : p.asOperand <$> p.render .postgresql = .ok text) : Closed text := by
  obtain ⟨t, hr, rfl⟩ := map_eq_ok_iff.1 ht
  unfold asOperand
  split
  · exact (h.nested hr).parenthesized
  · next hbare =>
    refine h.closed ?_ hr
    cases hends : p.endsInPath with
    | false => rfl
    | true =>
      rw [isOperator_of_endsInPath hends] at hbare
      exact absurd rfl hbare

/-- The texts of a list of expressions. -/
theorem nested_each {es : List Expr} {texts : List String} (hes : ∀ p ∈ es, p.TextNests)
    (h : es.map (render .postgresql) = texts.map .ok) : ∀ t ∈ texts, Nested t := by
  intro t ht
  obtain ⟨p, hp, hr⟩ := exists_mem_eq_ok h ht
  exact (hes p hp).nested hr

/-- What an expression that may be absent writes behind an opening. -/
theorem nested_optionalText {opening : String} {f : Expr → Rendered} {o : Option Expr}
    {t : Option String} (hopening : Nested opening)
    (hf : ∀ p ∈ o, ∀ {text}, f p = .ok text → Nested text) (h : o.map f = t.map .ok) :
    Nested (Rendered.optionalText opening t) := by
  cases t with
  | none => exact Closed.empty.nested
  | some t =>
    obtain ⟨p, hp, hr⟩ := exists_mem_option_eq_ok h
    exact (hopening.append (hf p hp hr)).append Closed.empty.nested

/-! ### Nodes -/

theorem closed_call {name : String} {args : List Expr} (hname : Closed name)
    (hargs : ∀ p ∈ args, p.TextNests)
    (h : Rendered.call name (renderEach .postgresql args) = .ok text) : Closed text := by
  rw [renderEach_eq_map] at h
  obtain ⟨texts, htexts, rfl⟩ := Rendered.call_eq_ok_iff.1 h
  exact Nested.applied hname (Nested.commaSeparated (nested_each hargs htexts))

theorem closed_operator (op : BinaryOp) : Closed (" " ++ op.text ++ " ") := by
  cases op <;> exact ⟨fun _ => rfl, by decide⟩

theorem closed_columnText (col : Column) : Closed (columnText col) := by
  unfold columnText
  refine Closed.append ?_ (Closed.identifier col.name)
  split
  · exact Closed.empty
  · exact (Closed.identifier col.table).append ⟨fun _ => rfl, by decide⟩

theorem closed_constantText {value : Value} {mapping : Option Mapping}
    (hnames : (constant value mapping).NamesClosed)
    (h : constantText value mapping = .ok text) : Closed text := by
  cases mapping with
  | none =>
    unfold constantText at h
    dsimp only at h
    split at h
    · cases h
      exact ⟨fun _ => rfl, by decide⟩
    · cases h
  | some mapping => exact Mapping.closed_literal hnames.1 hnames.2 h

theorem closed_aggregate {callee : Callee} {args : List Expr} {distinct : Bool}
    {filter : Option Expr} {orderings : List (Expr × Direction)} (hname : Closed callee.name)
    (hargs : ∀ p ∈ args, p.TextNests) (hfilter : ∀ p ∈ filter, p.TextNests)
    (hkeys : ∀ k ∈ orderings, k.1.TextNests)
    (h : (aggregate callee args distinct filter orderings).render .postgresql = .ok text) :
    Closed text := by
  rw [render, renderEach_eq_map, renderOption_eq_map, renderKeys_eq_map] at h
  obtain ⟨as, ks, f, ha, hk, hf, rfl⟩ := Rendered.aggregate_postgresql_eq_ok_iff.1 h
  have hdistinct : Nested (if distinct then "DISTINCT " else "") := by
    cases distinct
    · exact Closed.empty.nested
    · exact fun _ => rfl
  have hks : ∀ t ∈ ks, Nested t := by
    intro t ht
    obtain ⟨⟨key, direction⟩, hmem, hr⟩ := exists_mem_eq_ok hk ht
    cases direction with
    | ascending => exact (hkeys _ hmem).nested hr
    | descending =>
      obtain ⟨t, hkey, rfl⟩ := map_eq_ok_iff.1 hr
      exact ((hkeys _ hmem).nested hkey).append fun _ => rfl
  have horder : Nested (if ks = [] then "" else " ORDER BY " ++ String.intercalate ", " ks) := by
    have hopening : Nested " ORDER BY " := fun _ => rfl
    split
    · exact Closed.empty.nested
    · exact hopening.append (Nested.commaSeparated hks)
  have hbody := Nested.applied hname
    ((hdistinct.append (Nested.commaSeparated (nested_each hargs ha))).append horder)
  rw [← String.append_assoc, ← String.append_assoc] at hbody
  refine hbody.append ?_
  cases f with
  | none => exact Closed.empty
  | some t =>
    -- The filter stands in brackets that its keyword opens.
    obtain ⟨p, hp, hr⟩ := exists_mem_option_eq_ok hf
    exact ((hfilter p hp).nested hr).between " FILTER (WHERE " ")" (fun _ => rfl) rfl (by decide)
      fun _ => rfl

theorem closed_case {operand otherwise : Option Expr} {whens : List (Expr × Expr)}
    {mapping : Option Mapping} (hoperand : ∀ p ∈ operand, p.TextNests)
    (hwhens : ∀ w ∈ whens, w.1.TextNests ∧ w.2.TextNests)
    (hotherwise : ∀ p ∈ otherwise, p.TextNests)
    (h : (case operand whens otherwise mapping).render .postgresql = .ok text) : Closed text := by
  rw [render, renderOperand_eq_map, renderClauses_eq_map, renderOption_eq_map] at h
  obtain ⟨o, cs, t, ho, hcs, ht, rfl⟩ := Rendered.case_eq_ok_iff.1 h
  have ho : Nested (Rendered.optionalText " " o) :=
    nested_optionalText (fun _ => rfl) (fun p hp _ hr => ((hoperand p hp).operand hr).nested) ho
  have ht : Nested (Rendered.optionalText " ELSE " t) :=
    nested_optionalText (fun _ => rfl) (fun p hp _ hr => (hotherwise p hp).nested hr) ht
  have hcs : ∀ c ∈ cs, Nested c := by
    intro c hc
    obtain ⟨w, hw, hclause⟩ := exists_mem_eq_ok hcs hc
    obtain ⟨t, r, htest, hresult, rfl⟩ := Rendered.clause_eq_ok_iff.1 hclause
    have hwhen : Nested " WHEN " := fun _ => rfl
    have hthen : Nested " THEN " := fun _ => rfl
    have htest := (hwhens w hw).1.nested htest
    exact ((hwhen.append htest).append hthen).append ((hwhens w hw).2.nested hresult)
  have hbody := ((ho.append (Nested.join hcs)).append ht).caseEnd
  rwa [← String.append_assoc, ← String.append_assoc] at hbody

/-- The match itself is closed, and its escape stands behind it without brackets. -/
theorem textNests_like {subject pattern : Expr} {escape : Option Expr} {ignoreCase : Bool}
    {mapping : Option Mapping} (hs : subject.TextNests) (hp : pattern.TextNests)
    (he : ∀ p ∈ escape, p.TextNests) :
    (like subject pattern escape ignoreCase mapping).TextNests := by
  have hmatch : ∀ {text}, (like subject pattern escape ignoreCase mapping).render .postgresql
      = .ok text → ∃ test t, Closed test ∧ escape.map (render .postgresql) = t.map .ok ∧
        text = test ++ Rendered.optionalText " ESCAPE " t := by
    intro text h
    rw [render, bind_eq_ok_iff] at h
    obtain ⟨test, htest, h⟩ := h
    rw [bind_eq_ok_iff] at h
    obtain ⟨u, hu, h⟩ := h
    cases h
    obtain ⟨l, r, hl, hr, rfl⟩ := Rendered.joined_eq_ok_iff.1 htest
    rw [renderOption_eq_map] at hu
    obtain ⟨t, ht, rfl⟩ := Rendered.optional_eq_ok_iff.1 hu
    have hop : Closed (if ignoreCase then " ILIKE " else " LIKE ") := by
      cases ignoreCase <;> exact ⟨fun _ => rfl, by decide⟩
    exact ⟨_, t, ((hs.operand hl).append hop).append (hp.operand hr), ht, rfl⟩
  refine ⟨?_, ?_⟩
  · intro text h
    obtain ⟨test, t, htest, ht, rfl⟩ := hmatch h
    exact htest.nested.append
      (nested_optionalText (fun _ => rfl) (fun p hp _ hr => (he p hp).nested hr) ht)
  · intro hends text h
    obtain ⟨test, t, htest, ht, rfl⟩ := hmatch h
    refine htest.append ?_
    cases t with
    | none => exact Closed.empty
    | some t =>
      obtain ⟨p, rfl, hr⟩ := exists_mem_option_eq_ok ht
      rw [endsInPath] at hends
      have hescape : Closed " ESCAPE " := ⟨fun _ => rfl, by decide⟩
      exact (hescape.append ((he p rfl).closed hends hr)).append Closed.empty

/-- Only the arrows of the path itself are outside of brackets. -/
theorem textNests_jsonPath {document : Expr} {steps : List Expr} {asText : Bool} {type : HostType}
    {mapping : Option Mapping} (hd : document.TextNests) (hs : ∀ p ∈ steps, p.TextNests) :
    (jsonPath document steps asText type mapping).TextNests := by
  have harrows : ∀ {d : String} {ss : List String}, Closed d → (∀ t ∈ ss, Nested t) →
      Nested (d ++ String.join (ss.mapIdx fun i step =>
        (if asText && i + 1 == ss.length then "->>" else "->") ++ step)) := by
    intro d ss hd hss
    refine hd.nested.append (Nested.join ?_)
    intro t ht
    obtain ⟨i, hi, rfl⟩ := List.mem_mapIdx.1 ht
    refine Nested.append ?_ (hss _ (List.getElem_mem hi))
    split <;> exact fun _ => rfl
  refine ⟨?_, ?_⟩
  · intro text h
    rw [render, renderEach_eq_map] at h
    obtain ⟨d, ss, hdoc, hsteps, rfl⟩ := Rendered.jsonPath_eq_ok_iff.1 h
    exact harrows (hd.operand hdoc) (nested_each hs hsteps)
  · intro hends text h
    -- Without a step there is no arrow either.
    obtain rfl : steps = [] := by simpa [endsInPath] using hends
    rw [render, renderEach_eq_map] at h
    obtain ⟨d, ss, hdoc, hsteps, rfl⟩ := Rendered.jsonPath_eq_ok_iff.1 h
    obtain rfl : ss = [] := by simpa using hsteps
    exact (hd.operand hdoc).append Closed.empty

/-! ### Expressions -/

/-- **A spelled expression has a nested text**, which is closed unless it ends in a path. -/
theorem textNests (h : e.Spelled) : e.TextNests := by
  induction e using induction_on_parts with
  | step e ih =>
    have hself : e.NamesClosed := h e .self
    have hparts : ∀ p ∈ e.parts, p.TextNests := fun p hp => ih p hp (h.of_mem_parts hp)
    clear ih h
    cases e with
    | aggregate callee args distinct filter orderings =>
      simp only [parts, List.mem_append, Option.mem_toList, List.mem_map] at hparts
      exact .of_closed (closed_aggregate hself (fun a ha => hparts a (.inl (.inl ha)))
        (fun a ha => hparts a (.inl (.inr ha))) fun k hk => hparts k.1 (.inr ⟨k, hk, rfl⟩))
    | binary op lhs rhs mapping =>
      have hl := hparts lhs (by simp [parts])
      have hr := hparts rhs (by simp [parts])
      refine .of_closed ?_
      intro text ht
      rw [render] at ht
      split at ht
      · have hcall : Rendered.call "COALESCE" (renderEach .postgresql [lhs, rhs]) = .ok text := ht
        exact closed_call ⟨fun _ => rfl, by decide⟩ hparts hcall
      · obtain ⟨l, r, hlt, hrt, rfl⟩ := Rendered.joined_eq_ok_iff.1 ht
        exact ((hl.operand hlt).append (closed_operator op)).append (hr.operand hrt)
    | case operand whens otherwise mapping =>
      simp only [parts, List.mem_append, Option.mem_toList, List.mem_flatMap, List.mem_cons,
        List.not_mem_nil, or_false] at hparts
      exact .of_closed (closed_case (fun a ha => hparts a (.inl (.inl ha)))
        (fun w hw => ⟨hparts w.1 (.inl (.inr ⟨w, hw, .inl rfl⟩)),
          hparts w.2 (.inl (.inr ⟨w, hw, .inr rfl⟩))⟩)
        fun a ha => hparts a (.inr ha))
    | cast operand type mapping =>
      refine .of_closed ?_
      intro text ht
      cases mapping with
      | none =>
        rw [render] at ht
        cases ht
      | some mapping =>
        rw [render] at ht
        obtain ⟨t, hoperand, rfl⟩ := map_eq_ok_iff.1 ht
        have hcolons : Closed "::" := ⟨fun _ => rfl, by decide⟩
        exact (((hparts operand (by simp [parts])).operand hoperand).append hcolons).append hself
    | column col =>
      refine .of_closed ?_
      intro text ht
      rw [render] at ht
      cases ht
      exact closed_columnText col
    | constant value mapping =>
      refine .of_closed ?_
      intro text ht
      rw [render] at ht
      exact closed_constantText hself ht
    | func callee args =>
      refine .of_closed ?_
      intro text ht
      rw [render] at ht
      exact closed_call hself hparts ht
    | jsonPath document steps asText type mapping =>
      simp only [parts, List.mem_cons] at hparts
      exact textNests_jsonPath (hparts document (.inl rfl)) fun a ha => hparts a (.inr ha)
    | like subject pattern escape ignoreCase mapping =>
      simp only [parts, List.mem_append, List.mem_cons, List.not_mem_nil, or_false,
        Option.mem_toList] at hparts
      exact textNests_like (hparts subject (.inl (.inl rfl))) (hparts pattern (.inl (.inr rfl)))
        fun a ha => hparts a (.inr ha)
    | not operand mapping =>
      refine .of_closed ?_
      intro text ht
      rw [render] at ht
      obtain ⟨t, hoperand, rfl⟩ := map_eq_ok_iff.1 ht
      have hnot : Closed "NOT " := ⟨fun _ => rfl, by decide⟩
      exact hnot.append ((hparts operand (by simp [parts])).operand hoperand)
    | row values =>
      refine .of_closed ?_
      intro text ht
      rw [render] at ht
      exact closed_call Closed.empty hparts ht

end PgFragment.Expr
