import PgFragment.Proofs.Expr.ClosedText

namespace PgFragment

/-!
# Reading paths back

The text of a path into a document tells the document, as it stands as an operand, and the steps,
provided that no step ends in a path itself.  A step stands without brackets, unlike the document,
so that the arrows of a path that is a step are taken for arrows of the path around it.

* `Rendered.arrowText_inj` — closed steps are told by the text of their arrows.
* `Expr.parts_of_render_jsonPath_eq` — two paths with one text have the same parts.
* `Expr.render_jsonPath_flattened` — a path that is the last step of a path is written as its steps.
-/

open Text Success

namespace Rendered

/-- The arrows of a path, each with the step that it leads to. -/
def arrowText (asText : Bool) : List String → String
  | [] => ""
  | step :: rest =>
    (if asText && rest.isEmpty then "->>" else "->") ++ step ++ arrowText asText rest

/-- The last step is the one whose place is the number of steps. -/
theorem join_mapIdx_eq_arrowText (asText : Bool) (ss : List String) :
    String.join (ss.mapIdx fun i step =>
      (if asText && i + 1 == ss.length then "->>" else "->") ++ step) = arrowText asText ss := by
  induction ss with
  | nil => rfl
  | cons s rest ih =>
    have hlast : (0 + 1 == (s :: rest).length) = rest.isEmpty := by
      cases rest <;> simp
    have hplace : ∀ i, (i + 1 + 1 == (s :: rest).length) = (i + 1 == rest.length) := by
      intro i
      simp
    rw [List.mapIdx_cons, String.join_cons, arrowText, ← ih, hlast]
    simp only [hplace]

/-- Every arrow begins alike, and the last one may be longer. -/
theorem arrowText_cons (asText : Bool) (s : String) (rest : List String) :
    arrowText asText (s :: rest)
      = "->" ++ ((if asText && rest.isEmpty then ">" else "") ++ (s ++ arrowText asText rest)) := by
  have harrow : (if asText && rest.isEmpty then "->>" else "->")
      = "->" ++ (if asText && rest.isEmpty then ">" else "") := by
    split <;> rfl
  rw [arrowText, harrow, String.append_assoc, String.append_assoc]

theorem atArrow_arrowText (asText : Bool) (ss : List String) : AtArrow (arrowText asText ss) := by
  cases ss with
  | nil => exact .inl rfl
  | cons s rest => exact .inr ⟨_, arrowText_cons asText s rest⟩

theorem arrowText_cons_ne_empty (asText : Bool) (s : String) (rest : List String) :
    arrowText asText (s :: rest) ≠ "" := by
  intro h
  rw [arrowText_cons, ← String.toList_inj, String.toList_append] at h
  cases h

/-- No step is taken for the end of a longer arrow. -/
theorem greater_append_ne {s r x : String} (hs : Closed s) (hr : AtArrow r) :
    ">" ++ x ≠ s ++ r := by
  intro h
  have hhead := congrArg (fun t : String => t.toList.head?) h
  have hgreater : (">" ++ x).toList.head? = some '>' := by
    rw [String.toList_append]
    rfl
  rw [hgreater, String.toList_append, List.head?_append] at hhead
  cases hfirst : s.toList.head? with
  | some c =>
    rw [hfirst] at hhead
    exact hs.head?_ne (hfirst.trans hhead.symm)
  | none =>
    -- An empty step leaves the arrow that follows it, or nothing.
    rw [hfirst, Option.none_or] at hhead
    rcases hr with rfl | ⟨u, rfl⟩
    · cases hhead
    · rw [String.toList_append] at hhead
      exact absurd hhead (by decide : some '>' ≠ some '-')

/-- **Closed steps are told by the text of their arrows**, and so is the last arrow. -/
theorem arrowText_inj {asText asText' : Bool} {ss ss' : List String} (hs : ∀ s ∈ ss, Closed s)
    (hs' : ∀ s ∈ ss', Closed s) (h : arrowText asText ss = arrowText asText' ss') :
    ss = ss' ∧ (ss ≠ [] → asText = asText') := by
  induction ss generalizing ss' with
  | nil =>
    cases ss' with
    | nil => exact ⟨rfl, fun hne => absurd rfl hne⟩
    | cons s' rest' => exact absurd h.symm (arrowText_cons_ne_empty asText' s' rest')
  | cons s rest ih =>
    cases ss' with
    | nil => exact absurd h (arrowText_cons_ne_empty asText s rest)
    | cons s' rest' =>
      have hclosed := hs s List.mem_cons_self
      have hclosed' := hs' s' List.mem_cons_self
      have hr := atArrow_arrowText asText rest
      have hr' := atArrow_arrowText asText' rest'
      rw [arrowText_cons, arrowText_cons] at h
      have h := (String.append_right_inj "->").1 h
      -- The two arrows are of one length, and what follows them is told step by step.
      have hlast : (asText && rest.isEmpty) = (asText' && rest'.isEmpty) := by
        cases hl : asText && rest.isEmpty <;> cases hl' : asText' && rest'.isEmpty
        · rfl
        · rw [hl, hl', if_neg Bool.false_ne_true, if_pos rfl, String.empty_append] at h
          exact absurd h.symm (greater_append_ne hclosed hr)
        · rw [hl, hl', if_neg Bool.false_ne_true, if_pos rfl, String.empty_append] at h
          exact absurd h (greater_append_ne hclosed' hr')
        · rfl
      rw [hlast] at h
      have h := (String.append_right_inj _).1 h
      obtain ⟨rfl, hrest⟩ := hclosed.append_inj_arrow hclosed' hr hr' h
      obtain ⟨rfl, htext⟩ := ih (fun t ht => hs t (List.mem_cons_of_mem s ht))
        (fun t ht => hs' t (List.mem_cons_of_mem s ht)) hrest
      refine ⟨rfl, fun _ => ?_⟩
      cases rest with
      | nil => simpa using hlast
      | cons t rest => exact htext (List.cons_ne_nil t rest)

/-- A path of a step or more, behind closed steps, is written as so many further steps. -/
theorem arrowText_flattened (asText : Bool) (ss : List String) (d : String) {ts : List String}
    (hne : ts ≠ []) :
    arrowText false (ss ++ [d ++ arrowText asText ts]) = arrowText asText (ss ++ d :: ts) := by
  induction ss with
  | nil =>
    have hlast : (asText && ts.isEmpty) = false := by
      rw [List.isEmpty_eq_false_iff.2 hne, Bool.and_false]
    rw [List.nil_append, List.nil_append, arrowText_cons, arrowText_cons, hlast, arrowText,
      String.append_empty, Bool.false_and]
  | cons s ss ih =>
    have hlast : (asText && (ss ++ d :: ts).isEmpty) = false := by
      simp
    rw [List.cons_append, List.cons_append, arrowText_cons, arrowText_cons, ih, hlast,
      Bool.false_and]

end Rendered

namespace Expr

variable {document document' : Expr} {steps steps' : List Expr} {asText asText' : Bool}
  {type type' : HostType} {mapping mapping' : Option Mapping} {text : String}

/-- The text of a path is that of its document and the arrows of its steps. -/
theorem render_jsonPath_eq_ok_iff {flavor : Flavor} :
    (jsonPath document steps asText type mapping).render flavor = .ok text ↔
      ∃ (d : String) (ss : List String), document.asOperand <$> document.render flavor = .ok d ∧
        steps.map (render flavor) = ss.map .ok ∧ d ++ Rendered.arrowText asText ss = text := by
  rw [render, renderEach_eq_map, Rendered.jsonPath_eq_ok_iff]
  simp only [Rendered.join_mapIdx_eq_arrowText]

/-- **Two paths with one text have the same parts**: the documents have one text as operands, the
steps have the same texts, place by place, and the value at the end is taken alike.  No step may end
in a path itself. -/
theorem parts_of_render_jsonPath_eq
    (hnames : (jsonPath document steps asText type mapping).Spelled)
    (hnames' : (jsonPath document' steps' asText' type' mapping').Spelled)
    (hsteps : ∀ s ∈ steps, s.endsInPath = false) (hsteps' : ∀ s ∈ steps', s.endsInPath = false)
    (h : (jsonPath document steps asText type mapping).render .postgresql = .ok text)
    (h' : (jsonPath document' steps' asText' type' mapping').render .postgresql = .ok text) :
    document.asOperand <$> document.render .postgresql
        = document'.asOperand <$> document'.render .postgresql ∧
      steps.map (render .postgresql) = steps'.map (render .postgresql) ∧
      (steps ≠ [] → asText = asText') := by
  obtain ⟨d, ss, hd, hss, rfl⟩ := render_jsonPath_eq_ok_iff.1 h
  obtain ⟨d', ss', hd', hss', heq⟩ := render_jsonPath_eq_ok_iff.1 h'
  have hclosed : ∀ {steps : List Expr} {ss : List String}, (∀ s ∈ steps, s.Spelled) →
      (∀ s ∈ steps, s.endsInPath = false) → steps.map (render .postgresql) = ss.map .ok →
      ∀ s ∈ ss, Closed s := by
    intro steps ss hnames hends hss s hs
    obtain ⟨e, he, hr⟩ := exists_mem_eq_ok hss hs
    exact (textNests (hnames e he)).closed (hends e he) hr
  have hpart : ∀ p ∈ document :: steps, p.Spelled := fun p hp => hnames.of_mem_parts hp
  have hpart' : ∀ p ∈ document' :: steps', p.Spelled := fun p hp => hnames'.of_mem_parts hp
  rw [List.forall_mem_cons] at hpart hpart'
  have hdoc : Closed d := (textNests hpart.1).operand hd
  have hdoc' : Closed d' := (textNests hpart'.1).operand hd'
  -- The document ends at the first arrow, and each step at the next.
  obtain ⟨rfl, harrows⟩ := hdoc.append_inj_arrow hdoc' (Rendered.atArrow_arrowText asText ss)
    (Rendered.atArrow_arrowText asText' ss') heq.symm
  obtain ⟨rfl, htext⟩ := Rendered.arrowText_inj
    (hclosed hpart.2 hsteps hss) (hclosed hpart'.2 hsteps' hss') harrows
  refine ⟨hd.trans hd'.symm, hss.trans hss'.symm, ?_⟩
  intro hne
  refine htext ?_
  rintro rfl
  exact hne (by simpa using hss)

/-- A column of a customer. -/
def customer (name : String) : Expr := .column { table := "c", name, type := .string }

/-- The first of the items in a document. -/
def firstItem (document : Expr) : Expr :=
  .jsonPath document
    [.constant (.string "items") (some .text), .constant (.int ⟨.i32, 0, by decide⟩) (some .integer)]
    true .string none

/-- A sum as a document and the row of that sum are written alike, for both stand in brackets. -/
theorem parts_of_render_jsonPath_eq_firstItem :
    let sum := binary .add (customer "prefs") (customer "extras") none
    (firstItem sum).Spelled ∧ (firstItem (.row [sum])).Spelled ∧
      (firstItem sum).render .postgresql = .ok "(c.prefs + c.extras)->'items'->>0" ∧
      (firstItem (.row [sum])).render .postgresql = .ok "(c.prefs + c.extras)->'items'->>0" ∧
      sum.asOperand <$> sum.render .postgresql
        = (row [sum]).asOperand <$> (row [sum]).render .postgresql := by
  intro sum
  have hcolumn : ∀ name, (customer name).Spelled := by
    intro name
    exact spelled_iff.2 ⟨trivial, by simp [customer, parts]⟩
  have hsum : sum.Spelled := by
    refine spelled_iff.2 ⟨trivial, ?_⟩
    intro p hp
    simp only [sum, parts, List.mem_cons, List.not_mem_nil, or_false] at hp
    rcases hp with rfl | rfl
    · exact hcolumn "prefs"
    · exact hcolumn "extras"
  have hrow : (row [sum]).Spelled := by
    refine spelled_iff.2 ⟨trivial, ?_⟩
    intro p hp
    rwa [List.mem_singleton.1 hp]
  have hpath : ∀ document : Expr, document.Spelled → (firstItem document).Spelled := by
    intro document h
    refine spelled_iff.2 ⟨trivial, ?_⟩
    intro p hp
    simp only [firstItem, parts, List.mem_cons, List.not_mem_nil, or_false] at hp
    rcases hp with rfl | rfl | rfl
    · exact h
    · exact spelled_iff.2 ⟨⟨trivial, trivial⟩, by simp [parts]⟩
    · exact spelled_iff.2 ⟨⟨trivial, trivial⟩, by simp [parts]⟩
  have hends : ∀ s ∈ [Expr.constant (.string "items") (some .text),
      .constant (.int ⟨.i32, 0, by decide⟩) (some .integer)], s.endsInPath = false := by
    simp [endsInPath]
  have h : (firstItem sum).render .postgresql = .ok "(c.prefs + c.extras)->'items'->>0" := by rfl
  have h' : (firstItem (.row [sum])).render .postgresql
      = .ok "(c.prefs + c.extras)->'items'->>0" := by rfl
  exact ⟨hpath _ hsum, hpath _ hrow, h, h',
    (parts_of_render_jsonPath_eq (hpath _ hsum) (hpath _ hrow) hends hends h h').1⟩

/-! ### Steps that are paths -/

/-- **A path that is the last step of a path is written as its own steps.**  The step stands
without brackets, so that nothing tells the two apart. -/
theorem render_jsonPath_flattened (steps : List Expr) {flavor : Flavor} {inner : Expr}
    {innerSteps : List Expr} (hbare : ∀ t, inner.asOperand t = t) (hne : innerSteps ≠ []) :
    (jsonPath document (steps ++ [jsonPath inner innerSteps asText type mapping]) false type'
        mapping').render flavor = .ok text ↔
      (jsonPath document (steps ++ inner :: innerSteps) asText type' mapping').render flavor
        = .ok text := by
  have hinner : ∀ d, inner.asOperand <$> inner.render flavor = .ok d ↔
      inner.render flavor = .ok d := by
    intro d
    simp only [map_eq_ok_iff, hbare, exists_eq_right]
  rw [render_jsonPath_eq_ok_iff, render_jsonPath_eq_ok_iff]
  simp only [List.map_append, List.map_cons, List.map_nil]
  have htexts : ∀ {ts : List String}, innerSteps.map (render flavor) = ts.map .ok → ts ≠ [] := by
    rintro ts hts rfl
    exact hne (by simpa using hts)
  constructor
  · rintro ⟨d, ss, hd, hss, rfl⟩
    obtain ⟨ss, last, rfl, hsteps, hlast⟩ := List.append_eq_map_iff.1 hss
    obtain ⟨t, rfl, ht⟩ := List.map_eq_singleton_iff.1 hlast
    obtain ⟨i, ts, hi, hts, rfl⟩ := render_jsonPath_eq_ok_iff.1 ht.symm
    refine ⟨d, ss ++ i :: ts, hd, ?_, ?_⟩
    · rw [List.map_append, List.map_cons, hsteps, ← hts, ← (hinner i).1 hi]
    · rw [Rendered.arrowText_flattened asText ss i (htexts hts)]
  · rintro ⟨d, ss, hd, hss, rfl⟩
    obtain ⟨ss, rest, rfl, hsteps, hrest⟩ := List.append_eq_map_iff.1 hss
    obtain ⟨i, ts, rfl, hi, hts⟩ := List.map_eq_cons_iff.1 hrest
    refine ⟨d, ss ++ [i ++ Rendered.arrowText asText ts], hd, ?_, ?_⟩
    · have hlast : (jsonPath inner innerSteps asText type mapping).render flavor
          = .ok (i ++ Rendered.arrowText asText ts) :=
        render_jsonPath_eq_ok_iff.2 ⟨i, ts, (hinner i).2 hi.symm, hts.symm, rfl⟩
      rw [List.map_append, List.map_cons, List.map_nil, hsteps, hlast]
    · rw [Rendered.arrowText_flattened asText ss i (htexts hts.symm)]

/-- The entry of a document under the entry of `key` under `sub`. -/
def entryUnderEntry : Expr :=
  .jsonPath (customer "doc") [.jsonPath (customer "key") [customer "sub"] false .string none] false
    .string none

/-- The entry of a document under `key`, and in that the entry under `sub`. -/
def entryInEntry : Expr :=
  .jsonPath (customer "doc") [customer "key", customer "sub"] false .string none

/-- The two have one text, though the one has a single step and the other has two. -/
theorem render_entryUnderEntry_eq_entryInEntry :
    entryUnderEntry.render .postgresql = .ok "c.doc->c.key->c.sub" ∧
      entryInEntry.render .postgresql = .ok "c.doc->c.key->c.sub" ∧
      entryUnderEntry.parts.length ≠ entryInEntry.parts.length := by
  have h : entryInEntry.render .postgresql = .ok "c.doc->c.key->c.sub" := by rfl
  refine ⟨?_, h, by decide⟩
  exact (render_jsonPath_flattened [] (fun _ => rfl) (List.cons_ne_nil _ _)).2 h

end Expr

end PgFragment
