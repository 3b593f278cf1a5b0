import Mathlib.Data.List.Forall2
import PgFragment.Proofs.Expr.ErasedMappings
import PgFragment.Proofs.Expr.Renders

namespace PgFragment

/-!
# Inference changes no text

A builder may give a mapping to an argument that has none.  What it builds is apart from mappings
the plain node over the same arguments, an argument that has a mapping stays as it is, and where
the arguments render the two nodes are written alike.

* `Build` — a builder with its arguments, built with inferred mappings or plainly.
* `Build.eraseMappings_inferred`, `Build.keeps_inferred`, `Build.render_inferred` — each of the
  three facts, builder by builder; `Build.inferred_agrees_plain` puts them together.
-/

/-- An expression to be built: a builder with its arguments.  Rows to be compared are equally
long. -/
inductive Build where
  | binary (op : BinaryOp) (lhs rhs : Expr)
  | rowComparison (op : BinaryOp) (lhs rhs : List Expr) (balanced : lhs.length = rhs.length)
  | case (whens : List (Expr × Expr)) (otherwise : Option Expr)
  | convert (operand : Expr) (type : HostType) (mapping : Mapping)
  | function (callee : Callee) (args : List Expr)
  | aggregate (callee : Callee) (args : List Expr) (source : RowSource)
  | ilike (subject pattern : Expr) (escape : Option Expr)
  | jsonPath (document : Expr) (steps : List Expr) (asText : Bool) (type : HostType)
      (mapping : Option Mapping)

namespace Build

/-- What the builder makes of the arguments. -/
def inferred (catalog : Catalog) : Build → Expr
  | .binary op lhs rhs => catalog.binary op lhs rhs
  | .rowComparison op lhs rhs _ => catalog.rowComparison op lhs rhs
  | .case whens otherwise => catalog.case whens otherwise
  | .convert operand type mapping => catalog.convert operand type (some mapping)
  | .function callee args => catalog.function callee args
  | .aggregate callee args source => catalog.aggregate callee args source
  | .ilike subject pattern escape => catalog.ilike subject pattern escape
  | .jsonPath document steps asText type mapping =>
    catalog.jsonPath document steps asText type mapping

/-- The node over the arguments as they are, with no mapping but one that is given. -/
def plain : Build → Expr
  | .binary op lhs rhs => .binary op lhs rhs none
  | .rowComparison op lhs rhs _ => .binary op (.row lhs) (.row rhs) none
  | .case whens otherwise => .case none whens otherwise none
  | .convert operand type mapping => .cast operand type (some mapping)
  | .function callee args => .func callee args
  | .aggregate callee args source =>
    .aggregate callee args source.distinct source.filter source.orderings
  | .ilike subject pattern escape => .like subject pattern escape true none
  | .jsonPath document steps asText type mapping => .jsonPath document steps asText type mapping

/-- What stands in a node of this kind at the places of the arguments. -/
def places (b : Build) (node : Expr) : List Expr :=
  match b with
  | .rowComparison .. => node.parts.flatMap Expr.parts
  | _ => node.parts

/-- The arguments in the order in which they are written, those that the source of an aggregate
brings included. -/
def args (b : Build) : List Expr := b.places b.plain

end Build

/-! ### What inference keeps of an argument -/

/-- Where an expression with a mapping was given, it still stands. -/
def Expr.KeptAs (given placed : Expr) : Prop := given.mapping.isSome = true → placed = given

namespace Catalog

variable (catalog : Catalog)

theorem keptAs_applyDefault (e : Expr) : e.KeptAs (catalog.applyDefault e) := by
  intro h
  exact if_pos (by rw [h, Bool.true_or])

theorem keptAs_applyMapping (proposed : Option Mapping) (e : Expr) :
    e.KeptAs (catalog.applyMapping proposed e) := by
  intro h
  exact if_pos h

/-- Inference keeps the bracketing of operands, which goes by the kind of a node. -/
theorem asOperand_applyDefault (e : Expr) : (catalog.applyDefault e).asOperand = e.asOperand :=
  catalog.applyDefault_of_withMapping Expr.asOperand_withMapping e

theorem asOperand_applyMapping (proposed : Option Mapping) (e : Expr) :
    (catalog.applyMapping proposed e).asOperand = e.asOperand :=
  catalog.applyMapping_of_withMapping Expr.asOperand_withMapping proposed e

end Catalog

/-! ### Every builder -/

namespace Build

open Catalog

variable (catalog : Catalog)

/-- One side of two rows put together, when the row on that side is no longer than the other. -/
theorem map_zip_fst {α β γ : Type} (f : α → γ) {xs : List α} {ys : List β}
    (h : xs.length ≤ ys.length) : (xs.zip ys).map (fun p => f p.1) = xs.map f := by
  rw [← List.map_fst_zip h, List.map_map, List.map_fst_zip h]
  rfl

theorem map_zip_snd {α β γ : Type} (f : β → γ) {xs : List α} {ys : List β}
    (h : ys.length ≤ xs.length) : (xs.zip ys).map (fun p => f p.2) = ys.map f := by
  rw [← List.map_snd_zip h, List.map_map, List.map_snd_zip h]
  rfl

/-- **Mappings apart, inference builds the plain node.** -/
theorem eraseMappings_inferred (b : Build) :
    (b.inferred catalog).eraseMappings = b.plain.eraseMappings := by
  cases b with
  | binary op lhs rhs =>
    simp only [inferred, plain, Catalog.binary, Expr.eraseMappings, eraseMappings_applyMapping]
  | rowComparison op lhs rhs balanced =>
    simp only [inferred, plain, Catalog.rowComparison, Expr.eraseMappings,
      Expr.eraseMappingsEach_eq_map, List.map_map, Function.comp_def, eraseMappings_applyMapping,
      map_zip_fst Expr.eraseMappings (Nat.le_of_eq balanced),
      map_zip_snd Expr.eraseMappings (Nat.le_of_eq balanced.symm)]
  | case whens otherwise =>
    simp only [inferred, plain, Catalog.case, Expr.withMapping, Expr.eraseMappings,
      Expr.eraseMappingsClauses_eq_map, Expr.eraseMappingsOption_eq_map, List.map_map,
      Option.map_map, Function.comp_def, eraseMappings_applyMapping, eraseMappings_applyDefault]
  | convert operand type mapping =>
    simp only [inferred, plain, Catalog.convert, Expr.eraseMappings, eraseMappings_applyDefault]
  | function callee args =>
    simp only [inferred, plain, Catalog.function, Expr.eraseMappings,
      Expr.eraseMappingsEach_eq_map, List.map_map, Function.comp_def, eraseMappings_applyDefault]
  | aggregate callee args source =>
    simp only [inferred, plain, Catalog.aggregate, Expr.eraseMappings,
      Expr.eraseMappingsEach_eq_map, List.map_map, Function.comp_def, eraseMappings_applyDefault]
  | ilike subject pattern escape =>
    simp only [inferred, plain, Catalog.ilike, Expr.eraseMappings,
      Expr.eraseMappingsOption_eq_map, Option.map_map, Function.comp_def,
      eraseMappings_applyMapping]
  | jsonPath document steps asText type mapping =>
    simp only [inferred, plain, Catalog.jsonPath, Expr.eraseMappings,
      Expr.eraseMappingsEach_eq_map, List.map_map, Function.comp_def, eraseMappings_applyDefault]

/-- Arguments that may be given mappings, each by a rule of its own. -/
theorem forall₂_keptAs_map {α : Type} {given placed : α → Expr} (xs : List α)
    (h : ∀ x, (given x).KeptAs (placed x)) :
    List.Forall₂ Expr.KeptAs (xs.map given) (xs.map placed) :=
  List.forall₂_map_left_iff.2 (List.forall₂_map_right_iff.2 (List.forall₂_same.2 fun x _ => h x))

theorem forall₂_keptAs_self (es : List Expr) : List.Forall₂ Expr.KeptAs es es :=
  List.forall₂_same.2 fun _ _ _ => rfl

theorem forall₂_keptAs_each (es : List Expr) :
    List.Forall₂ Expr.KeptAs es (es.map catalog.applyDefault) :=
  List.forall₂_map_right_iff.2 (List.forall₂_same.2 fun e _ => catalog.keptAs_applyDefault e)

theorem forall₂_keptAs_option (proposed : Option Mapping) (o : Option Expr) :
    List.Forall₂ Expr.KeptAs o.toList (o.map (catalog.applyMapping proposed)).toList := by
  cases o with
  | none => exact .nil
  | some e => exact .cons (catalog.keptAs_applyMapping proposed e) .nil

theorem forall₂_keptAs_clauses (proposed : Option Mapping) (whens : List (Expr × Expr)) :
    List.Forall₂ Expr.KeptAs (whens.flatMap fun w => [w.1, w.2])
      ((whens.map fun w => (catalog.applyDefault w.1, catalog.applyMapping proposed w.2)).flatMap
        fun w => [w.1, w.2]) := by
  induction whens with
  | nil => exact .nil
  | cons w whens ih =>
    exact .cons (catalog.keptAs_applyDefault w.1)
      (.cons (catalog.keptAs_applyMapping proposed w.2) ih)

/-- **An argument with a mapping stands as it was given.** -/
theorem keeps_inferred (b : Build) :
    List.Forall₂ Expr.KeptAs b.args (b.places (b.inferred catalog)) := by
  cases b with
  | binary op lhs rhs =>
    exact .cons (catalog.keptAs_applyMapping _ lhs) (.cons (catalog.keptAs_applyMapping _ rhs) .nil)
  | rowComparison op lhs rhs balanced =>
    have hl := forall₂_keptAs_map (lhs.zip rhs) fun p =>
      catalog.keptAs_applyMapping (firstMapping [p.1, p.2]) p.1
    have hr := forall₂_keptAs_map (lhs.zip rhs) fun p =>
      catalog.keptAs_applyMapping (firstMapping [p.1, p.2]) p.2
    rw [List.map_fst_zip (Nat.le_of_eq balanced)] at hl
    rw [List.map_snd_zip (Nat.le_of_eq balanced.symm)] at hr
    exact List.rel_append hl (List.rel_append hr .nil)
  | case whens otherwise =>
    exact List.rel_append (forall₂_keptAs_clauses catalog _ whens)
      (forall₂_keptAs_option catalog _ otherwise)
  | convert operand type mapping => exact .cons (catalog.keptAs_applyDefault operand) .nil
  | function callee args => exact forall₂_keptAs_each catalog args
  | aggregate callee args source =>
    exact List.rel_append (List.rel_append (forall₂_keptAs_each catalog args)
      (forall₂_keptAs_self _)) (forall₂_keptAs_self _)
  | ilike subject pattern escape =>
    exact .cons (catalog.keptAs_applyMapping _ subject)
      (.cons (catalog.keptAs_applyMapping _ pattern) (forall₂_keptAs_option catalog _ escape))
  | jsonPath document steps asText type mapping =>
    exact .cons (fun _ => rfl) (forall₂_keptAs_each catalog steps)

variable {catalog}

/-- **Where the arguments render, inference changes no text.** -/
theorem render_inferred {flavor : Flavor} {b : Build} (h : ∀ a ∈ b.args, a.Renders flavor) :
    (b.inferred catalog).render flavor = b.plain.render flavor := by
  cases b with
  | binary op lhs rhs =>
    have hl : lhs.Renders flavor := h lhs (by simp [args, places, plain, Expr.parts])
    have hr : rhs.Renders flavor := h rhs (by simp [args, places, plain, Expr.parts])
    simp only [inferred, plain, Catalog.binary, Expr.render, render_applyMapping hl,
      render_applyMapping hr, asOperand_applyMapping]
  | rowComparison op lhs rhs balanced =>
    simp only [args, places, plain, Expr.parts, List.flatMap_cons, List.flatMap_nil,
      List.append_nil, List.mem_append] at h
    have hl : ((lhs.zip rhs).map fun p => catalog.applyMapping (firstMapping [p.1, p.2]) p.1).map
        (Expr.render flavor) = lhs.map (Expr.render flavor) := by
      rw [← map_zip_fst (Expr.render flavor) (Nat.le_of_eq balanced), List.map_map]
      apply List.map_congr_left
      intro p hp
      exact render_applyMapping (h p.1 (.inl (List.of_mem_zip hp).1)) _
    have hr : ((lhs.zip rhs).map fun p => catalog.applyMapping (firstMapping [p.1, p.2]) p.2).map
        (Expr.render flavor) = rhs.map (Expr.render flavor) := by
      rw [← map_zip_snd (Expr.render flavor) (Nat.le_of_eq balanced.symm), List.map_map]
      apply List.map_congr_left
      intro p hp
      exact render_applyMapping (h p.2 (.inr (List.of_mem_zip hp).2)) _
    simp only [inferred, plain, Catalog.rowComparison, Expr.render, Expr.renderEach_eq_map, hl, hr]
    rfl
  | case whens otherwise =>
    simp only [args, places, plain, Expr.parts, Option.toList_none, List.nil_append,
      List.mem_append, Option.mem_toList, List.mem_flatMap, List.mem_cons, List.not_mem_nil,
      or_false] at h
    have hwhens : ∀ proposed, Expr.renderClauses flavor (whens.map fun w =>
        (catalog.applyDefault w.1, catalog.applyMapping proposed w.2))
          = Expr.renderClauses flavor whens := by
      intro proposed
      rw [Expr.renderClauses_eq_map, Expr.renderClauses_eq_map, List.map_map]
      apply List.map_congr_left
      intro w hw
      rw [Function.comp_apply, render_applyDefault (h w.1 (.inl ⟨w, hw, .inl rfl⟩)),
        render_applyMapping (h w.2 (.inl ⟨w, hw, .inr rfl⟩))]
    simp only [inferred, plain, Catalog.case, Expr.withMapping, Expr.render, hwhens,
      Expr.renderOption_map fun a ha => render_applyMapping (h a (.inr ha)) _]
  | convert operand type mapping =>
    have ho : operand.Renders flavor := h operand (by simp [args, places, plain, Expr.parts])
    simp only [inferred, plain, Catalog.convert, Option.some_or, Expr.render,
      render_applyDefault ho, asOperand_applyDefault]
  | function callee args =>
    simp only [Build.args, places, plain, Expr.parts] at h
    rw [inferred, plain, Catalog.function, Expr.render, Expr.render,
      Expr.renderEach_map fun a ha => render_applyDefault (h a ha)]
  | aggregate callee args source =>
    simp only [Build.args, places, plain, Expr.parts, List.mem_append] at h
    rw [inferred, plain, Catalog.aggregate, Expr.render, Expr.render,
      Expr.renderEach_map fun a ha => render_applyDefault (h a (.inl (.inl ha)))]
  | ilike subject pattern escape =>
    simp only [args, places, plain, Expr.parts, List.mem_append, List.mem_cons, List.not_mem_nil,
      or_false, Option.mem_toList] at h
    rw [inferred, plain, Catalog.ilike, Expr.render, Expr.render, asOperand_applyMapping,
      asOperand_applyMapping, render_applyMapping (h subject (.inl (.inl rfl))),
      render_applyMapping (h pattern (.inl (.inr rfl))),
      Expr.renderOption_map fun a ha => render_applyMapping (h a (.inr ha)) _]
  | jsonPath document steps asText type mapping =>
    simp only [args, places, plain, Expr.parts, List.mem_cons] at h
    rw [inferred, plain, Catalog.jsonPath, Expr.render, Expr.render,
      Expr.renderEach_map fun a ha => render_applyDefault (h a (.inr ha))]

/-- **Inference changes nothing but mappings, and no text.**  Whatever a builder makes of its
arguments is apart from mappings the plain node over them; an argument that has a mapping stands as
it was given; and where every argument renders in a dialect, both nodes have the same text there, or
fail alike. -/
theorem inferred_agrees_plain (catalog : Catalog) (b : Build) :
    (b.inferred catalog).eraseMappings = b.plain.eraseMappings ∧
    List.Forall₂ Expr.KeptAs b.args (b.places (b.inferred catalog)) ∧
    ∀ flavor, (∀ a ∈ b.args, a.Renders flavor) →
      (b.inferred catalog).render flavor = b.plain.render flavor := by
  refine ⟨eraseMappings_inferred catalog b, keeps_inferred catalog b, ?_⟩
  intro flavor h
  exact render_inferred h

/-- A remark on what is not paid; the null in it has no mapping. -/
def lateUnlessPaid : Build :=
  .case [(.column { table := "o", name := "paid", type := .bool }, .null)]
    (some (.constant (.string "late") (some .text)))

/-- The null is given the mapping of the remark, and is written as it was. -/
theorem inferred_agrees_plain_lateUnlessPaid :
    (∀ a ∈ lateUnlessPaid.args, a.Renders .redshift) ∧
      (lateUnlessPaid.inferred ⟨false, []⟩).parts[1]? = some (.constant .null (some .text)) ∧
      (lateUnlessPaid.inferred ⟨false, []⟩).render .redshift
        = .ok "CASE WHEN o.paid THEN NULL ELSE 'late' END" := by
  have h : ∀ a ∈ lateUnlessPaid.args, a.Renders .redshift := by
    intro a ha
    simp only [lateUnlessPaid, args, places, plain, Expr.parts, List.flatMap_cons,
      List.flatMap_nil, Option.toList_none, Option.toList_some, List.nil_append, List.cons_append,
      List.mem_cons, List.not_mem_nil, or_false] at ha
    rcases ha with rfl | rfl | rfl
    · exact ⟨"o.paid", by rfl⟩
    · exact ⟨"NULL", by rfl⟩
    · exact ⟨"'late'", by rfl⟩
  refine ⟨h, rfl, ?_⟩
  rw [(inferred_agrees_plain ⟨false, []⟩ lateUnlessPaid).2.2 .redshift h]
  rfl

end Build

end PgFragment
