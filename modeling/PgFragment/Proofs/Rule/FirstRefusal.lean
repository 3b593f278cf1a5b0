import Mathlib.Data.List.Forall2
import PgFragment.Rule.Standard

namespace PgFragment

/-!
# First refusal

Rules are added to a registry in lists, any number of times, and each list goes in front of all that
was there.  So the rules are asked from the newest list to the oldest, in each list from its first
rule on, and the first one that takes a call settles it.  A rule that declines a call has no say in
it: it may as well be missing.

* `Registry.adding_eq` — the order of the rules, whatever lists were added.
* `Registry.lower_eq_some_iff` — a registry answers as the first rule that takes the call.
* `Registry.Pruned` — a registry without some of the rules that decline a call.
* `Registry.lower_eq_of_sublist` — a call is settled as the rules that take it settle it alone.
* `Registry.lower_adding` — which rule has the first refusal after any additions.
-/

variable {Call : Type} {rule : Rule Call} {rules kept takers : Registry Call} {call : Call}

/-! ### Rules that take a call -/

/-- The rule offers an expression for the call. -/
def Rule.Takes (rule : Rule Call) (call : Call) : Prop := ∃ e, rule.lower call = .lowered e

theorem Rule.expr?_eq_some_iff {e : Expr} :
    (rule.lower call).expr? = some e ↔ rule.lower call = .lowered e := by
  cases rule.lower call with
  | lowered e' => simp [Outcome.expr?]
  | declined note => simp [Outcome.expr?]

theorem Rule.expr?_eq_none_iff : (rule.lower call).expr? = none ↔ ¬rule.Takes call := by
  rw [Option.eq_none_iff_forall_ne_some, Rule.Takes, not_exists]
  simp only [ne_eq, Rule.expr?_eq_some_iff]

namespace Registry

/-- The answer of a registry, without the rule that it comes from. -/
theorem lower_eq_findSome? (rules : Registry Call) (call : Call) :
    rules.lower call = rules.findSome? fun rule => (rule.lower call).expr? := by
  rw [lower, claim?, List.map_findSome?]
  congr 1
  funext rule
  rw [Function.comp_apply, Option.map_map]
  exact Option.map_id'

/-- **A registry answers as the first rule that takes the call.** -/
theorem lower_eq_some_iff {e : Expr} :
    rules.lower call = some e ↔
      ∃ before rule after, rules = before ++ rule :: after ∧ (∀ q ∈ before, ¬q.Takes call) ∧
        rule.lower call = .lowered e := by
  rw [lower_eq_findSome?, List.findSome?_eq_some_iff]
  simp only [Rule.expr?_eq_some_iff, Rule.expr?_eq_none_iff]
  constructor
  · rintro ⟨before, rule, after, hrules, hrule, hbefore⟩
    exact ⟨before, rule, after, hrules, hbefore, hrule⟩
  · rintro ⟨before, rule, after, hrules, hbefore, hrule⟩
    exact ⟨before, rule, after, hrules, hrule, hbefore⟩

/-- A registry gives no answer exactly when every rule declines. -/
theorem lower_eq_none_iff : rules.lower call = none ↔ ∀ q ∈ rules, ¬q.Takes call := by
  rw [lower_eq_findSome?, List.findSome?_eq_none_iff]
  simp only [Rule.expr?_eq_none_iff]

/-! ### Rules that decline a call -/

/-- The registry without some of the rules that decline the call. -/
inductive Pruned (call : Call) : Registry Call → Registry Call → Prop
  | nil : Pruned call [] []
  | keep {rules kept : Registry Call} (rule : Rule Call) (h : Pruned call rules kept) :
    Pruned call (rule :: rules) (rule :: kept)
  | drop {rules kept : Registry Call} {rule : Rule Call} (hrule : ¬rule.Takes call)
    (h : Pruned call rules kept) : Pruned call (rule :: rules) kept

theorem Pruned.append {newer newer' older older' : Registry Call} (h : Pruned call newer newer')
    (h' : Pruned call older older') : Pruned call (newer ++ older) (newer' ++ older') := by
  induction h with
  | nil => exact h'
  | keep rule _ ih => exact .keep rule ih
  | drop hrule _ ih => exact .drop hrule ih

/-- **A rule that declines a call has no say in it.** -/
theorem Pruned.claim?_eq (h : Pruned call rules kept) : kept.claim? call = rules.claim? call := by
  induction h with
  | nil => rfl
  | keep rule _ ih =>
    rw [claim?, claim?] at ih
    rw [claim?, claim?, List.findSome?_cons, List.findSome?_cons, ih]
  | drop hrule _ ih =>
    rw [ih, claim?, claim?, List.findSome?_cons, Rule.expr?_eq_none_iff.2 hrule]
    rfl

theorem Pruned.lower_eq (h : Pruned call rules kept) : kept.lower call = rules.lower call := by
  rw [lower, lower, h.claim?_eq]

/-- What is left of a registry without repetitions, when it holds all rules that take a call. -/
theorem pruned_of_sublist (hsub : takers.Sublist rules) (hnodup : rules.Nodup)
    (htakers : ∀ q ∈ rules, q.Takes call → q ∈ takers) : Pruned call rules takers := by
  induction hsub with
  | slnil => exact .nil
  | @cons takers rest q hsub ih =>
    obtain ⟨hq, hrest⟩ := List.nodup_cons.1 hnodup
    -- A rule that is left out would stand a second time among those that follow if it took the call.
    have hdecline : ¬q.Takes call := fun htakes =>
      hq (hsub.subset (htakers q List.mem_cons_self htakes))
    exact .drop hdecline (ih hrest fun r hr htakes => htakers r (List.mem_cons_of_mem q hr) htakes)
  | @cons_cons takers rest q hsub ih =>
    obtain ⟨hq, hrest⟩ := List.nodup_cons.1 hnodup
    refine .keep q (ih hrest fun r hr htakes => ?_)
    exact (List.mem_cons.1 (htakers r (List.mem_cons_of_mem q hr) htakes)).resolve_left
      fun heq => hq (heq ▸ hr)

/-- **Only the rules that take a call have a say in it**, in the order in which they stand. -/
theorem lower_eq_of_sublist (hsub : takers.Sublist rules) (hnodup : rules.Nodup)
    (htakers : ∀ q ∈ rules, q.Takes call → q ∈ takers) : rules.lower call = takers.lower call :=
  (pruned_of_sublist hsub hnodup htakers).lower_eq.symm

/-! ### Any number of additions -/

/-- The registry with lists of rules added one after another. -/
def adding (base : Registry Call) (lists : List (List (Rule Call))) : Registry Call :=
  lists.foldl add base

/-- **The newest list comes first**, and every list keeps its own order. -/
theorem adding_eq (base : Registry Call) (lists : List (List (Rule Call))) :
    base.adding lists = lists.reverse.flatten ++ base := by
  induction lists generalizing base with
  | nil => rfl
  | cons newer lists ih =>
    rw [adding, List.foldl_cons, ← adding, ih, add, List.reverse_cons, List.flatten_append,
      List.flatten_singleton, List.append_assoc]

/-- By induction on the lists that are added: each is put in front of a registry that is pruned
already. -/
theorem pruned_adding {base base' : Registry Call} {lists lists' : List (List (Rule Call))}
    (hbase : Pruned call base base') (hlists : List.Forall₂ (Pruned call) lists lists') :
    Pruned call (base.adding lists) (base'.adding lists') := by
  induction hlists generalizing base base' with
  | nil => exact hbase
  | cons hnewer _ ih => exact ih (hnewer.append hbase)

/-- **First refusal.**  Whatever lists of rules were added to a registry, they stand in it from the
newest to the oldest with the registry itself at the end.  In that order the first rule that takes a
call settles it, a call is left unsettled only if all rules decline it, and taking rules that decline
it out of any of the lists changes nothing. -/
theorem lower_adding (base : Registry Call) (lists : List (List (Rule Call))) (call : Call) :
    base.adding lists = lists.reverse.flatten ++ base ∧
      (∀ e, (base.adding lists).lower call = some e ↔
        ∃ before rule after, lists.reverse.flatten ++ base = before ++ rule :: after ∧
          (∀ q ∈ before, ¬q.Takes call) ∧ rule.lower call = .lowered e) ∧
      ((base.adding lists).lower call = none ↔
        ∀ q ∈ lists.reverse.flatten ++ base, ¬q.Takes call) ∧
      ∀ base' lists', Pruned call base base' → List.Forall₂ (Pruned call) lists lists' →
        (adding base' lists').lower call = (base.adding lists).lower call := by
  refine ⟨adding_eq base lists, ?_, ?_, ?_⟩
  · intro e
    rw [← adding_eq, lower_eq_some_iff]
  · rw [← adding_eq, lower_eq_none_iff]
  · intro base' lists' hbase hlists
    exact (pruned_adding hbase hlists).lower_eq

/-- A rule that declines every call. -/
def quiet : Rule MethodCall := .always "quiet" none

/-- A rule that offers a truth value for every call. -/
def eager (b : Bool) : Rule MethodCall := .always "eager" (some (.constant (.bool b) none))

/-- The text of a truth value, which is among the calls that the standard rules take. -/
def textOfTruth : MethodCall := ⟨some (.constant (.bool true) none), .toString, []⟩

/-- Of two lists in front of the standard rules, the second rule of the list that was added last
settles the call, and it does so, too, when the rules that decline are taken out. -/
theorem lower_adding_twoLists :
    (methods ⟨false, []⟩).adding [[quiet, eager false], [quiet, eager true]]
        = [quiet, eager true, quiet, eager false, .toText ⟨false, []⟩ .standard,
            .databaseFunctions ⟨false, []⟩] ∧
      ((methods ⟨false, []⟩).adding [[quiet, eager false], [quiet, eager true]]).lower textOfTruth
        = some (.constant (.bool true) none) ∧
      (adding [.toText ⟨false, []⟩ .standard] [[eager false], [eager true]]).lower textOfTruth
        = some (.constant (.bool true) none) := by
  obtain ⟨horder, hfirst, -, hpruned⟩ :=
    lower_adding (methods ⟨false, []⟩) [[quiet, eager false], [quiet, eager true]] textOfTruth
  have hquiet : ¬quiet.Takes textOfTruth := by
    rintro ⟨e, ⟨⟩⟩
  have hfunctions : ¬(Rule.databaseFunctions ⟨false, []⟩).Takes textOfTruth := by
    rintro ⟨e, ⟨⟩⟩
  have hanswer := (hfirst (.constant (.bool true) none)).2
    ⟨[quiet], eager true, [quiet, eager false] ++ methods ⟨false, []⟩, rfl,
      List.forall_mem_singleton.2 hquiet, rfl⟩
  have hlist : ∀ b : Bool, Pruned textOfTruth [quiet, eager b] [eager b] := fun b =>
    .drop hquiet (.keep (eager b) .nil)
  have hbase : Pruned textOfTruth (methods ⟨false, []⟩) [.toText ⟨false, []⟩ .standard] :=
    .keep _ (.drop hfunctions .nil)
  have hkept := hpruned _ _ hbase (.cons (hlist false) (.cons (hlist true) .nil))
  exact ⟨horder, hanswer, hkept.trans hanswer⟩

end Registry

end PgFragment
