import PgFragment.Mapping.Basic
import PgFragment.Proofs.Text.Words
import PgFragment.Proofs.Value.Comparison

namespace PgFragment

/-!
# Comparing what is bound

The comparer of a mapping and its rule for parameters each leave out what does not count of a value
in a column.  Both are comparers, and two values are equal in the column exactly when the parameters
that they are bound as denote the same, as long as the two are one.

* `Comparer.reduce_reduce` — what counts of a value counts as a whole.
* `Comparer.equals_inj` — comparers are told apart by what they hold equal.
* `Mapping.parameter_eq_reduce` — a value is bound as what counts of it.
* `Mapping.equals_eq_equals_parameter_iff` — the mappings for which comparing values is comparing
  parameters.
-/

open Text

namespace Text

theorem trimEnd_trimEnd (s : List Char) : trimEnd (trimEnd s) = trimEnd s :=
  trimEnd_eq_self fun _ => isBlank_getLast_trimEnd

theorem trimEndString_trimEndString (s : String) :
    trimEndString (trimEndString s) = trimEndString s := by
  rw [trimEndString, trimEndString, String.toList_ofList, trimEnd_trimEnd]

end Text

/-! ### What counts of a value -/

namespace Comparer

variable {c d : Comparer}

/-- **What counts of a value counts as a whole.** -/
theorem reduce_reduce (c : Comparer) (v : Value) : c.reduce (c.reduce v) = c.reduce v := by
  cases v with
  | string s =>
    cases c with
    | default => rfl
    | character => exact congrArg Value.string (trimEndString_trimEndString s)
  | _ => rfl

theorem reduce_default (v : Value) : Comparer.default.reduce v = v := by
  cases v <;> rfl

/-- Comparing by a rule is comparing all of what counts under it. -/
theorem equals_eq_equals_reduce (c : Comparer) (a b : Value) :
    c.equals a b = Comparer.default.equals (c.reduce a) (c.reduce b) := by
  rw [equals_eq_same, equals_eq_same, reduce_default, reduce_default]

/-- **Comparers are told apart by what they hold equal**: a blank, or none. -/
theorem equals_inj (h : ∀ a b, c.equals a b = d.equals a b) : c = d := by
  have hblank := h (.string "") (.string " ")
  cases c <;> cases d
  case default.default | character.character => rfl
  all_goals exact absurd hblank (by decide +kernel)

end Comparer

/-! ### What is bound -/

namespace Mapping

/-- The rule that says what counts of a value that is bound as a parameter. -/
def parameterRule (m : Mapping) : Comparer :=
  if m.kind = .scalar .character then .character else .default

/-- **A value is bound as what counts of it.** -/
theorem parameter_eq_reduce (m : Mapping) (v : Value) : m.parameter v = m.parameterRule.reduce v := by
  by_cases hkind : m.kind = .scalar .character
  · rw [parameterRule, if_pos hkind]
    cases v with
    | string s =>
      simp only [parameter, hkind]
      rfl
    | _ => simp [parameter, Comparer.reduce]
  · rw [parameterRule, if_neg hkind, Comparer.reduce_default, parameter]
    exact fun _ hcharacter => absurd hcharacter hkind

/-- The rule for parameters is the comparer, but for fixed-width text of other types than strings. -/
theorem comparer_eq_parameterRule_iff (m : Mapping) :
    m.comparer = m.parameterRule ↔ (m.kind = .scalar .character → m.type = .string) := by
  unfold comparer parameterRule
  by_cases hkind : m.kind = .scalar .character <;> by_cases htype : m.type = .string <;>
    simp [hkind, htype]

/-- **Comparing values is comparing what they are bound as.**  Two values are equal in the column of a
mapping exactly when their parameters denote the same, for every mapping but those of fixed-width text
that hold something else than strings, and binding a parameter once more does not change it. -/
theorem equals_eq_equals_parameter_iff (m : Mapping) :
    ((∀ a b, m.comparer.equals a b = Comparer.default.equals (m.parameter a) (m.parameter b)) ↔
        (m.kind = .scalar .character → m.type = .string)) ∧
      ∀ v, m.parameter (m.parameter v) = m.parameter v := by
  simp only [parameter_eq_reduce, ← Comparer.equals_eq_equals_reduce]
  refine ⟨?_, Comparer.reduce_reduce m.parameterRule⟩
  rw [← comparer_eq_parameterRule_iff]
  constructor
  · exact Comparer.equals_inj
  · intro hrule a b
    rw [hrule]

end Mapping

end PgFragment
