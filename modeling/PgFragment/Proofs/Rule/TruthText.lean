import PgFragment.Proofs.Rule.FoldedRows

namespace PgFragment

/-!
# Truth values as text

The host writes a truth value as `True` or `False` and an unknown one as null.  The database is sent
a `CASE` on the value, which tells all three apart for a column that may be null and only false from
the rest for anything else.

* `Expr.logicalValue` — the value of an expression in a row, equality and `CASE` in three-valued
  logic.
* `Catalog.logicalValue_boolText` — what the `CASE` on a truth value comes to.
* `Rule.toText_truth_iff` — when that is what the host writes.
-/

/-! ### Three-valued logic -/

namespace Value

/-- A truth value as SQL holds it; one that is not known is null. -/
def ofTruth : Option Bool → Value
  | some b => .bool b
  | none => .null

/-- A truth value as the host writes it. -/
def truthText : Option Bool → Value
  | some true => .string "True"
  | some false => .string "False"
  | none => .null

/-- Equality in SQL: null beside a null, and else whether both values denote the same. -/
def equalTo (a b : Value) : Value := if a.isNull || b.isNull then .null else .bool (a.same b)

/-- The value is true, not false and not null. -/
def holds (value : Value) : Bool := value.asBool? == some true

theorem holds_equalTo_bool (truth : Option Bool) (b : Bool) :
    ((ofTruth truth).equalTo (.bool b)).holds = (truth == some b) := by
  cases truth with
  | none => rfl
  | some t => cases t <;> cases b <;> rfl

theorem truthText_inj {a b : Option Bool} (h : truthText a = truthText b) : a = b := by
  rcases a with _ | _ | _ <;> rcases b with _ | _ | _ <;> simp_all [truthText]

end Value

namespace Expr

mutual

/-- The value of an expression in a row: a constant is its own value, equality and `CASE` follow
three-valued logic, and the row gives the value of everything else, however it is stored. -/
def logicalValue (row : Row) : Expr → Value
  | .constant value _ => value
  | .binary .eq lhs rhs _ => (logicalValue row lhs).equalTo (logicalValue row rhs)
  | .case operand whens otherwise _ =>
    logicalResult row (logicalOption row operand) ((logicalOption row otherwise).getD .null) whens
  | e => row (e.withMapping none)

/-- The result of the first clause whose test is true, or equals the operand if there is one. -/
def logicalResult (row : Row) (operand : Option Value) (fallback : Value) :
    List (Expr × Expr) → Value
  | [] => fallback
  | (test, result) :: rest =>
    if (operand.elim id Value.equalTo (logicalValue row test)).holds then logicalValue row result
    else logicalResult row operand fallback rest

/-- The value of an expression that may be absent. -/
def logicalOption (row : Row) : Option Expr → Option Value
  | none => none
  | some e => some (logicalValue row e)

end

variable (row : Row)

/-- A value does not depend on how it is stored. -/
theorem logicalValue_withMapping (mapping : Option Mapping) (e : Expr) :
    (e.withMapping mapping).logicalValue row = e.logicalValue row := by
  cases e with
  | binary op lhs rhs m => cases op <;> simp only [withMapping, logicalValue]
  | _ => simp only [withMapping, logicalValue]

end Expr

/-! ### Builders -/

namespace Catalog

variable (catalog : Catalog) (row : Row)

theorem logicalValue_applyDefault (e : Expr) :
    (catalog.applyDefault e).logicalValue row = e.logicalValue row :=
  catalog.applyDefault_of_withMapping (Expr.logicalValue_withMapping row) e

theorem logicalValue_applyMapping (proposed : Option Mapping) (e : Expr) :
    (catalog.applyMapping proposed e).logicalValue row = e.logicalValue row :=
  catalog.applyMapping_of_withMapping (Expr.logicalValue_withMapping row) proposed e

theorem logicalValue_constant (value : Value) :
    (catalog.constant value).logicalValue row = value := by
  rw [constant, logicalValue_applyDefault, Expr.logicalValue]

theorem logicalValue_equal (lhs rhs : Expr) :
    (catalog.equal lhs rhs).logicalValue row
      = (lhs.logicalValue row).equalTo (rhs.logicalValue row) := by
  rw [equal, binary, Expr.logicalValue, logicalValue_applyMapping, logicalValue_applyMapping]

/-- Inference changes nothing about which clause gives the result. -/
theorem logicalResult_map (proposed : Option Mapping) (operand : Option Value) (fallback : Value)
    (whens : List (Expr × Expr)) :
    Expr.logicalResult row operand fallback (whens.map fun w =>
        (catalog.applyDefault w.1, catalog.applyMapping proposed w.2))
      = Expr.logicalResult row operand fallback whens := by
  induction whens with
  | nil => rfl
  | cons w whens ih =>
    rw [List.map_cons, Expr.logicalResult, Expr.logicalResult, ih, logicalValue_applyDefault,
      logicalValue_applyMapping]

theorem logicalValue_case (whens : List (Expr × Expr)) (otherwise : Expr) :
    (catalog.case whens (some otherwise)).logicalValue row
      = Expr.logicalResult row none (otherwise.logicalValue row) whens := by
  rw [case, Expr.logicalValue_withMapping, Expr.logicalValue, logicalResult_map]
  simp only [Option.map_some, Expr.logicalOption, Option.getD_some, logicalValue_applyMapping]

/-- **What a truth value prints as.**  An unknown one is printed as true, unless it is read from a
column that may be null. -/
theorem logicalValue_boolText {e : Expr} {truth : Option Bool}
    (h : e.logicalValue row = .ofTruth truth) :
    (catalog.boolText e).logicalValue row
      = .truthText (if e.isNullableColumn then truth else some (truth.getD true)) := by
  have htest : ∀ b, ((catalog.equal e (catalog.constant (.bool b))).logicalValue row).holds
      = (truth == some b) := by
    intro b
    rw [logicalValue_equal, logicalValue_constant, h, Value.holds_equalTo_bool]
  have htext : ∀ s, (catalog.text s).logicalValue row = .string s :=
    fun s => catalog.logicalValue_constant row (.string s)
  unfold boolText
  split
  · simp only [logicalValue_case, Expr.logicalResult, Option.elim_none, id, htest, htext]
    rcases truth with _ | _ | _ <;> rfl
  · simp only [logicalValue_case, Expr.logicalResult, Option.elim_none, id, htest, htext]
    rcases truth with _ | _ | _ <;> rfl

end Catalog

/-! ### The rule -/

/-- The call for the text of a value. -/
def MethodCall.textOf (e : Expr) : MethodCall where
  instance? := some e
  method := .toString
  args := []

namespace Rule

/-- **A truth value prints as itself where it is known or read from a column that may be null.**
The rule lowers the text of every truth value; in a row where the value is null, the result is null
for a column that may be null, and for no other expression. -/
theorem toText_truth_iff (catalog : Catalog) (table : CastableTypes) {e : Expr}
    (htype : e.type = .bool) :
    ∃ text, (toText catalog table).lower (.textOf e) = .lowered text ∧
      ∀ row truth, e.logicalValue row = .ofTruth truth →
        (text.logicalValue row = .truthText truth ↔ e.isNullableColumn = true ∨ truth ≠ none) := by
  refine ⟨catalog.boolText e, by simp [toText, MethodCall.textOf, htype], ?_⟩
  intro row truth hvalue
  rw [catalog.logicalValue_boolText row hvalue]
  constructor
  · intro h
    have htruth := Value.truthText_inj h
    split at htruth
    · next hcolumn => exact .inl hcolumn
    · exact .inr (by rw [← htruth]; exact Option.some_ne_none _)
  · rintro (hcolumn | hknown)
    · rw [if_pos hcolumn]
    · obtain ⟨b, rfl⟩ := Option.ne_none_iff_exists'.1 hknown
      rw [Option.getD_some, ite_self]

/-- Whether an order is paid, which the database may not know. -/
def paidOrNot : Expr := .column { table := "o", name := "paid", type := .bool, nullable := true }

/-- Where it is not known whether an order is paid, the text is null. -/
theorem toText_truth_iff_paidOrNot :
    paidOrNot.type = .bool ∧ paidOrNot.isNullableColumn = true ∧
      ∃ text, (toText ⟨false, []⟩ .standard).lower (.textOf paidOrNot) = .lowered text ∧
        text.logicalValue (fun _ => .null) = .null := by
  obtain ⟨text, hlower, htext⟩ := toText_truth_iff ⟨false, []⟩ .standard
    (rfl : paidOrNot.type = .bool)
  exact ⟨rfl, rfl, text, hlower, (htext (fun _ => .null) none rfl).2 (.inl rfl)⟩

/-- Whether somebody is three years old. -/
def isThree : Expr :=
  .binary .eq (.column { table := "t", name := "age", type := .int .i32, nullable := true })
    (.constant (.int ⟨.i32, 3, by decide⟩) (some .integer)) (some .boolean)

/-- Of somebody of unknown age it is not known whether they are three years old, and the text says
that they are. -/
theorem toText_isThree :
    isThree.type = .bool ∧ isThree.isNonNullableColumn = false ∧
      isThree.logicalValue (fun _ => .null) = .null ∧
      ∃ text, (toText ⟨false, []⟩ .standard).lower (.textOf isThree) = .lowered text ∧
        text.render .postgresql
          = .ok "CASE WHEN (t.age = 3) = FALSE THEN 'False' ELSE 'True' END" ∧
        text.logicalValue (fun _ => .null) = .string "True" :=
  ⟨rfl, rfl, rfl, _, rfl, rfl, rfl⟩

end Rule

end PgFragment
