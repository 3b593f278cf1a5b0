import PgFragment.Proofs.Calendar.DateTimeText
import PgFragment.Proofs.Value.Comparison

namespace PgFragment

/-!
# Values with their date-times as written

A leap second within a minute is written as the second behind it, so that a text cannot tell it from
that second, at whatever depth of lists and records the two stand.

* `Value.asWritten` — the value with every date-time taken for the one that its text stands for.
* `Value.asWritten_eq_self` — without leap seconds within a minute that is the value itself.
-/

namespace Value

mutual

/-- The value with every date-time taken for the one that its text stands for. -/
def asWritten : Value → Value
  | .dateTime t => .dateTime t.asWritten
  | .list items => .list (asWrittenEach items)
  | .record fields => .record (asWrittenEach fields)
  | v => v

/-- Each of several values with its date-times as written. -/
def asWrittenEach : List Value → List Value
  | [] => []
  | v :: rest => asWritten v :: asWrittenEach rest

end

mutual

/-- A date-time within the value lies in a leap second that is not at the end of a minute. -/
def leapsMidMinute : Value → Bool
  | .dateTime t => t.time.leapsMidMinute
  | .list items => anyLeapsMidMinute items
  | .record fields => anyLeapsMidMinute fields
  | _ => false

/-- One of several values holds a leap second that is not at the end of a minute. -/
def anyLeapsMidMinute : List Value → Bool
  | [] => false
  | v :: rest => leapsMidMinute v || anyLeapsMidMinute rest

end

theorem asWrittenEach_eq_map (vs : List Value) : asWrittenEach vs = vs.map asWritten := by
  induction vs with
  | nil => rfl
  | cons v vs ih => rw [asWrittenEach, ih, List.map_cons]

theorem anyLeapsMidMinute_eq_false_iff {vs : List Value} :
    anyLeapsMidMinute vs = false ↔ ∀ v ∈ vs, v.leapsMidMinute = false := by
  induction vs with
  | nil => simp [anyLeapsMidMinute]
  | cons v vs ih => simp [anyLeapsMidMinute, ih]

theorem isNull_asWritten (v : Value) : v.asWritten.isNull = v.isNull := by
  cases v <;> rfl

@[simp]
theorem asWritten_list (items : List Value) :
    (list items).asWritten = .list (items.map asWritten) := by
  rw [asWritten, asWrittenEach_eq_map]

@[simp]
theorem asWritten_record (fields : List Value) :
    (record fields).asWritten = .record (fields.map asWritten) := by
  rw [asWritten, asWrittenEach_eq_map]

/-- **Only leap seconds within a minute are written as another time.** -/
theorem asWritten_eq_self {v : Value} (h : v.leapsMidMinute = false) : v.asWritten = v := by
  induction v using induction_on_parts with
  | step v ih =>
    have hparts : ∀ vs : List Value, (∀ p ∈ vs, p.leapsMidMinute = false → p.asWritten = p) →
        anyLeapsMidMinute vs = false → vs.map asWritten = vs := by
      intro vs hvs h
      have hself : ∀ p ∈ vs, p.asWritten = id p :=
        fun p hp => hvs p hp (anyLeapsMidMinute_eq_false_iff.1 h p hp)
      rw [List.map_congr_left hself, List.map_id]
    cases v with
    | dateTime t =>
      have htime : t.time.asWritten = t.time := Calendar.TimeOfDay.asWritten_eq_self h
      rw [asWritten, Calendar.DateTime.asWritten, htime]
    | list items => rw [asWritten_list, hparts items ih h]
    | record fields => rw [asWritten_record, hparts fields ih h]
    | _ => rfl

end Value

end PgFragment
