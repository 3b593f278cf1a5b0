import PgFragment.Proofs.Text.Digits

namespace PgFragment.Calendar

/-!
# The text of a date-time

A date is told by its text, in any year, and so is where it ends.  A time of day is told but for its
leap second, which is written as the second behind it: only at the end of a minute is that the sixtieth,
which no other time has.

* `TimeOfDay.asWritten` — the time of day that a text stands for.
* `Date.text_append_inj`, `TimeOfDay.text_append_inj` — the two halves.
* `DateTime.text_append_inj` — the whole.
-/

open Text

variable {r r' : List Char}

/-! ### Dates -/

namespace Date

/-- **A year is told by its text**, with or without a sign. -/
theorem yearText_append_inj {x y : Int}
    (h : yearText x ++ '-' :: r = yearText y ++ '-' :: r') : x = y ∧ r = r' := by
  have hminus : '-'.isDigit = false := by decide
  have hplus : '+'.isDigit = false := by decide
  have hsign : ∀ z : Int, (if z < 0 then '-' else '+').isDigit = false := by
    intro z
    split
    · exact hminus
    · exact hplus
  have hdigits : ∀ {m n : Nat}, padded 4 m ++ '-' :: r = padded 4 n ++ '-' :: r' →
      m = n ∧ r = r' := by
    intro m n h
    obtain ⟨hmn, hrest⟩ := padded_append_inj (stopsAt_cons hminus r) (stopsAt_cons hminus r') h
    exact ⟨hmn, List.tail_eq_of_cons_eq hrest⟩
  -- A sign is written for the years outside 0 to 9999 and only for them.
  unfold yearText at h
  by_cases hx : 0 ≤ x ∧ x ≤ 9999 <;> by_cases hy : 0 ≤ y ∧ y ≤ 9999
  · rw [if_pos hx, if_pos hy] at h
    obtain ⟨hxy, hrest⟩ := hdigits h
    exact ⟨by omega, hrest⟩
  · rw [if_pos hx, if_neg hy] at h
    exact absurd h (padded_append_ne_cons (hsign y))
  · rw [if_neg hx, if_pos hy] at h
    exact absurd h.symm (padded_append_ne_cons (hsign x))
  · rw [if_neg hx, if_neg hy, List.cons_append, List.cons_append, List.cons.injEq] at h
    obtain ⟨hxy, hrest⟩ := hdigits h.2
    refine ⟨?_, hrest⟩
    by_cases hx : x < 0 <;> by_cases hy : y < 0
    · omega
    · simp [hx, hy] at h
    · simp [hx, hy] at h
    · omega

theorem text_append_inj {a b : Date} (hr : StopsAt Char.isDigit r) (hr' : StopsAt Char.isDigit r')
    (h : a.text ++ r = b.text ++ r') : a = b ∧ r = r' := by
  have hminus : '-'.isDigit = false := by decide
  rw [text, text, List.append_assoc, List.append_assoc, List.cons_append, List.cons_append,
    List.append_assoc, List.append_assoc, List.cons_append, List.cons_append] at h
  -- Field by field from the left; every separator ends the digits in front of it.
  obtain ⟨hyear, h₁⟩ := yearText_append_inj h
  obtain ⟨hmonth, h₂⟩ := padded_append_inj (stopsAt_cons hminus _) (stopsAt_cons hminus _) h₁
  obtain ⟨hday, h₃⟩ := padded_append_inj hr hr' (List.tail_eq_of_cons_eq h₂)
  refine ⟨?_, h₃⟩
  cases a
  cases b
  obtain ⟨rfl, rfl, rfl⟩ : _ ∧ _ ∧ _ := ⟨hyear, hmonth, hday⟩
  rfl

end Date

/-! ### Times of day -/

namespace TimeOfDay

/-- A fraction is nothing, or a point and digits, the number of which tells their unit. -/
theorem fractionText_cases {n : Nat} (hn : n < 1000000000) :
    (n = 0 ∧ fractionText n = []) ∨
      ∃ w a, (0 < w ∧ w ≤ 9) ∧ a < 10 ^ w ∧ n = a * 10 ^ (9 - w) ∧
        fractionText n = '.' :: padded w a := by
  unfold fractionText
  split
  · exact .inl ⟨by assumption, rfl⟩
  · split
    · exact .inr ⟨3, n / 1000000, by decide, by omega, by omega, rfl⟩
    · split
      · exact .inr ⟨6, n / 1000, by decide, by omega, by omega, rfl⟩
      · exact .inr ⟨9, n, by decide, by omega, by omega, rfl⟩

/-- **A fraction is told by its text.** -/
theorem fractionText_append_inj {m n : Nat} (hm : m < 1000000000) (hn : n < 1000000000)
    (h : fractionText m ++ '\x27' :: r = fractionText n ++ '\x27' :: r') : m = n ∧ r = r' := by
  have hquote : '\x27'.isDigit = false := by decide
  obtain ⟨hma, hm⟩ | ⟨w, a, hw, ha, hma, hm⟩ := fractionText_cases hm <;>
    obtain ⟨hnb, hn⟩ | ⟨w', b, hw', hb, hnb, hn⟩ := fractionText_cases hn <;> rw [hm, hn] at h
  · exact ⟨hma.trans hnb.symm, List.tail_eq_of_cons_eq h⟩
  · simp at h
  · simp at h
  · rw [List.cons_append, List.cons_append, List.cons.injEq] at h
    obtain ⟨hrun, hrest⟩ := run_inj (fun _ => isDigit_of_mem_padded)
      (fun _ => isDigit_of_mem_padded) (stopsAt_cons hquote r) (stopsAt_cons hquote r') h.2
    -- The digits are the same, so their number is, and with it the unit.
    have hlen : (padded w a).length = (padded w' b).length := congrArg List.length hrun
    rw [length_padded hw.1 ha, length_padded hw'.1 hb] at hlen
    rw [hma, hnb, hlen, padded_inj hrun]
    exact ⟨rfl, List.tail_eq_of_cons_eq hrest⟩

/-- The time lies in a leap second that is not at the end of a minute. -/
def leapsMidMinute (t : TimeOfDay) : Bool := 1000000000 ≤ t.nanos && t.second != 59

theorem leapsMidMinute_iff {t : TimeOfDay} :
    t.leapsMidMinute = true ↔ 1000000000 ≤ t.nanos ∧ t.second ≠ 59 := by
  rw [leapsMidMinute, Bool.and_eq_true, decide_eq_true_eq, bne_iff_ne]

/-- The time of day that the text stands for: a leap second within a minute is taken for the second
behind it. -/
def asWritten (t : TimeOfDay) : TimeOfDay :=
  if h : t.leapsMidMinute = true then
    { hour := t.hour
      minute := t.minute
      second := t.second + 1
      nanos := t.nanos - 1000000000
      clock_valid := by have := t.clock_valid; have := leapsMidMinute_iff.1 h; omega
      nanos_valid := by have := t.nanos_valid; omega }
  else t

theorem asWritten_eq_self {t : TimeOfDay} (h : t.leapsMidMinute = false) : t.asWritten = t := by
  rw [asWritten, dif_neg (by rw [h]; exact Bool.false_ne_true)]

/-- A time of day is written like the one that its text stands for. -/
theorem text_asWritten (t : TimeOfDay) : t.asWritten.text = t.text := by
  unfold asWritten
  split
  · next h =>
    obtain ⟨hleap, -⟩ := leapsMidMinute_iff.1 h
    have hnanos := t.nanos_valid
    have hsecond : t.second + 1 + (t.nanos - 1000000000) / 1000000000
        = t.second + t.nanos / 1000000000 := by omega
    have hfraction : (t.nanos - 1000000000) % 1000000000 = t.nanos % 1000000000 := by omega
    simp only [text, hsecond, hfraction]
  · rfl

/-- The fields of a text tell the time of day that it stands for. -/
theorem asWritten_eq_asWritten {a b : TimeOfDay} (hhour : a.hour = b.hour)
    (hminute : a.minute = b.minute)
    (hsecond : a.second + a.nanos / 1000000000 = b.second + b.nanos / 1000000000)
    (hnanos : a.nanos % 1000000000 = b.nanos % 1000000000) : a.asWritten = b.asWritten := by
  obtain ⟨hour, minute, second, nanos, clock, range⟩ := a
  obtain ⟨hour', minute', second', nanos', clock', range'⟩ := b
  dsimp only at hhour hminute hsecond hnanos
  unfold asWritten
  split <;> split <;> rename_i h h'
  -- Sixty seconds are written only within a leap second, since no second of its own is the sixtieth.
  all_goals
    simp only [leapsMidMinute_iff] at h h'
    simp only [mk.injEq]
    omega

/-- **A time of day is told by its text**, but for leap seconds within a minute. -/
theorem text_append_inj {a b : TimeOfDay}
    (h : a.text ++ '\x27' :: r = b.text ++ '\x27' :: r') :
    a.asWritten = b.asWritten ∧ r = r' := by
  have hcolon : ':'.isDigit = false := by decide
  have hfraction : ∀ n r, StopsAt Char.isDigit (fractionText n ++ '\x27' :: r) := by
    intro n r
    unfold fractionText
    split
    · exact stopsAt_cons (by decide) r
    · split
      · exact stopsAt_cons (by decide) _
      · split <;> exact stopsAt_cons (by decide) _
  simp only [text, List.append_assoc, List.cons_append] at h
  obtain ⟨hhour, h₁⟩ := padded_append_inj (stopsAt_cons hcolon _) (stopsAt_cons hcolon _) h
  obtain ⟨hminute, h₂⟩ := padded_append_inj (stopsAt_cons hcolon _) (stopsAt_cons hcolon _)
    (List.tail_eq_of_cons_eq h₁)
  obtain ⟨hsecond, h₃⟩ := padded_append_inj (hfraction _ r) (hfraction _ r')
    (List.tail_eq_of_cons_eq h₂)
  obtain ⟨hnanos, h₄⟩ := fractionText_append_inj (Nat.mod_lt _ (by decide))
    (Nat.mod_lt _ (by decide)) h₃
  exact ⟨asWritten_eq_asWritten hhour hminute hsecond hnanos, h₄⟩

end TimeOfDay

/-! ### Date-times -/

namespace DateTime

variable {separator : Char}

/-- The date-time that the text stands for. -/
def asWritten (t : DateTime) : DateTime where
  date := t.date
  time := t.time.asWritten

theorem text_asWritten (t : DateTime) : t.asWritten.text separator = t.text separator := by
  rw [text, text, asWritten, TimeOfDay.text_asWritten]

/-- **A date-time between quotes is told by its text**, years outside 0 to 9999 included, but for leap
seconds within a minute. -/
theorem text_append_inj (hs : separator.isDigit = false) {a b : DateTime}
    (h : a.text separator ++ '\x27' :: r = b.text separator ++ '\x27' :: r') :
    a.asWritten = b.asWritten ∧ r = r' := by
  simp only [text, List.append_assoc, List.cons_append] at h
  obtain ⟨hdate, h₁⟩ := Date.text_append_inj (stopsAt_cons hs _) (stopsAt_cons hs _) h
  obtain ⟨htime, h₂⟩ := TimeOfDay.text_append_inj (List.tail_eq_of_cons_eq h₁)
  rw [asWritten, asWritten, hdate, htime]
  exact ⟨rfl, h₂⟩

end DateTime

end PgFragment.Calendar
