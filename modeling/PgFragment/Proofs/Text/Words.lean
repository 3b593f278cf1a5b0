import PgFragment.Text.Blank

namespace PgFragment.Text

/-!
# Words

Words are told by the blanks between them, however many there are, so that words with single spaces
between them are read as those words.

* `words_append_blank` — the words on both sides of a blank are the words of the whole.
* `words_intercalate` — words between single spaces are read back.
* `exists_last_word` — a text that ends in no blank ends in its last word.
* `trim_eq_self` — trimming leaves alone what has no blank at either end.
* `toLower_cases` — only capitals have another letter in lower case.
-/

variable {s t w : List Char} {ws : List (List Char)} {b c d : Char}

/-! ### Splitting at blanks -/

/-- A word has characters, and none of them is blank. -/
def IsWord (w : List Char) : Prop := w ≠ [] ∧ ∀ c ∈ w, isBlank c = false

/-- Splitting takes nothing in, and leaves out what it splits at. -/
theorem mem_of_mem_splitOnP {p : Char → Bool} (h : w ∈ s.splitOnP p) :
    ∀ c ∈ w, c ∈ s ∧ p c = false := by
  induction s generalizing w with
  | nil =>
    obtain rfl := List.mem_singleton.1 h
    exact List.forall_mem_nil _
  | cons d s ih =>
    have hrest : ∀ {v}, v ∈ s.splitOnP p → ∀ c ∈ v, c ∈ d :: s ∧ p c = false := fun hv c hc =>
      ⟨List.mem_cons_of_mem d (ih hv c hc).1, (ih hv c hc).2⟩
    rw [List.splitOnP_cons_eq_if_modifyHead] at h
    by_cases hd : p d = true
    · rw [if_pos hd, List.mem_cons] at h
      rcases h with rfl | h
      · exact List.forall_mem_nil _
      · exact hrest h
    · obtain ⟨v, vs, hvs⟩ := List.exists_cons_of_ne_nil (List.splitOnP_ne_nil p s)
      rw [if_neg hd, hvs, List.modifyHead_cons, List.mem_cons] at h
      rcases h with rfl | h
      · have hv : v ∈ s.splitOnP p := hvs ▸ List.mem_cons_self
        exact List.forall_mem_cons.2 ⟨⟨List.mem_cons_self, by simpa using hd⟩, hrest hv⟩
      · exact hrest (hvs ▸ List.mem_cons_of_mem v h)

/-- Nothing else is left out. -/
theorem exists_mem_splitOnP {p : Char → Bool} (hc : p c = false) (h : c ∈ s) :
    ∃ w ∈ s.splitOnP p, c ∈ w := by
  induction s with
  | nil => cases h
  | cons d s ih =>
    obtain ⟨v, vs, hvs⟩ := List.exists_cons_of_ne_nil (List.splitOnP_ne_nil p s)
    rw [List.splitOnP_cons_eq_if_modifyHead, hvs, List.modifyHead_cons]
    rw [hvs] at ih
    rcases List.mem_cons.1 h with rfl | h
    · rw [if_neg (by simp [hc])]
      exact ⟨c :: v, List.mem_cons_self, List.mem_cons_self⟩
    · obtain ⟨w, hw, hmem⟩ := ih h
      split
      · exact ⟨w, List.mem_cons_of_mem [] hw, hmem⟩
      · rcases List.mem_cons.1 hw with rfl | hw
        · exact ⟨d :: w, List.mem_cons_self, List.mem_cons_of_mem d hmem⟩
        · exact ⟨w, List.mem_cons_of_mem (d :: v) hw, hmem⟩

theorem mem_of_mem_words (hw : w ∈ words s) (hc : c ∈ w) : c ∈ s :=
  (mem_of_mem_splitOnP (List.mem_filter.1 hw).1 c hc).1

/-- Every character that is no blank stands in a word. -/
theorem exists_mem_words (hc : isBlank c = false) (h : c ∈ s) : ∃ w ∈ words s, c ∈ w := by
  obtain ⟨w, hw, hmem⟩ := exists_mem_splitOnP hc h
  have hne : w ≠ [] := List.ne_nil_of_mem hmem
  exact ⟨w, List.mem_filter.2 ⟨hw, by simpa using hne⟩, hmem⟩

theorem isWord_of_mem_words (h : w ∈ words s) : IsWord w := by
  obtain ⟨hw, hne⟩ := List.mem_filter.1 h
  exact ⟨by simpa using hne, fun c hc => (mem_of_mem_splitOnP hw c hc).2⟩

@[simp] theorem words_nil : words [] = [] := rfl

/-- **Words end at a blank.** -/
theorem words_append_blank (hb : isBlank b = true) (s t : List Char) :
    words (s ++ b :: t) = words s ++ words t := by
  rw [words, List.splitOnP_append_cons s t hb, List.filter_append]
  rfl

theorem words_eq_singleton (h : IsWord w) : words w = [w] := by
  rw [words, List.splitOnP_eq_singleton h.2]
  simp [h.1]

/-- **Words between single spaces are read back.** -/
theorem words_intercalate (h : ∀ w ∈ ws, IsWord w) : words ([' '].intercalate ws) = ws := by
  induction ws with
  | nil => rfl
  | cons w ws ih =>
    rw [List.forall_mem_cons] at h
    cases ws with
    | nil => rw [List.intercalate_singleton, words_eq_singleton h.1]
    | cons v vs =>
      rw [List.intercalate_cons_cons, List.append_assoc, List.singleton_append,
        words_append_blank (by decide), words_eq_singleton h.1, ih h.2]
      rfl

theorem eq_or_exists_of_mem_intercalate (h : c ∈ [' '].intercalate ws) :
    c = ' ' ∨ ∃ w ∈ ws, c ∈ w := by
  induction ws with
  | nil => cases h
  | cons w ws ih =>
    cases ws with
    | nil => exact .inr ⟨w, List.mem_cons_self, by simpa using h⟩
    | cons v vs =>
      rw [List.intercalate_cons_cons, List.mem_append, List.mem_append] at h
      rcases h with (h | h) | h
      · exact .inr ⟨w, List.mem_cons_self, h⟩
      · exact .inl (List.mem_singleton.1 h)
      · rcases ih h with hc | ⟨u, hu, hc⟩
        · exact .inl hc
        · exact .inr ⟨u, List.mem_cons_of_mem w hu, hc⟩

theorem mem_intercalate (hw : w ∈ ws) (hc : c ∈ w) : c ∈ [' '].intercalate ws := by
  induction ws with
  | nil => cases hw
  | cons v vs ih =>
    cases vs with
    | nil =>
      obtain rfl := List.mem_singleton.1 hw
      rwa [List.intercalate_singleton]
    | cons u us =>
      rw [List.intercalate_cons_cons, List.mem_append]
      rcases List.mem_cons.1 hw with rfl | hw
      · exact .inl (List.mem_append_left [' '] hc)
      · exact .inr (ih hw)

theorem isBlank_head_intercalate (h : ∀ w ∈ ws, IsWord w) :
    ∀ c ∈ ([' '].intercalate ws).head?, isBlank c = false := by
  cases ws with
  | nil => simp
  | cons w ws =>
    obtain ⟨hne, hw⟩ := h w List.mem_cons_self
    obtain ⟨d, t, rfl⟩ := List.exists_cons_of_ne_nil hne
    have hhead : ([' '].intercalate ((d :: t) :: ws)).head? = some d := by
      cases ws <;> simp
    rintro c hc
    obtain rfl : d = c := by simpa [hhead] using hc
    exact hw d List.mem_cons_self

/-! ### The last word -/

/-- The text is empty or ends in a blank, so that a word may follow it. -/
def EndsWord (s : List Char) : Prop := s = [] ∨ ∃ t b, s = t ++ [b] ∧ isBlank b = true

theorem words_append_word (hs : EndsWord s) (hw : IsWord w) : words (s ++ w) = words s ++ [w] := by
  rcases hs with rfl | ⟨t, b, rfl, hb⟩
  · exact words_eq_singleton hw
  · rw [List.append_assoc, List.singleton_append, words_append_blank hb, words_append_blank hb,
      words_eq_singleton hw, words_nil, List.append_nil]

/-- **What ends in no blank ends in a word.** -/
theorem exists_last_word (hne : s ≠ []) (h : ∀ c ∈ s.getLast?, isBlank c = false) :
    ∃ t w, s = t ++ w ∧ EndsWord t ∧ IsWord w := by
  refine ⟨(s.reverse.dropWhile (!isBlank ·)).reverse, (s.reverse.takeWhile (!isBlank ·)).reverse,
    ?_, ?_, ?_, ?_⟩
  · rw [← List.reverse_append, List.takeWhile_append_dropWhile, List.reverse_reverse]
  · cases hdrop : s.reverse.dropWhile (!isBlank ·) with
    | nil => exact .inl rfl
    | cons b t =>
      have hb := List.head?_dropWhile_not (!isBlank ·) s.reverse
      rw [hdrop] at hb
      exact .inr ⟨t.reverse, b, List.reverse_cons, by simpa using hb⟩
  · obtain ⟨t, c, rfl⟩ := (List.eq_nil_or_concat s).resolve_left hne
    have hc : isBlank c = false := h c (by simp)
    simp [hc]
  · intro c hc
    have hnot := List.all_eq_true.1 List.all_takeWhile c (List.mem_reverse.1 hc)
    simpa using hnot

/-- The last of several words stands at the end. -/
theorem exists_intercalate_concat (ws : List (List Char)) (w : List Char) :
    ∃ t, [' '].intercalate (ws ++ [w]) = t ++ w ∧ (t = [] ∨ ∃ u, t = u ++ [' ']) := by
  induction ws with
  | nil => exact ⟨[], List.intercalate_singleton, .inl rfl⟩
  | cons v vs ih =>
    obtain ⟨t, ht, hends⟩ := ih
    refine ⟨v ++ ' ' :: t, ?_, .inr ?_⟩
    · rw [List.cons_append, List.intercalate_cons_of_ne_nil (by simp), ht]
      simp
    · rcases hends with rfl | ⟨u, rfl⟩
      · exact ⟨v, rfl⟩
      · exact ⟨v ++ ' ' :: u, by simp⟩

theorem isBlank_getLast_intercalate (h : ∀ w ∈ ws, IsWord w) :
    ∀ c ∈ ([' '].intercalate ws).getLast?, isBlank c = false := by
  rcases List.eq_nil_or_concat ws with rfl | ⟨vs, w, rfl⟩
  · simp
  · obtain ⟨t, ht, -⟩ := exists_intercalate_concat vs w
    obtain ⟨hne, hw⟩ := h w (by simp)
    intro c hc
    rw [List.concat_eq_append, ht, List.getLast?_append,
      List.getLast?_eq_some_getLast hne, Option.some_or, Option.mem_some_iff] at hc
    exact hc ▸ hw _ (List.getLast_mem hne)

/-! ### Trimming -/

theorem trimEnd_eq_self (h : ∀ c ∈ s.getLast?, isBlank c = false) : trimEnd s = s := by
  rcases List.eq_nil_or_concat s with rfl | ⟨t, c, rfl⟩
  · rfl
  · have hc : isBlank c = false := h c (by simp)
    simp [trimEnd, hc]

theorem trim_eq_self (hfirst : ∀ c ∈ s.head?, isBlank c = false)
    (hlast : ∀ c ∈ s.getLast?, isBlank c = false) : trim s = s := by
  cases s with
  | nil => rfl
  | cons c s =>
    rw [trim, trimStart, List.dropWhile_cons_of_neg (by simp [hfirst c rfl])]
    exact trimEnd_eq_self hlast

/-- A word at the end keeps the blanks in front of it from being trailing ones. -/
theorem trim_append_word (s : List Char) (hw : IsWord w) : trim (s ++ w) = trimStart s ++ w := by
  obtain ⟨hne, hblank⟩ := hw
  have hstart : w.dropWhile isBlank = w := by
    obtain ⟨c, t, rfl⟩ := List.exists_cons_of_ne_nil hne
    exact List.dropWhile_cons_of_neg (by simp [hblank c List.mem_cons_self])
  have hdrop : trimStart (s ++ w) = trimStart s ++ w := by
    rw [trimStart, List.dropWhile_append, hstart]
    split
    · next hempty => rw [trimStart, List.isEmpty_iff.1 hempty, List.nil_append]
    · rfl
  rw [trim, hdrop]
  apply trimEnd_eq_self
  intro c hc
  rw [List.getLast?_append, List.getLast?_eq_some_getLast hne, Option.some_or,
    Option.mem_some_iff] at hc
  exact hc ▸ hblank _ (List.getLast_mem hne)

/-! ### Letters, their case, and digits -/

/-- The visible characters of ASCII are not blank. -/
theorem isBlank_eq_false_of_visible (hlow : 33 ≤ c.toNat) (hhigh : c.toNat ≤ 126) :
    isBlank c = false := by
  simp only [isBlank, Bool.or_eq_false_iff, Bool.and_eq_false_iff, decide_eq_false_iff_not,
    beq_eq_false_iff_ne]
  omega

theorem isBlank_eq_false_of_isDigit (h : c.isDigit = true) : isBlank c = false := by
  rw [Char.isDigit, Bool.and_eq_true, decide_eq_true_eq, decide_eq_true_eq] at h
  have hlow : 48 ≤ c.toNat := UInt32.le_iff_toNat_le.1 h.1
  have hhigh : c.toNat ≤ 57 := UInt32.le_iff_toNat_le.1 h.2
  apply isBlank_eq_false_of_visible <;> omega

theorem isUpper_iff : c.isUpper = true ↔ 65 ≤ c.toNat ∧ c.toNat ≤ 90 :=
  decide_eq_true_iff.trans (and_congr UInt32.le_iff_toNat_le UInt32.le_iff_toNat_le)

theorem isLower_iff : c.isLower = true ↔ 97 ≤ c.toNat ∧ c.toNat ≤ 122 := by
  have hbounds : c.isLower = (decide ('a'.val ≤ c.val) && decide (c.val ≤ 'z'.val)) := rfl
  rw [hbounds, Bool.and_eq_true, decide_eq_true_eq, decide_eq_true_eq]
  exact and_congr UInt32.le_iff_toNat_le UInt32.le_iff_toNat_le

/-- The letters by their numbers: the capitals, and the small ones. -/
theorem isAlpha_iff :
    c.isAlpha = true ↔ (65 ≤ c.toNat ∧ c.toNat ≤ 90) ∨ (97 ≤ c.toNat ∧ c.toNat ≤ 122) := by
  have heither : c.isAlpha = (c.isUpper || c.isLower) := rfl
  rw [heither, Bool.or_eq_true, isUpper_iff, isLower_iff]

/-- The small letter of a capital. -/
theorem toNat_toLower (h : 65 ≤ c.toNat ∧ c.toNat ≤ 90) : c.toLower.toNat = c.toNat + 32 := by
  have hupper : 'A'.val ≤ c.val ∧ c.val ≤ 'Z'.val :=
    ⟨UInt32.le_iff_toNat_le.2 h.1, UInt32.le_iff_toNat_le.2 h.2⟩
  have hval : c.toLower.val = c.val + 32 := congrArg Char.val (dif_pos hupper)
  rw [Char.toNat, hval, UInt32.toNat_add]
  show (c.toNat + 32) % 2 ^ 32 = c.toNat + 32
  omega

/-- What is no capital stays as it is in lower case. -/
theorem toLower_eq_self (h : ¬(65 ≤ c.toNat ∧ c.toNat ≤ 90)) : c.toLower = c := by
  refine dif_neg fun hupper => h ?_
  exact ⟨UInt32.le_iff_toNat_le.1 hupper.1, UInt32.le_iff_toNat_le.1 hupper.2⟩

/-- **Only capitals have another letter in lower case.** -/
theorem toLower_cases (c : Char) :
    c.toLower = c ∨ (65 ≤ c.toNat ∧ c.toNat ≤ 90) ∧ c.toLower.toNat = c.toNat + 32 := by
  by_cases hupper : 65 ≤ c.toNat ∧ c.toNat ≤ 90
  · exact .inr ⟨hupper, toNat_toLower hupper⟩
  · exact .inl (toLower_eq_self hupper)

/-- The capital of a small letter. -/
theorem toNat_toUpper (h : 97 ≤ c.toNat ∧ c.toNat ≤ 122) : c.toUpper.toNat = c.toNat - 32 := by
  have hlower : 'a'.val ≤ c.val ∧ c.val ≤ 'z'.val :=
    ⟨UInt32.le_iff_toNat_le.2 h.1, UInt32.le_iff_toNat_le.2 h.2⟩
  have hval : c.toUpper.val = c.val + ('A'.val - 'a'.val) := by
    delta Char.toUpper
    rw [dif_pos hlower]
  rw [Char.toNat, hval, UInt32.toNat_add]
  -- The distance is negative, and so is added as its complement.
  show (c.toNat + 4294967264) % 2 ^ 32 = c.toNat - 32
  omega

/-- What is no small letter stays as it is in upper case. -/
theorem toUpper_eq_self (h : ¬(97 ≤ c.toNat ∧ c.toNat ≤ 122)) : c.toUpper = c := by
  refine dif_neg fun hlower => h ?_
  exact ⟨UInt32.le_iff_toNat_le.1 hlower.1, UInt32.le_iff_toNat_le.1 hlower.2⟩

theorem isBlank_toLower (c : Char) : isBlank c.toLower = isBlank c := by
  rcases toLower_cases c with h | ⟨⟨hlow, hhigh⟩, h⟩
  · rw [h]
  · rw [isBlank_eq_false_of_visible (by omega) (by omega),
      isBlank_eq_false_of_visible (by omega) (by omega)]

theorem toLower_toLower (c : Char) : c.toLower.toLower = c.toLower := by
  rcases toLower_cases c with h | ⟨⟨hlow, hhigh⟩, h⟩
  · rw [h, h]
  · exact toLower_eq_self (by omega)

/-- A capital has the small letter that it comes from. -/
theorem toLower_toUpper (c : Char) : c.toUpper.toLower = c.toLower := by
  by_cases hsmall : 97 ≤ c.toNat ∧ c.toNat ≤ 122
  · have hcapital := toNat_toUpper hsmall
    have hback := toNat_toLower (by omega : 65 ≤ c.toUpper.toNat ∧ c.toUpper.toNat ≤ 90)
    rw [toLower_eq_self (by omega : ¬(65 ≤ c.toNat ∧ c.toNat ≤ 90)), ← Char.toNat_inj]
    omega
  · rw [toUpper_eq_self hsmall]

/-- What is no small letter comes from itself alone. -/
theorem eq_of_toLower_eq (hd : d.toNat < 97 ∨ 122 < d.toNat) (h : c.toLower = d) : c = d := by
  rcases toLower_cases c with hc | ⟨⟨hlow, hhigh⟩, hc⟩
  · rw [← h, hc]
  · rw [h] at hc
    omega

end PgFragment.Text
