import Mathlib.Data.List.TakeDrop
import PgFragment.Text.Identifier
import PgFragment.Text.Numeral

namespace PgFragment.Text

/-!
# Runs of characters

The longest run of characters of one kind at the front of a text.  What was written as digits or as
a name is the whole run, as soon as the text behind it does not go on with such a character.

* `ofDigitChars_decimal` — the digits of a number give the number.
* `readIdentifier_identifier` — an identifier is read back, quoted or bare.
-/

/-- The text does not begin with a character of the kind. -/
def StopsAt (kind : Char → Bool) (rest : List Char) : Prop := ∀ c ∈ rest.head?, kind c = false

variable {kind : Char → Bool} {s rest : List Char}

theorem takeWhile_append_of_stopsAt (hs : ∀ c ∈ s, kind c = true) (hr : StopsAt kind rest) :
    (s ++ rest).takeWhile kind = s := by
  rw [List.takeWhile_append_of_pos hs]
  cases rest with
  | nil => simp
  | cons c rest =>
    have hc : kind c = false := hr c rfl
    simp [hc]

theorem dropWhile_append_of_stopsAt (hs : ∀ c ∈ s, kind c = true) (hr : StopsAt kind rest) :
    (s ++ rest).dropWhile kind = rest := by
  rw [List.dropWhile_append_of_pos hs]
  cases rest with
  | nil => simp
  | cons c rest =>
    have hc : kind c = false := hr c rfl
    simp [hc]

/-- The run up to a character, and what begins with it. -/
theorem span_ne_eq_iff {d : Char} {before : List Char} :
    s.span (· != d) = (before, rest) ↔
      before ++ rest = s ∧ d ∉ before ∧ ∀ c ∈ rest.head?, c = d := by
  rw [List.span_eq_takeWhile_dropWhile]
  constructor
  · rintro ⟨⟩
    refine ⟨List.takeWhile_append_dropWhile, ?_, ?_⟩
    · intro hmem
      have hne := List.all_eq_true.1 List.all_takeWhile d hmem
      simp at hne
    · intro c hc
      have hnot := List.head?_dropWhile_not (· != d) s
      rw [Option.mem_def.1 hc] at hnot
      simpa using hnot
  · rintro ⟨rfl, hbefore, hrest⟩
    have hrun : ∀ c ∈ before, (c != d) = true := by
      intro c hc
      rw [bne_iff_ne]
      rintro rfl
      exact hbefore hc
    have hstops : StopsAt (· != d) rest := by
      intro c hc
      simp [hrest c hc]
    rw [takeWhile_append_of_stopsAt hrun hstops, dropWhile_append_of_stopsAt hrun hstops]

/-! ### Digits -/

theorem isDigit_of_mem_decimal {n : Nat} {c : Char} (h : c ∈ decimal n) : c.isDigit = true :=
  Nat.isDigit_of_mem_toDigits (by decide) (by decide) h

theorem ofDigitChars_decimal (n : Nat) : Nat.ofDigitChars 10 (decimal n) 0 = n :=
  Nat.ofDigitChars_toDigits (by decide) (by decide)

theorem decimal_ne_nil (n : Nat) : decimal n ≠ [] := Nat.toDigits_ne_nil

/-- Reads a number in decimal digits. -/
def readNatural (cs : List Char) : Nat × List Char :=
  (Nat.ofDigitChars 10 (cs.takeWhile Char.isDigit) 0, cs.dropWhile Char.isDigit)

theorem readNatural_decimal (n : Nat) (hr : StopsAt Char.isDigit rest) :
    readNatural (decimal n ++ rest) = (n, rest) := by
  have hd : ∀ c ∈ decimal n, c.isDigit = true := fun c => isDigit_of_mem_decimal
  rw [readNatural, takeWhile_append_of_stopsAt hd hr, dropWhile_append_of_stopsAt hd hr,
    ofDigitChars_decimal]

/-! ### Names -/

theorem toNat_of_isNameStart {c : Char} (h : isNameStart c = true) :
    95 ≤ c.toNat ∧ c.toNat ≤ 122 := by
  rw [isNameStart, Bool.or_eq_true, beq_iff_eq] at h
  rcases h with h | rfl
  · change (decide ('a'.val ≤ c.val) && decide (c.val ≤ 'z'.val)) = true at h
    rw [Bool.and_eq_true, decide_eq_true_eq, decide_eq_true_eq] at h
    have hlow : 97 ≤ c.toNat := UInt32.le_iff_toNat_le.1 h.1
    have hhigh : c.toNat ≤ 122 := UInt32.le_iff_toNat_le.1 h.2
    omega
  · decide

theorem isDigit_of_isNameStart {c : Char} (h : isNameStart c = true) : c.isDigit = false := by
  have hlow := (toNat_of_isNameStart h).1
  cases hd : c.isDigit with
  | false => rfl
  | true =>
    rw [Char.isDigit, Bool.and_eq_true, decide_eq_true_eq, decide_eq_true_eq] at hd
    have hhigh : c.toNat ≤ 57 := UInt32.le_iff_toNat_le.1 hd.2
    omega

theorem isNamePart_of_mem {name : String} (h : isLowerName name = true) {c : Char}
    (hc : c ∈ name.toList) : isNamePart c = true := by
  unfold isLowerName at h
  split at h
  · cases h
  · next d ds hds =>
    rw [Bool.and_eq_true, List.all_eq_true] at h
    rw [hds] at hc
    cases hc with
    | head => rw [isNamePart, h.1, Bool.true_or]
    | tail _ hc => exact h.2 c hc

theorem exists_isNameStart {name : String} (h : isLowerName name = true) :
    ∃ c cs, name.toList = c :: cs ∧ isNameStart c = true := by
  unfold isLowerName at h
  split at h
  · cases h
  · next d ds hds => exact ⟨d, ds, hds, (Bool.and_eq_true _ _ ▸ h).1⟩

/-- Reads an identifier: quoted text, or the longest bare name. -/
def readIdentifier : List Char → Option (String × List Char)
  | [] => none
  | c :: cs =>
    if c = '"' then (closeQuote '"' cs).map fun (s, cs) => (String.ofList s, cs)
    else if isNameStart c then
      some (String.ofList ((c :: cs).takeWhile isNamePart), (c :: cs).dropWhile isNamePart)
    else none

theorem readIdentifier_lowerName {name : String} (h : isLowerName name = true)
    (hr : StopsAt isNamePart rest) : readIdentifier (name.toList ++ rest) = some (name, rest) := by
  obtain ⟨c, cs, hcs, hc⟩ := exists_isNameStart h
  have hne : c ≠ '"' := by rintro rfl; exact absurd hc (by decide)
  have hpart : ∀ c ∈ name.toList, isNamePart c = true := fun c => isNamePart_of_mem h
  have htake := takeWhile_append_of_stopsAt hpart hr
  have hdrop := dropWhile_append_of_stopsAt hpart hr
  rw [hcs] at htake hdrop ⊢
  rw [List.cons_append] at htake hdrop ⊢
  rw [readIdentifier, if_neg hne, if_pos hc, htake, hdrop, ← hcs, String.ofList_toList]

/-- **An identifier is read back**, unless a quote or more of a name follows. -/
theorem readIdentifier_identifier (name : String) (hr : StopsAt isNamePart rest)
    (hq : rest.head? ≠ some '"') :
    readIdentifier ((identifier name).toList ++ rest) = some (name, rest) := by
  unfold identifier
  split
  · next h => exact readIdentifier_lowerName (Bool.and_eq_true _ _ ▸ h).1 hr
  · have hread := closeQuote_doubled name.toList hq
    rw [quotedString, String.toList_ofList, quoted, List.cons_append, readIdentifier, if_pos rfl]
    simp [hread]

end PgFragment.Text
