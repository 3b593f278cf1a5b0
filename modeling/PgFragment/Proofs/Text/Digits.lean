import Mathlib.Algebra.Group.Nat.Defs
import Mathlib.Data.List.DropRight
import PgFragment.Mapping.Literal
import PgFragment.Proofs.Text.Runs

namespace PgFragment.Text

/-!
# Digits

Numbers are told by their digits, and where the digits end is told by what follows them.

* `padded_append_inj`, `signedDecimal_append_inj` — decimal digits, with zeros or a sign in front.
* `hexadecimal_inj`, `upperHex_append_inj` — hexadecimal digits of a fixed width, and of bytes.
-/

variable {kind : Char → Bool} {s t r r' : List Char}

/-- The longest runs at the front of one text are one run. -/
theorem run_inj (hs : ∀ c ∈ s, kind c = true) (ht : ∀ c ∈ t, kind c = true) (hr : StopsAt kind r)
    (hr' : StopsAt kind r') (h : s ++ r = t ++ r') : s = t ∧ r = r' := by
  -- Either side is cut where its run ends, and the text that is cut is the same.
  have htake := takeWhile_append_of_stopsAt hs hr
  have hdrop := dropWhile_append_of_stopsAt hs hr
  rw [h] at htake hdrop
  rw [takeWhile_append_of_stopsAt ht hr'] at htake
  rw [dropWhile_append_of_stopsAt ht hr'] at hdrop
  exact ⟨htake.symm, hdrop.symm⟩

/-- A run that is not empty begins with a character of the kind. -/
theorem run_append_ne_cons (hne : s ≠ []) (hs : ∀ c ∈ s, kind c = true) {c : Char}
    (hc : kind c = false) : s ++ r ≠ c :: r' := by
  obtain ⟨d, ds, rfl⟩ := List.exists_cons_of_ne_nil hne
  have hd : kind d = true := hs d List.mem_cons_self
  rintro ⟨⟩
  rw [hc] at hd
  cases hd

theorem stopsAt_cons {c : Char} (hc : kind c = false) (r : List Char) : StopsAt kind (c :: r) := by
  rintro _ ⟨⟩
  exact hc

/-! ### Decimal digits -/

variable {w m n : Nat}

theorem isDigit_of_mem_padded {c : Char} (h : c ∈ padded w n) : c.isDigit = true := by
  rw [padded, List.leftpad, List.mem_append] at h
  rcases h with h | h
  · rw [List.eq_of_mem_replicate h]
    decide
  · exact isDigit_of_mem_decimal h

theorem padded_ne_nil (w n : Nat) : padded w n ≠ [] := by
  rw [padded, List.leftpad]
  exact List.append_ne_nil_of_right_ne_nil _ (decimal_ne_nil n)

theorem ofDigitChars_padded (w n : Nat) : Nat.ofDigitChars 10 (padded w n) 0 = n := by
  -- Zeros in front do not count.
  rw [padded, List.leftpad, Nat.ofDigitChars_append, Nat.ofDigitChars_replicate_zero, Nat.mul_zero,
    ofDigitChars_decimal]

/-- Numbers of at most `w` digits are written in exactly `w`. -/
theorem length_padded (hw : 0 < w) (h : n < 10 ^ w) : (padded w n).length = w := by
  have hlen : (decimal n).length ≤ w := (Nat.length_toDigits_le_iff (by decide) hw).2 h
  rw [padded, List.length_leftpad]
  omega

/-- Positive numbers are written without zeros in front. -/
theorem head?_decimal (hn : n ≠ 0) : (decimal n).head? ≠ some '0' := by
  have hdigit : ∀ d : Fin 10, d ≠ 0 → Nat.digitChar d ≠ '0' := by decide
  induction n using Nat.strongRecOn with
  | ind n ih =>
    rw [decimal, Nat.toDigits_eq_if (by decide)]
    split
    · next hlt =>
      rw [List.head?_cons, ne_eq, Option.some.injEq]
      exact hdigit ⟨n, hlt⟩ (by simpa [Fin.ext_iff] using hn)
    · -- The leading digit is that of the number without its last digit.
      have hquotient : n / 10 ≠ 0 := by omega
      rw [← decimal, List.head?_append_of_ne_nil _ (decimal_ne_nil _)]
      exact ih (n / 10) (by omega) hquotient

/-- Zeros at the end make the number greater by their places. -/
theorem ofDigitChars_rdropWhile (s : List Char) :
    Nat.ofDigitChars 10 (s.rdropWhile (· == '0')) 0
        * 10 ^ (s.length - (s.rdropWhile (· == '0')).length) = Nat.ofDigitChars 10 s 0 := by
  have hsplit : s.rdropWhile (· == '0') ++ s.rtakeWhile (· == '0') = s :=
    List.rdropWhile_append_rtakeWhile
  have hzeros : s.rtakeWhile (· == '0') = List.replicate (s.rtakeWhile (· == '0')).length '0' :=
    List.eq_replicate_of_mem fun c hc => by simpa using List.mem_rtakeWhile_imp hc
  have hlength : s.length
      = (s.rdropWhile (· == '0')).length + (s.rtakeWhile (· == '0')).length := by
    rw [← List.length_append, hsplit]
  have hvalue : Nat.ofDigitChars 10 s 0 = 10 ^ (s.rtakeWhile (· == '0')).length
      * Nat.ofDigitChars 10 (s.rdropWhile (· == '0')) 0 := by
    rw [← Nat.ofDigitChars_replicate_zero, ← hzeros, ← Nat.ofDigitChars_append, hsplit]
  rw [hvalue, hlength, Nat.add_sub_cancel_left, Nat.mul_comm]

theorem padded_inj {w' : Nat} (h : padded w m = padded w' n) : m = n := by
  rw [← ofDigitChars_padded w m, h, ofDigitChars_padded]

/-- **The digits of a number tell the number** and where they end. -/
theorem padded_append_inj {w' : Nat} (hr : StopsAt Char.isDigit r) (hr' : StopsAt Char.isDigit r')
    (h : padded w m ++ r = padded w' n ++ r') : m = n ∧ r = r' := by
  obtain ⟨hdigits, hrest⟩ := run_inj (fun _ => isDigit_of_mem_padded)
    (fun _ => isDigit_of_mem_padded) hr hr' h
  exact ⟨padded_inj hdigits, hrest⟩

theorem decimal_append_inj (hr : StopsAt Char.isDigit r) (hr' : StopsAt Char.isDigit r')
    (h : decimal m ++ r = decimal n ++ r') : m = n ∧ r = r' := by
  have hread := readNatural_decimal m hr
  rw [h, readNatural_decimal n hr'] at hread
  exact ⟨(congrArg Prod.fst hread).symm, (congrArg Prod.snd hread).symm⟩

theorem decimal_append_ne_cons {c : Char} (hc : c.isDigit = false) : decimal n ++ r ≠ c :: r' :=
  run_append_ne_cons (decimal_ne_nil n) (fun _ => isDigit_of_mem_decimal) hc

theorem padded_append_ne_cons {c : Char} (hc : c.isDigit = false) : padded w n ++ r ≠ c :: r' :=
  run_append_ne_cons (padded_ne_nil w n) (fun _ => isDigit_of_mem_padded) hc

theorem toList_signedDecimal (n : Int) :
    (signedDecimal n).toList = if n < 0 then '-' :: decimal n.natAbs else decimal n.natAbs := by
  rw [signedDecimal]
  split <;> simp [decimalString]

/-- **A signed number is told by its digits.** -/
theorem signedDecimal_append_inj {m n : Int} (hr : StopsAt Char.isDigit r)
    (hr' : StopsAt Char.isDigit r')
    (h : (signedDecimal m).toList ++ r = (signedDecimal n).toList ++ r') : m = n ∧ r = r' := by
  have hsign : '-'.isDigit = false := by decide
  rw [toList_signedDecimal, toList_signedDecimal] at h
  -- Where only one of the two has a sign, the other begins with a digit.
  split at h <;> split at h
  · rw [List.cons_append, List.cons_append, List.cons.injEq] at h
    obtain ⟨habs, hrest⟩ := decimal_append_inj hr hr' h.2
    exact ⟨by omega, hrest⟩
  · exact absurd h.symm (decimal_append_ne_cons hsign)
  · exact absurd h (decimal_append_ne_cons hsign)
  · obtain ⟨habs, hrest⟩ := decimal_append_inj hr hr' h
    exact ⟨by omega, hrest⟩

/-! ### Hexadecimal digits -/

theorem digitChar_inj {a b : Nat} (ha : a < 16) (hb : b < 16)
    (h : Nat.digitChar a = Nat.digitChar b) : a = b := by
  have key : ∀ a b : Fin 16, Nat.digitChar a = Nat.digitChar b → a = b := by decide
  exact congrArg Fin.val (key ⟨a, ha⟩ ⟨b, hb⟩ h)

/-- Hexadecimal digits of one width tell the number up to that width. -/
theorem hexadecimal_inj (h : hexadecimal w m = hexadecimal w n) : m % 16 ^ w = n % 16 ^ w := by
  induction w generalizing m n with
  | zero => rw [Nat.pow_zero, Nat.mod_one, Nat.mod_one]
  | succ w ih =>
    -- The last digit is the remainder by sixteen, and the digits in front are the quotient's.
    obtain ⟨hhigh, hlow⟩ := List.append_inj h (by simp [length_hexadecimal])
    have hdigit := digitChar_inj (Nat.mod_lt _ (by decide)) (Nat.mod_lt _ (by decide))
      (List.singleton_inj.1 hlow)
    rw [Nat.pow_succ', Nat.mod_mul, Nat.mod_mul, hdigit, ih hhigh]

/-- A digit as it is written for bytes. -/
theorem toUpper_digitChar_inj {a b : Nat} (ha : a < 16) (hb : b < 16)
    (h : (Nat.digitChar a).toUpper = (Nat.digitChar b).toUpper) : a = b := by
  have key : ∀ a b : Fin 16, (Nat.digitChar a).toUpper = (Nat.digitChar b).toUpper → a = b := by
    decide
  exact congrArg Fin.val (key ⟨a, ha⟩ ⟨b, hb⟩ h)

/-- The two digits of a byte tell the byte. -/
theorem byteDigits_inj {a b : UInt8}
    (h : (hexadecimal 2 a.toNat).map Char.toUpper = (hexadecimal 2 b.toNat).map Char.toUpper) :
    a = b := by
  have ha := a.toNat_lt
  have hb := b.toNat_lt
  simp only [hexadecimal, List.nil_append, List.cons_append, List.map_cons, List.map_nil,
    List.cons.injEq, and_true] at h
  have hhigh := toUpper_digitChar_inj (Nat.mod_lt _ (by decide)) (Nat.mod_lt _ (by decide)) h.1
  have hlow := toUpper_digitChar_inj (Nat.mod_lt _ (by decide)) (Nat.mod_lt _ (by decide)) h.2
  exact UInt8.toNat_inj.1 (by omega)

theorem ne_quote_of_mem_upperHex {data : List UInt8} {c : Char} (h : c ∈ upperHex data) :
    c ≠ '\x27' := by
  have key : ∀ a : Fin 16, (Nat.digitChar a).toUpper ≠ '\x27' := by decide
  rw [upperHex, List.mem_flatMap] at h
  obtain ⟨b, -, hc⟩ := h
  simp only [hexadecimal, List.nil_append, List.cons_append, List.map_cons, List.map_nil,
    List.mem_cons, List.not_mem_nil, or_false] at hc
  rcases hc with rfl | rfl
  · exact key ⟨_, Nat.mod_lt _ (by decide)⟩
  · exact key ⟨_, Nat.mod_lt _ (by decide)⟩

theorem upperHex_inj {a b : List UInt8} (h : upperHex a = upperHex b) : a = b := by
  induction a generalizing b with
  | nil =>
    cases b with
    | nil => rfl
    | cons y b => simp [upperHex, hexadecimal] at h
  | cons x a ih =>
    cases b with
    | nil => simp [upperHex, hexadecimal] at h
    | cons y b =>
      rw [upperHex, upperHex, List.flatMap_cons, List.flatMap_cons] at h
      obtain ⟨hbyte, hrest⟩ := List.append_inj h (by simp [length_hexadecimal])
      rw [byteDigits_inj hbyte, ih hrest]

/-- **Bytes between quotes are told by their digits.** -/
theorem upperHex_append_inj {a b : List UInt8}
    (h : upperHex a ++ '\x27' :: r = upperHex b ++ '\x27' :: r') : a = b ∧ r = r' := by
  -- The closing quote ends the digits, since no digit is a quote.
  have hstops : ∀ r, StopsAt (· != '\x27') ('\x27' :: r) := stopsAt_cons (by decide)
  have hkind : ∀ data, ∀ c ∈ upperHex data, (c != '\x27') = true := fun data c hc => by
    simpa using ne_quote_of_mem_upperHex hc
  obtain ⟨hdigits, hrest⟩ := run_inj (hkind a) (hkind b) (hstops r) (hstops r') h
  exact ⟨upperHex_inj hdigits, List.tail_eq_of_cons_eq hrest⟩

end PgFragment.Text
