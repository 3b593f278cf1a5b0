import PgFragment.Proofs.Mapping.FaithfulLiteral
import PgFragment.Proofs.Text.Nesting

namespace PgFragment

/-!
# Literals are closed

Whatever brackets, words and arrows the text of a value holds, they stand between quotes in its
literal, and the brackets that the literal itself writes are matched.  What it writes without quotes
and does not check are the names of store types and the digits of decimals; these have to be closed
themselves.

* `ScalarKind.closed_literal?` — the literal of a value of one kind.
* `Mapping.closed_literal` — that of any value, containers and records included.
-/

open Text Calendar

/-! ### Texts between quotes -/

/-- The text holds no quote. -/
def NoQuote (cs : List Char) : Prop := '\x27' ∉ cs

theorem noQuote_of_isDigit {cs : List Char} (h : ∀ c ∈ cs, c.isDigit = true) : NoQuote cs := by
  intro hquote
  exact absurd (h _ hquote) (by decide)

theorem noQuote_decimal (n : Nat) : NoQuote (decimal n) :=
  noQuote_of_isDigit fun _ => isDigit_of_mem_decimal

theorem noQuote_padded (w n : Nat) : NoQuote (padded w n) :=
  noQuote_of_isDigit fun _ => isDigit_of_mem_padded

theorem NoQuote.append {cs ds : List Char} (hc : NoQuote cs) (hd : NoQuote ds) :
    NoQuote (cs ++ ds) := List.not_mem_append hc hd

theorem NoQuote.cons {c : Char} {cs : List Char} (hne : c ≠ '\x27') (hc : NoQuote cs) :
    NoQuote (c :: cs) := List.not_mem_cons_of_ne_of_not_mem hne.symm hc

theorem NoQuote.nil : NoQuote [] := List.not_mem_nil

theorem noQuote_hexadecimal (w n : Nat) : NoQuote (hexadecimal w n) := by
  have key : ∀ a : Fin 16, Nat.digitChar a ≠ '\x27' := by decide
  induction w generalizing n with
  | zero => exact .nil
  | succ w ih => exact (ih (n / 16)).append (.cons (key ⟨_, Nat.mod_lt _ (by decide)⟩) .nil)

theorem Uuid.noQuote_text (u : Uuid) : NoQuote u.text := by
  have hgroup : ∀ i k, NoQuote (((hexadecimal 32 u.bits.toNat).drop i).take k) := by
    intro i k hquote
    exact noQuote_hexadecimal 32 _ (List.mem_of_mem_drop (List.mem_of_mem_take hquote))
  have hhyphen : ∀ {cs}, NoQuote cs → NoQuote ('-' :: cs) := .cons (by decide)
  exact ((((hgroup 0 8).append (hhyphen (hgroup 8 4))).append (hhyphen (hgroup 12 4))).append
    (hhyphen (hgroup 16 4))).append (hhyphen (hgroup 20 12))

theorem Calendar.Date.noQuote_text (d : Date) : NoQuote d.text := by
  have hyear : NoQuote (Date.yearText d.year) := by
    unfold Date.yearText
    split
    · exact noQuote_padded 4 _
    · refine .cons ?_ (noQuote_padded 4 _)
      split <;> decide
  have hhyphen : ∀ {cs}, NoQuote cs → NoQuote ('-' :: cs) := .cons (by decide)
  exact (hyear.append (hhyphen (noQuote_padded 2 _))).append (hhyphen (noQuote_padded 2 _))

theorem Calendar.TimeOfDay.noQuote_text (t : TimeOfDay) : NoQuote t.text := by
  have hfraction : ∀ n, NoQuote (TimeOfDay.fractionText n) := by
    intro n
    have hpoint : ∀ w m, NoQuote ('.' :: padded w m) := fun w m =>
      .cons (by decide) (noQuote_padded w m)
    unfold TimeOfDay.fractionText
    split
    · exact .nil
    · split
      · exact hpoint 3 _
      · split
        · exact hpoint 6 _
        · exact hpoint 9 _
  have hcolon : ∀ n, NoQuote (':' :: padded 2 n) := fun n => .cons (by decide) (noQuote_padded 2 n)
  exact (((noQuote_padded 2 _).append (hcolon _)).append (hcolon _)).append (hfraction _)

theorem Calendar.DateTime.noQuote_text (t : DateTime) : NoQuote (t.text ' ') :=
  t.date.noQuote_text.append (.cons (by decide) t.time.noQuote_text)

theorem Calendar.OffsetDateTime.noQuote_offsetToMinute (t : OffsetDateTime) :
    NoQuote t.offsetToMinute := by
  have hsign : t.signText ≠ '\x27' := by
    unfold OffsetDateTime.signText
    split <;> decide
  exact (NoQuote.cons hsign (noQuote_padded 2 _)).append (.cons (by decide) (noQuote_padded 2 _))

theorem Calendar.Duration.noQuote_intervalText (d : Duration) : NoQuote d.intervalText := by
  have hsign : NoQuote (if d.nanoseconds < 0 then ['-'] else []) := by
    split
    · exact .cons (by decide) .nil
    · exact .nil
  have hdays : ∀ n, NoQuote (if n = 0 then [] else decimal n ++ [' ']) := by
    intro n
    split
    · exact .nil
    · exact (noQuote_decimal n).append (.cons (by decide) .nil)
  have hmicros : ∀ n, NoQuote (Duration.microsText n) := by
    intro n
    unfold Duration.microsText
    split
    · exact .nil
    · refine .cons (by decide) ?_
      intro hquote
      -- The zeros that are dropped stand at the end.
      refine noQuote_padded 6 n ?_
      rw [← List.mem_reverse]
      exact (List.dropWhile_suffix _).mem (List.mem_reverse.1 hquote)
  have hcolon : ∀ n, NoQuote (':' :: padded 2 n) := fun n => .cons (by decide) (noQuote_padded 2 n)
  exact ((((hsign.append (hdays _)).append (noQuote_padded 2 _)).append (hcolon _)).append
    (hcolon _)).append (hmicros _)

/-! ### Numbers -/

theorem isCalm_of_mem_decimal {n : Nat} {c : Char} (h : c ∈ decimal n) : isCalm c = true :=
  isCalm_of_isDigit (isDigit_of_mem_decimal h)

/-- Calm characters, one at least, with or without a minus sign. -/
theorem closed_signed (negative : Prop) [Decidable negative] {cs : List Char} (hne : cs ≠ [])
    (h : ∀ c ∈ cs, isCalm c = true) :
    Closed ((if negative then "-" else "") ++ String.ofList cs) := by
  have hcalm : ∀ c ∈ (String.ofList cs).toList, isCalm c = true := by
    rwa [String.toList_ofList]
  split
  · refine Closed.hyphen ?_ hcalm
    intro hempty
    refine hne ?_
    rw [← String.toList_ofList (l := cs), hempty]
    rfl
  · exact Closed.empty.append (Closed.of_isCalm hcalm)

theorem closed_signedDecimal (n : Int) : Closed (signedDecimal n) := by
  have h := closed_signed (n < 0) (decimal_ne_nil n.natAbs)
    fun _ => isCalm_of_mem_decimal
  unfold signedDecimal decimalString
  split at h
  · next hneg => rwa [if_pos hneg]
  · next hneg => rwa [if_neg hneg, ← String.empty_append (s := String.ofList _)]

theorem positional_ne_nil (d : Binary.Decimal) : d.positional [] ≠ [] := by
  unfold Binary.Decimal.positional
  dsimp only
  split
  · rw [List.append_assoc]
    exact List.append_ne_nil_of_left_ne_nil (decimal_ne_nil d.digits) _
  · exact List.append_ne_nil_of_right_ne_nil _ (List.cons_ne_nil _ _)

theorem isCalm_of_mem_positional {d : Binary.Decimal} {c : Char} (h : c ∈ d.positional []) :
    isCalm c = true := by
  have hzero : ∀ n, c ∈ List.replicate n '0' → isCalm c = true := by
    intro n hc
    rw [List.eq_of_mem_replicate hc]
    decide
  unfold Binary.Decimal.positional at h
  dsimp only at h
  split at h
  · simp only [List.append_nil, List.mem_append] at h
    rcases h with h | h
    · exact isCalm_of_mem_decimal h
    · exact hzero _ h
  · -- The digits with zeros in front are cut in two, with a point between the halves.
    have hpadded : ∀ n, c ∈ (decimal d.digits).leftpad n '0' → isCalm c = true := by
      intro n hc
      rw [List.leftpad, List.mem_append] at hc
      rcases hc with hc | hc
      · exact hzero _ hc
      · exact isCalm_of_mem_decimal hc
    rw [List.mem_append, List.mem_cons] at h
    rcases h with h | rfl | h
    · exact hpadded _ (List.mem_of_mem_take h)
    · decide
    · exact hpadded _ (List.mem_of_mem_drop h)

theorem closed_floatLiteral (bits : Nat) (format : Binary.Format) :
    Closed (floatLiteral bits format) := by
  have hquoted : ∀ s : String, NoQuote s.toList → Closed ("'" ++ s ++ "'") := by
    intro s hs
    have h := Closed.quote hs
    rwa [String.ofList_toList] at h
  unfold floatLiteral
  split
  · exact hquoted "NaN" (by unfold NoQuote; decide)
  · split
    · exact hquoted "-Infinity" (by unfold NoQuote; decide)
    · exact hquoted "Infinity" (by unfold NoQuote; decide)
  · exact closed_signed _ (positional_ne_nil _) fun _ => isCalm_of_mem_positional

/-! ### Literals of one kind -/

/-- The name that a kind writes as it is is closed. -/
def ScalarKind.NameClosed : ScalarKind → Prop
  | .enum name => Closed name
  | _ => True

mutual

/-- The decimals in a value, which are written as they are, are closed. -/
def Value.DecimalsClosed : Value → Prop
  | .decimal digits => Closed digits
  | .list items | .record items => DecimalsClosedEach items
  | _ => True

/-- `DecimalsClosed` of each value. -/
def Value.DecimalsClosedEach : List Value → Prop
  | [] => True
  | v :: rest => v.DecimalsClosed ∧ DecimalsClosedEach rest

end

/-- A word in front of a quote, as in `DATE '2024-01-01'`. -/
theorem closed_afterWord (word : String) {opening : String} {cs : List Char} (hword : Closed word)
    (hopening : opening = word ++ "'") (h : NoQuote cs) :
    Closed (opening ++ String.ofList cs ++ "'") := by
  have hc := hword.append (Closed.quote h)
  rwa [← String.append_assoc, ← String.append_assoc, ← hopening] at hc

namespace ScalarKind

variable {kind : ScalarKind} {v : Value} {s cast text : String}

/-- What stands behind the closing quote is a cast or nothing. -/
theorem closed_cast (hk : kind.NameClosed) (h : kind.quotedPart? v = some (s, cast)) :
    Closed cast := by
  unfold quotedPart? at h
  split at h
  case h_10 => cases h
  all_goals
    simp only [Option.some.injEq, Prod.mk.injEq] at h
    obtain ⟨-, rfl⟩ := h
  case h_6 | h_7 => exact ⟨fun _ => rfl, by decide⟩
  case h_8 | h_9 =>
    have hcolons : Closed "::" := ⟨fun _ => rfl, by decide⟩
    exact hcolons.append hk
  all_goals exact Closed.empty

theorem closed_literal? (hk : kind.NameClosed) (hv : v.DecimalsClosed)
    (h : kind.literal? v = some text) : Closed text := by
  cases hq : kind.quotedPart? v with
  | some part =>
    -- The kinds that quote text write it between quotes, with a cast behind.
    rw [literal?_of_quotedPart? hq] at h
    cases h
    exact (Closed.quotedString (.inl rfl) part.1).append (closed_cast hk hq)
  | none =>
    unfold literal? at h
    split at h
    case h_1 b =>
      cases h
      cases b <;> exact ⟨fun _ => rfl, by decide⟩
    case h_2 n | h_3 n =>
      cases h
      exact closed_signedDecimal n.val
    case h_4 digits =>
      cases h
      exact hv
    case h_5 bits =>
      cases h
      exact (closed_floatLiteral _ _).append ⟨fun _ => rfl, by decide⟩
    case h_6 bits =>
      cases h
      exact closed_floatLiteral _ _
    case h_12 id =>
      cases h
      have hcast : Closed "::uuid" := ⟨fun _ => rfl, by decide⟩
      have hclosed := (Closed.quote id.noQuote_text).append hcast
      rwa [String.append_assoc] at hclosed
    case h_13 t =>
      cases h
      exact closed_afterWord "TIMESTAMP " ⟨fun _ => rfl, by decide⟩ rfl t.noQuote_text
    case h_14 t =>
      cases h
      exact closed_afterWord "TIMESTAMPTZ " ⟨fun _ => rfl, by decide⟩ rfl
        (t.localTime.noQuote_text.append t.noQuote_offsetToMinute)
    case h_15 t =>
      cases h
      exact closed_afterWord "DATE " ⟨fun _ => rfl, by decide⟩ rfl t.date.noQuote_text
    case h_16 d =>
      cases h
      exact closed_afterWord "INTERVAL " ⟨fun _ => rfl, by decide⟩ rfl
        d.noQuote_intervalText
    case h_17 data =>
      cases h
      have hdigits : NoQuote (['\\', '\\', 'x'] ++ upperHex data) :=
        NoQuote.append (by unfold NoQuote; decide) fun hquote => ne_quote_of_mem_upperHex hquote rfl
      have hclosed := closed_afterWord "BYTEA E" ⟨fun _ => rfl, by decide⟩ rfl hdigits
      rwa [String.ofList_append, ← String.append_assoc] at hclosed
    case h_22 => cases h
    all_goals cases hq

end ScalarKind

/-! ### Literals of any mapping -/

namespace Mapping

/-- The names that literals of the mapping write as they are are closed: those of enumerations, and
those of the store types of containers. -/
def NamesClosed : Mapping → Prop
  | .scalar kind _ => kind.NameClosed
  | .container _ element params => Closed params.fullStoreType ∧ element.NamesClosed

variable {m element : Mapping} {v : Value} {text : String}

theorem decimalsClosed_of_mem {items : List Value} (h : Value.DecimalsClosedEach items)
    (hv : v ∈ items) : v.DecimalsClosed := by
  induction items with
  | nil => cases hv
  | cons item items ih =>
    cases hv with
    | head => exact h.1
    | tail _ hv => exact ih h.2 hv

/-- The literals of items whose literals are closed are so within brackets too. -/
theorem nested_items (ih : ∀ {v text}, v.DecimalsClosed → element.literal v = .ok text →
      Closed text) {items : List Value} {texts : List String}
    (hv : Value.DecimalsClosedEach items) (h : items.map element.literal = texts.map .ok) :
    ∀ t ∈ texts, Nested t := by
  intro t ht
  obtain ⟨item, hitem, hlit⟩ := Success.exists_mem_eq_ok h ht
  exact (ih (decimalsClosed_of_mem hv hitem) hlit).nested

/-- **A literal is closed**, as soon as the names and decimals are that it writes as they are. -/
theorem closed_literal (hm : m.NamesClosed) (hv : v.DecimalsClosed)
    (h : m.literal v = .ok text) : Closed text := by
  induction m generalizing v text with
  | scalar kind params =>
    cases hnull : v.isNull with
    | true =>
      rw [literal_of_isNull hnull] at h
      cases h
      exact ⟨fun _ => rfl, by decide⟩
    | false => exact ScalarKind.closed_literal? hm hv (literal_scalar hnull h)
  | container shape element params ih =>
    obtain ⟨hname, helement⟩ := hm
    cases hnull : v.isNull with
    | true =>
      rw [literal_of_isNull hnull] at h
      cases h
      exact ⟨fun _ => rfl, by decide⟩
    | false =>
      cases shape with
      | array =>
        obtain ⟨items, texts, rfl, htexts, rfl⟩ := literal_array hnull h
        have hlist : Nested (String.intercalate "," texts) :=
          Nested.intercalate (fun _ => rfl) (nested_items (ih helement) hv htexts)
        exact (hlist.between "ARRAY[" "]::" (fun _ => rfl) rfl (by decide) fun _ => rfl).append hname
      | range =>
        obtain ⟨lower, upper, l, u, rfl, hl, hu, rfl⟩ := literal_range hnull h
        have hcomma : Nested ", " := fun _ => rfl
        have hl' := (ih helement hv.1 hl).nested
        have hu' := (ih helement hv.2.1 hu).nested
        have hclosed := Nested.applied hname ((hl'.append hcomma).append hu')
        rwa [← String.append_assoc, ← String.append_assoc] at hclosed
      | multirange =>
        obtain ⟨items, texts, rfl, htexts, rfl⟩ := literal_multirange hnull h
        exact Nested.applied hname (Nested.commaSeparated (nested_items (ih helement) hv htexts))

end Mapping

end PgFragment
