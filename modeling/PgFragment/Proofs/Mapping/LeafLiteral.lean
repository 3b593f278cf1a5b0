import PgFragment.Proofs.Mapping.QuotedLiteral
import PgFragment.Proofs.Value.WrittenTimes

namespace PgFragment

/-!
# Literals of single values

Under a kind that keeps values apart, the literal of a single value tells the value as it is written
and where the literal ends, as long as what follows begins with none of its characters.

* `Uuid.text_append_inj` — identifiers.
* `ScalarKind.literal?_append_inj` — values of any such kind.
* `ScalarKind.literal?_asWritten` — the literal is that of the value as it is written.
* `ScalarKind.opens_literal?` — such a literal begins neither as null does nor with a delimiter.
-/

open Text Calendar

/-! ### Identifiers -/

namespace Uuid

theorem ne_hyphen_of_mem_hexadecimal {w n : Nat} {c : Char} (h : c ∈ hexadecimal w n) :
    c ≠ '-' := by
  have key : ∀ a : Fin 16, Nat.digitChar a ≠ '-' := by decide
  induction w generalizing n with
  | zero => cases h
  | succ w ih =>
    rw [hexadecimal, List.mem_append, List.mem_singleton] at h
    rcases h with h | rfl
    · exact ih h
    · exact key ⟨_, Nat.mod_lt _ (by decide)⟩

/-- The groups put together are the digits. -/
theorem append_groups {digits : List Char} (h : digits.length = 32) :
    (digits.drop 0).take 8 ++ ((digits.drop 8).take 4 ++ ((digits.drop 12).take 4 ++
      ((digits.drop 16).take 4 ++ (digits.drop 20).take 12))) = digits := by
  have hlast : (digits.drop 20).take 12 = digits.drop 20 :=
    List.take_of_length_le (by rw [List.length_drop]; omega)
  have hgroup : ∀ i k, (digits.drop i).take k ++ digits.drop (i + k) = digits.drop i := by
    intro i k
    rw [← List.drop_drop]
    exact List.take_append_drop k (digits.drop i)
  rw [hlast, hgroup 16 4, hgroup 12 4, hgroup 8 4, hgroup 0 8, List.drop_zero]

/-- The text without its hyphens. -/
theorem filter_text (u : Uuid) : u.text.filter (· != '-') = hexadecimal 32 u.bits.toNat := by
  have hdigits : ∀ i k, ((((hexadecimal 32 u.bits.toNat).drop i).take k).filter (· != '-'))
      = ((hexadecimal 32 u.bits.toNat).drop i).take k := by
    intro i k
    refine List.filter_eq_self.2 fun c hc => ?_
    have hmem : c ∈ hexadecimal 32 u.bits.toNat := List.mem_of_mem_drop (List.mem_of_mem_take hc)
    simpa using ne_hyphen_of_mem_hexadecimal hmem
  have hhyphen : ∀ s : List Char, ('-' :: s).filter (· != '-') = s.filter (· != '-') := by
    intro s
    rfl
  -- The hyphens that are taken out are those between the groups, for no digit is one.
  rw [text]
  simp only [List.append_assoc, List.cons_append, List.filter_append, hhyphen, hdigits]
  exact append_groups (length_hexadecimal 32 _)

theorem length_text (u : Uuid) : u.text.length = 36 := by
  simp [text, length_hexadecimal]

/-- **An identifier is told by its text.** -/
theorem text_append_inj {a b : Uuid} {r r' : List Char} (h : a.text ++ r = b.text ++ r') :
    a = b ∧ r = r' := by
  obtain ⟨htext, hrest⟩ := List.append_inj h (by rw [length_text, length_text])
  have hdigits : hexadecimal 32 a.bits.toNat = hexadecimal 32 b.bits.toNat := by
    rw [← filter_text, ← filter_text, htext]
  have hmod := hexadecimal_inj hdigits
  have ha := a.bits.isLt
  have hb := b.bits.isLt
  rw [Nat.mod_eq_of_lt (by omega), Nat.mod_eq_of_lt (by omega)] at hmod
  refine ⟨?_, hrest⟩
  cases a
  cases b
  exact congrArg Uuid.mk (BitVec.eq_of_toNat_eq hmod)

end Uuid

/-! ### Single values -/

/-- The variants of single values. -/
inductive Leaf where
  | bool
  | int (width : IntWidth)
  | string
  | uuid
  | dateTime
  | bytes
  | enum

/-- The single values of a variant. -/
inductive Value.IsLeaf : Leaf → Value → Prop
  | bool (b : Bool) : IsLeaf .bool (.bool b)
  | int (n : FixedInt) : IsLeaf (.int n.width) (.int n)
  | string (s : String) : IsLeaf .string (.string s)
  | uuid (id : Uuid) : IsLeaf .uuid (.uuid id)
  | dateTime (t : DateTime) : IsLeaf .dateTime (.dateTime t)
  | bytes (data : List UInt8) : IsLeaf .bytes (.bytes data)
  | enum (label : String) : IsLeaf .enum (.enum label)

/-- The kinds whose literals keep the values of one variant apart. -/
def ScalarKind.keepsApart : ScalarKind → Bool
  | .boolean | .integer | .text | .regconfig | .uuid | .timestamp | .bytea | .json | .jsonb
  | .enum _ => true
  | _ => false

/-- The characters that stand behind a literal within another. -/
def isDelimiter (c : Char) : Bool := c == ',' || c == ']' || c == ')'

/-- The text is over or goes on with a delimiter. -/
def Delimited (r : List Char) : Prop := StopsAt (!isDelimiter ·) r

variable {kind : ScalarKind} {leaf : Leaf} {v w : Value} {a b : String} {r r' : List Char}

theorem isDigit_of_isDelimiter {c : Char} (h : isDelimiter c = true) : c.isDigit = false := by
  simp only [isDelimiter, Bool.or_eq_true, beq_iff_eq] at h
  rcases h with (rfl | rfl) | rfl <;> decide

theorem Delimited.stopsAt_isDigit (h : Delimited r) : StopsAt Char.isDigit r :=
  fun c hc => isDigit_of_isDelimiter (by simpa using h c hc)

theorem Delimited.head?_ne_quote (h : Delimited r) : r.head? ≠ some '\x27' := by
  intro hq
  exact absurd (h _ hq) (by decide)

/-! ### How a literal begins -/

/-- The text begins, and neither with a delimiter nor as `NULL` does. -/
def Opens (s : List Char) : Prop := ∃ c cs, s = c :: cs ∧ c ≠ 'N' ∧ isDelimiter c = false

theorem opens_signedDecimal (n : Int) : Opens (signedDecimal n).toList := by
  rw [toList_signedDecimal]
  split
  · exact ⟨'-', _, rfl, by decide, by decide⟩
  · obtain ⟨c, cs, hcs⟩ := List.exists_cons_of_ne_nil (decimal_ne_nil n.natAbs)
    have hc : c.isDigit = true := isDigit_of_mem_decimal (hcs ▸ List.mem_cons_self)
    refine ⟨c, cs, hcs, ?_, ?_⟩
    · rintro rfl
      exact absurd hc (by decide)
    · cases hd : isDelimiter c with
      | false => rfl
      | true =>
        rw [isDigit_of_isDelimiter hd] at hc
        cases hc

theorem opens_quotedLiteral (s : String) : Opens (quotedLiteral s).toList :=
  ⟨'\x27', doubled '\x27' s.toList ++ ['\x27'],
    by rw [quotedLiteral, quotedString, String.toList_ofList, quoted], by decide, by decide⟩

theorem opens_append {s t : String} (h : Opens s.toList) : Opens (s ++ t).toList := by
  obtain ⟨c, cs, hcs, hn, hd⟩ := h
  exact ⟨c, cs ++ t.toList, by rw [String.toList_append, hcs, List.cons_append], hn, hd⟩

/-! ### Literals under one kind -/

namespace ScalarKind

/-- Text between quotes, with a cast behind it, tells the text. -/
theorem quotedPart?_append_inj {s t cast : String} (hs : kind.quotedPart? v = some (s, cast))
    (ht : kind.quotedPart? w = some (t, cast)) (ha : kind.literal? v = some a)
    (hb : kind.literal? w = some b) (hr : Delimited r) (hr' : Delimited r')
    (h : a.toList ++ r = b.toList ++ r') : s = t ∧ r = r' := by
  have hreads := readQuoted_quoted s.toList (head?_cast_append hs hr.head?_ne_quote)
  have hreadt := readQuoted_quoted t.toList (head?_cast_append ht hr'.head?_ne_quote)
  rw [literal?_of_quotedPart? hs] at ha
  rw [literal?_of_quotedPart? ht] at hb
  cases ha
  cases hb
  simp only [quotedLiteral, quotedString, String.toList_append, String.toList_ofList,
    List.append_assoc] at h
  rw [h, hreadt] at hreads
  obtain ⟨htext, hrest⟩ := Prod.mk.inj (Option.some.inj hreads)
  exact ⟨(String.toList_inj.1 htext).symm, (List.append_cancel_left hrest).symm⟩

/-- Strings and labels are quoted, with one cast for all texts. -/
theorem exists_cast_of_string {s : String} (hk : kind.keepsApart = true)
    (h : kind.literal? (.string s) = some a) :
    ∃ cast, ∀ t, kind.quotedPart? (.string t) = some (t, cast) := by
  cases kind with
  | text | regconfig | json | jsonb | enum => exact ⟨_, fun t => rfl⟩
  | character => cases hk
  | _ => cases h

theorem exists_cast_of_enum {s : String} (h : kind.literal? (.enum s) = some a) :
    ∃ cast, ∀ t, kind.quotedPart? (.enum t) = some (t, cast) := by
  cases kind with
  | enum => exact ⟨_, fun t => rfl⟩
  | _ => cases h

/-- **A literal tells the single value as it is written**, given its variant, and where the literal
ends. -/
theorem literal?_append_inj (hk : kind.keepsApart = true) (hv : v.IsLeaf leaf) (hw : w.IsLeaf leaf)
    (ha : kind.literal? v = some a) (hb : kind.literal? w = some b) (hr : Delimited r)
    (hr' : Delimited r') (h : a.toList ++ r = b.toList ++ r') :
    v.asWritten = w.asWritten ∧ r = r' := by
  cases hv with
  | bool x =>
    cases hw with
    | bool y =>
      cases kind with
      | boolean =>
        cases ha
        cases hb
        cases x <;> cases y <;> simp_all
      | _ => cases ha
  | int m =>
    -- The width is not in the text; it is the variant that fixes it.
    generalize hwidth : m.width = width at hw
    cases hw with
    | int n =>
      cases kind with
      | integer =>
        cases ha
        cases hb
        obtain ⟨hval, hrest⟩ := signedDecimal_append_inj hr.stopsAt_isDigit hr'.stopsAt_isDigit h
        refine ⟨?_, hrest⟩
        cases m
        cases n
        obtain ⟨rfl, rfl⟩ : _ ∧ _ := ⟨hwidth, hval⟩
        rfl
      | numeric => cases hk
      | _ => cases ha
  | string s =>
    cases hw with
    | string t =>
      obtain ⟨cast, hcast⟩ := exists_cast_of_string hk ha
      obtain ⟨rfl, hrest⟩ := quotedPart?_append_inj (hcast s) (hcast t) ha hb hr hr' h
      exact ⟨rfl, hrest⟩
  | uuid x =>
    cases hw with
    | uuid y =>
      cases kind with
      | uuid =>
        cases ha
        cases hb
        simp only [String.toList_append, String.toList_ofList, List.append_assoc] at h
        obtain ⟨rfl, hrest⟩ := Uuid.text_append_inj (List.append_cancel_left h)
        exact ⟨rfl, List.append_cancel_left hrest⟩
      | _ => cases ha
  | dateTime x =>
    cases hw with
    | dateTime y =>
      cases kind with
      | timestamp =>
        cases ha
        cases hb
        simp only [String.toList_append, String.toList_ofList, List.append_assoc] at h
        obtain ⟨htime, hrest⟩ := DateTime.text_append_inj (by decide) (List.append_cancel_left h)
        rw [Value.asWritten, Value.asWritten, htime]
        exact ⟨rfl, hrest⟩
      | date => cases hk
      | _ => cases ha
  | bytes x =>
    cases hw with
    | bytes y =>
      cases kind with
      | bytea =>
        cases ha
        cases hb
        simp only [String.toList_append, String.toList_ofList, List.append_assoc] at h
        obtain ⟨rfl, hrest⟩ := upperHex_append_inj (List.append_cancel_left h)
        exact ⟨rfl, hrest⟩
      | _ => cases ha
  | enum s =>
    cases hw with
    | enum t =>
      obtain ⟨cast, hcast⟩ := exists_cast_of_enum ha
      obtain ⟨rfl, hrest⟩ := quotedPart?_append_inj (hcast s) (hcast t) ha hb hr hr' h
      exact ⟨rfl, hrest⟩

/-- The literal is that of the value as it is written. -/
theorem literal?_asWritten (kind : ScalarKind) (v : Value) :
    kind.literal? v.asWritten = kind.literal? v := by
  cases v with
  | dateTime t =>
    cases kind with
    | timestamp => rw [Value.asWritten, literal?, literal?, DateTime.text_asWritten]
    | _ => rfl
  | list items => cases kind <;> rfl
  | record fields => cases kind <;> rfl
  | _ => rfl

/-- No literal of a single value begins as null does or as another literal goes on. -/
theorem opens_literal? (hk : kind.keepsApart = true) (hv : v.IsLeaf leaf)
    (ha : kind.literal? v = some a) : Opens a.toList := by
  cases hv with
  | bool x =>
    cases kind with
    | boolean =>
      cases ha
      cases x
      · exact ⟨'F', _, rfl, by decide, by decide⟩
      · exact ⟨'T', _, rfl, by decide, by decide⟩
    | _ => cases ha
  | int n =>
    cases kind with
    | integer => cases ha; exact opens_signedDecimal n.val
    | numeric => cases hk
    | _ => cases ha
  | string s =>
    obtain ⟨cast, hcast⟩ := exists_cast_of_string hk ha
    rw [literal?_of_quotedPart? (hcast s)] at ha
    cases ha
    exact opens_append (opens_quotedLiteral s)
  | uuid x =>
    cases kind with
    | uuid => cases ha; exact opens_append (opens_append ⟨'\x27', [], rfl, by decide, by decide⟩)
    | _ => cases ha
  | dateTime x =>
    cases kind with
    | timestamp =>
      cases ha
      exact opens_append (opens_append ⟨'T', _, rfl, by decide, by decide⟩)
    | date => cases hk
    | _ => cases ha
  | bytes x =>
    cases kind with
    | bytea =>
      cases ha
      exact opens_append (opens_append ⟨'B', _, rfl, by decide, by decide⟩)
    | _ => cases ha
  | enum s =>
    obtain ⟨cast, hcast⟩ := exists_cast_of_enum ha
    rw [literal?_of_quotedPart? (hcast s)] at ha
    cases ha
    exact opens_append (opens_quotedLiteral s)

end ScalarKind

end PgFragment
