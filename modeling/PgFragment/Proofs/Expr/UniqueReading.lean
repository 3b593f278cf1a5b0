import PgFragment.Mapping.Catalog
import PgFragment.Proofs.Expr.Reading

namespace PgFragment.Reading

/-!
# Fragments read in one way

Main statements:

* `operand_reads` — an operand is read back with its casts, whether it stands in brackets or not.
* `read_finds` — a reader of enough depth reads every shape back from its text.
* `shape_eq_of_render_eq` — expressions that are written alike have the same shape.
-/

open Text

variable {s : Shape} {sub : Reader Shape} {k : Nat} {rest : List Char}

/-! ### Store types -/

theorem typeWords_of_breaks (hb : Breaks rest) : typeWords rest = ([], rest) := by
  cases rest with
  | nil => rfl
  | cons c rest =>
    have hc : isNamePart c = false := hb.stops c rfl
    have hnext : (c == ' ' && rest.head?.any isNamePart) = false := by
      by_cases hs : c = ' '
      · cases rest with
        | nil => simp
        | cons d rest => simp [hb.next d rest (by rw [hs])]
      · simp [hs]
    simp [typeWords, hc, hnext]

theorem typeWords_append {w : List Char} (hw : ∀ c ∈ w, isNamePart c = true) (cs : List Char) :
    typeWords (w ++ cs) = (w ++ (typeWords cs).1, (typeWords cs).2) := by
  induction w with
  | nil => rfl
  | cons c w ih =>
    have hc : isNamePart c = true := hw c List.mem_cons_self
    rw [List.cons_append, typeWords, hc, Bool.true_or, if_pos rfl,
      ih fun d hd => hw d (List.mem_cons_of_mem c hd), List.cons_append]

theorem typeWords_intercalate {ws : List (List Char)} (hne : ws ≠ [])
    (h : ∀ w ∈ ws, w ≠ [] ∧ ∀ c ∈ w, isNamePart c = true) (hb : Breaks rest) :
    typeWords ([' '].intercalate ws ++ rest) = ([' '].intercalate ws, rest) := by
  induction ws with
  | nil => exact absurd rfl hne
  | cons w ws ih =>
    obtain ⟨-, hw⟩ := h w List.mem_cons_self
    cases ws with
    | nil => simp [typeWords_append hw, typeWords_of_breaks hb]
    | cons v vs =>
      have hmore := ih (by simp) fun u hu => h u (List.mem_cons_of_mem w hu)
      obtain ⟨hvne, hv⟩ := h v (by simp)
      obtain ⟨c, v, rfl⟩ := List.exists_cons_of_ne_nil hvne
      have hc : isNamePart c = true := hv c List.mem_cons_self
      have hhead : ([' '].intercalate ((c :: v) :: vs) ++ rest).head? = some c := by
        cases vs <;> simp
      have htext : [' '].intercalate (w :: (c :: v) :: vs) ++ rest
          = w ++ ' ' :: ([' '].intercalate ((c :: v) :: vs) ++ rest) := by
        simp
      -- The blank between two words is one that a further word follows.
      rw [htext]
      generalize [' '].intercalate ((c :: v) :: vs) ++ rest = more at *
      rw [typeWords_append hw, typeWords, hhead]
      simp [hc, hmore]

/-- The name of a store type is read back. -/
theorem typeWords_typeName (type : TypeName) (hb : Breaks rest) :
    typeWords (type.text.toList ++ rest) = (type.text.toList, rest) := by
  have hwords := type.words
  have h : ∀ w ∈ type.text.toList.splitOn ' ', w ≠ [] ∧ ∀ c ∈ w, isNamePart c = true := by
    simpa [isTypeName] using hwords
  have hread := typeWords_intercalate (List.splitOn_ne_nil ' ' _) h hb
  rwa [List.intercalate_splitOn] at hread

/-! ### Operands -/

/-- What begins with a name is read as a name. -/
theorem primary_named {c : Char} {cs : List Char} (h : isNameStart c = true ∨ c = '"') :
    primary sub k (c :: cs) = named sub k (c :: cs) := by
  -- Brackets and digits are looked for first, and no name begins with either.
  have hparen : c ≠ '(' := by rintro rfl; revert h; decide
  have hdigit : c.isDigit = false := by
    rcases h with h | rfl
    · exact isDigit_of_isNameStart h
    · decide
  have hname : (isNameStart c || c == '"') = true := by simpa using h
  simp [primary, hparen, hdigit, hname]

theorem exists_head_identifier (name : String) :
    ∃ c cs, (identifier name).toList = c :: cs ∧ (isNameStart c = true ∨ c = '"') := by
  unfold identifier
  split
  · next h =>
    obtain ⟨c, cs, hcs, hc⟩ := exists_isNameStart (Bool.and_eq_true _ _ ▸ h).1
    exact ⟨c, cs, hcs, .inl hc⟩
  · exact ⟨'"', _, by rw [quotedString, String.toList_ofList, quoted], .inr rfl⟩

theorem exists_head_columnText (table name : String) :
    ∃ c cs, (Shape.columnText table name).toList = c :: cs ∧ (isNameStart c = true ∨ c = '"') := by
  rw [Shape.columnText]
  split
  · rw [String.empty_append]
    exact exists_head_identifier name
  · obtain ⟨c, cs, hcs, hc⟩ := exists_head_identifier table
    exact ⟨c, cs ++ ('.' :: (identifier name).toList), by simp [hcs], hc⟩

/-- No name begins with an upper-case letter, so that a keyword is read as one. -/
theorem primary_keyword {c : Char} {cs : List Char} (h : c = 'C' ∨ c = 'N') :
    primary sub k (c :: cs) = keyword sub k (c :: cs) := by
  rcases h with rfl | rfl <;> simp [primary, isNameStart]

theorem primary_number {n : Int} (hn : ¬ n < 0) (hb : Breaks rest) :
    primary sub k ((Shape.number n).text.toList ++ rest) = some (.number n, rest) := by
  have hread := readNatural_decimal n.natAbs hb.stopsAt_isDigit
  obtain ⟨c, cs, hcs⟩ := List.exists_cons_of_ne_nil (decimal_ne_nil n.natAbs)
  have hdigit : c.isDigit = true := isDigit_of_mem_decimal (hcs ▸ List.mem_cons_self)
  have hparen : c ≠ '(' := by
    rintro rfl
    exact absurd hdigit (by decide)
  have hval : (n.natAbs : Int) = n := by omega
  rw [hcs, List.cons_append] at hread
  rw [Shape.text, signedDecimal, if_neg hn, decimalString, String.toList_ofList, hcs,
    List.cons_append, primary, if_neg hparen, if_pos hdigit, hread]
  simp only [hval]

/-- **An operand without casts is read back.** -/
theorem primary_reads (hr : Refuses sub) (h : ∀ p ∈ s.parts, Reads sub p) (hk : sizeOf s ≤ k)
    (hb : Breaks rest) (hs : s.isBracketed = false) (hc : ∀ p type, s ≠ .cast p type) :
    primary sub k (s.text.toList ++ rest) = some (s, rest) := by
  have hfinds : ∀ p ∈ s.parts, Finds sub p.text p := by
    intro p hp
    exact (h p hp).plain
  cases s with
  | column table name =>
    have hread := named_column sub k table name hb
    obtain ⟨c, cs, hcs, hc⟩ := exists_head_columnText table name
    rw [hcs] at hread
    rw [Shape.text, hcs, List.cons_append, primary_named hc, ← List.cons_append, hread]
  | number n => exact primary_number (by simpa [Shape.isBracketed] using hs) hb
  | null => simp [Shape.text, primary, keyword, after?, List.isPrefixOf?, isNameStart]
  | binary op lhs rhs =>
    -- Of the operators only `COALESCE` stands without brackets.
    obtain rfl : op = .coalesce := by simpa [Shape.isBracketed] using hs
    have hlen : 2 ≤ k := by
      have := Shape.sizeOf_pos lhs
      have := Shape.sizeOf_pos rhs
      simp only [Shape.binary.sizeOf_spec] at hk
      omega
    have hread := keyword_coalesce hfinds hlen rest
    have htext : (Shape.binary .coalesce lhs rhs).text.toList ++ rest
        = 'C' :: ("OALESCE".toList ++ ((Shape.listText [lhs.text, rhs.text]).toList ++ rest)) := by
      simp [Shape.text, Shape.binaryText]
    rw [htext] at hread ⊢
    rw [primary_keyword (.inl rfl), hread]
  | not operand => cases hs
  | like ignoreCase subject pattern => cases hs
  | case o cls e =>
    have hlen : cls.length ≤ k := by
      have := Shape.length_lt_sizeOf cls
      simp only [Shape.case.sizeOf_spec] at hk
      omega
    have hread := keyword_case hr h hlen rest
    have hhead : ∃ cs, (Shape.case o cls e).text.toList ++ rest = 'C' :: cs := by
      rw [Shape.text, Shape.caseText, String.append_assoc, String.append_assoc,
        String.append_assoc, String.toList_append, List.append_assoc]
      exact ⟨_, rfl⟩
    obtain ⟨cs, hcs⟩ := hhead
    rw [hcs] at hread ⊢
    rw [primary_keyword (.inl rfl), hread]
  | row first second more =>
    have hlen : more.length + 2 ≤ k := by
      have := Shape.length_lt_sizeOf more
      have := Shape.sizeOf_pos first
      have := Shape.sizeOf_pos second
      simp only [Shape.row.sizeOf_spec] at hk
      omega
    have hread := bracketed_row hfinds hlen rest
    have htext : (Shape.row first second more).text.toList ++ rest = '(' ::
        ((String.intercalate ", " (Shape.texts (first :: second :: more))).toList ++
          ')' :: rest) := by
      simp [Shape.text, Shape.listText, Shape.texts]
    rw [htext, primary, if_pos rfl, hread]
  | call name args =>
    have hlen : args.length ≤ k := by
      have := Shape.length_lt_sizeOf args
      simp only [Shape.call.sizeOf_spec] at hk
      omega
    have hread := named_call hr (show ∀ s ∈ args, Finds sub s.text s from hfinds) hlen name rest
    obtain ⟨c, cs, hcs, hc⟩ := exists_isNameStart name.plain
    rw [Shape.text, String.toList_append, hcs, List.cons_append, List.cons_append] at hread ⊢
    rw [primary_named (.inl hc), hread]
  | cast p type => exact absurd rfl (hc p type)

/-! ### Casts -/

theorem casts_of_closes (h : Closes rest) (k : Nat) (s : Shape) :
    casts k s rest = some (s, rest) := by
  cases k with
  | zero => rfl
  | succ k => rw [casts, h.noCast]

theorem casts_cast (hb : Breaks rest) (k : Nat) (s : Shape) (type : TypeName) :
    casts (k + 1) s ("::".toList ++ (type.text.toList ++ rest)) = casts k (.cast s type) rest := by
  simp only [casts, after?_append, typeWords_typeName type hb, String.ofList_toList, type.words,
    ↓reduceDIte]

/-- What stands in front of the casts is read first; reading on through the casts gives the whole
operand. -/
theorem exists_primary {s : Shape} {rest : List Char} (hr : Refuses sub)
    (h : ∀ p, sizeOf p < sizeOf s → Reads sub p)
    (hself : s.isBracketed = true → Finds sub s.text s) (hk : sizeOf s ≤ k) (hb : Breaks rest) :
    ∃ n p cs, n < sizeOf s ∧
      primary sub k ((s.asOperand s.text).toList ++ rest) = some (p, cs) ∧
      ∀ j, casts (j + n) p cs = casts j s rest := by
  have hpos := Shape.sizeOf_pos s
  by_cases hs : s.isBracketed = true
  · -- In brackets the whole shape stands in front of the casts that follow.
    refine ⟨0, s, rest, hpos, ?_, fun j => rfl⟩
    have hread := bracketed_reads (hself hs) (Nat.lt_of_lt_of_le hpos hk) rest
    have htext : ("(" ++ s.text ++ ")").toList ++ rest = '(' :: (s.text.toList ++ ')' :: rest) := by
      simp
    rw [Shape.asOperand, if_pos hs, htext, primary, if_pos rfl, hread]
  · rw [Shape.asOperand, if_neg hs]
    rw [Bool.not_eq_true] at hs
    by_cases hc : ∃ p type, s = .cast p type
    · -- A cast has the same beginning as its operand, and one cast more behind it.
      obtain ⟨p, type, rfl⟩ := hc
      have hlt : sizeOf p < sizeOf (Shape.cast p type) :=
        Shape.sizeOf_lt_of_mem_parts (List.mem_singleton_self p)
      obtain ⟨n, q, cs, hn, hprimary, hcasts⟩ := exists_primary hr
        (fun q hq => h q (Nat.lt_trans hq hlt)) (fun _ => (h p hlt).plain)
        (Nat.le_trans (Nat.le_of_lt hlt) hk) (breaks_cast (type.text.toList ++ rest))
      refine ⟨n + 1, q, cs, by omega, ?_, fun j => ?_⟩
      · rw [← hprimary, Shape.text]
        simp only [String.toList_append, List.append_assoc]
      · rw [← casts_cast hb, ← hcasts, Nat.add_assoc, Nat.add_comm n 1]
    · have hparts : ∀ p ∈ s.parts, Reads sub p := by
        intro p hp
        exact h p (Shape.sizeOf_lt_of_mem_parts hp)
      refine ⟨0, s, rest, hpos, ?_, fun j => rfl⟩
      exact primary_reads hr hparts hk hb hs fun p type hp => hc ⟨p, type, hp⟩
termination_by sizeOf s

/-- **An operand is read back**, with its casts and without brackets around it. -/
theorem operand_reads (hr : Refuses sub) (h : ∀ p, sizeOf p < sizeOf s → Reads sub p)
    (hself : s.isBracketed = true → Finds sub s.text s) (hk : sizeOf s ≤ k) (hclose : Closes rest) :
    operand sub k ((s.asOperand s.text).toList ++ rest) = some (s, rest) := by
  obtain ⟨n, p, cs, hn, hprimary, hcasts⟩ := exists_primary hr h hself hk hclose.toBreaks
  -- The casts within the operand use up `n` of the depth, and none follows the operand.
  have hfuel : k - n + n = k := by omega
  have hread := hcasts (k - n)
  rw [hfuel, casts_of_closes hclose] at hread
  simp only [operand, hprimary, hread, Option.bind_eq_bind, Option.bind_some]

/-- An operand below a bound is read back where everything below the bound is. -/
theorem operand_reads_of_lt (hr : Refuses sub) {n : Nat} (h : ∀ p, sizeOf p < n → Reads sub p)
    (hs : sizeOf s < n) (hk : n ≤ k) (hclose : Closes rest) :
    operand sub k ((s.asOperand s.text).toList ++ rest) = some (s, rest) := by
  have hbelow : ∀ p, sizeOf p < sizeOf s → Reads sub p := by
    intro p hp
    exact h p (Nat.lt_trans hp hs)
  have hself : s.isBracketed = true → Finds sub s.text s := by
    intro _
    exact (h s hs).plain
  exact operand_reads hr hbelow hself (Nat.le_trans (Nat.le_of_lt hs) hk) hclose

/-! ### Expressions -/

/-- Neither `NOT` nor a sign begins an operand, so where one is found, it is read first. -/
theorem expression_eq_joined {cs : List Char} (h : operand sub k cs ≠ none) :
    expression sub k cs = joined sub k cs := by
  have hnot : after? "NOT " cs = none := by
    cases hcs : after? "NOT " cs with
    | none => rfl
    | some more =>
      rw [← append_of_after? hcs] at h
      simp [operand, primary, isNameStart, keyword, after?, List.isPrefixOf?] at h
  have hsign : after? "-" cs = none := by
    cases hcs : after? "-" cs with
    | none => rfl
    | some more =>
      rw [← append_of_after? hcs] at h
      simp [operand, primary, isNameStart, keyword, after?, List.isPrefixOf?] at h
  rw [expression, hnot, hsign]

theorem refuses_read (k : Nat) : Refuses (read k) := by
  intro c hc cs
  -- None of these characters begins an operand, a negation or a negative number.
  cases k with
  | zero => rfl
  | succ k =>
    simp only [List.mem_cons, List.not_mem_nil, or_false] at hc
    rcases hc with rfl | rfl | rfl <;>
      simp [read, expression, joined, operand, primary, isNameStart, keyword, after?,
        List.isPrefixOf?]

/-- An operand that stands alone is read as an expression. -/
theorem expression_operand (hr : Refuses sub) (h : ∀ p, sizeOf p < sizeOf s → Reads sub p)
    (hself : s.isBracketed = true → Finds sub s.text s) (hk : sizeOf s ≤ k) :
    Finds (expression sub k) (s.asOperand s.text) s := by
  intro rest hend
  have hread := operand_reads hr h hself hk hend.toCloses
  rw [expression_eq_joined (by rw [hread]; exact Option.some_ne_none _), joined, hread]
  simp [hend.noConnective]

/-- Two operands that are joined are read as an expression. -/
theorem expression_join (hr : Refuses sub) {lhs rhs : Shape} (c : Connective) {n : Nat}
    (h : ∀ p, sizeOf p < n → Reads sub p) (hl : sizeOf lhs < n) (hrhs : sizeOf rhs < n)
    (hk : n ≤ k) :
    Finds (expression sub k) (lhs.asOperand lhs.text ++ c.text ++ rhs.asOperand rhs.text)
      (c.join lhs rhs) := by
  intro rest hend
  have htext : (lhs.asOperand lhs.text ++ c.text ++ rhs.asOperand rhs.text).toList ++ rest
      = (lhs.asOperand lhs.text).toList ++
        (c.text.toList ++ ((rhs.asOperand rhs.text).toList ++ rest)) := by
    simp only [String.toList_append, List.append_assoc]
  -- The left operand ends where the connective begins, the right one where the expression does.
  have hreadl := operand_reads_of_lt hr h hl hk
    (closes_connective c ((rhs.asOperand rhs.text).toList ++ rest))
  have hreadr := operand_reads_of_lt hr h hrhs hk hend.toCloses
  rw [htext, expression_eq_joined (by rw [hreadl]; exact Option.some_ne_none _), joined, hreadl]
  simp [connective_text, hreadr]

theorem expression_negative {n : Int} (hn : n < 0) :
    Finds (expression sub k) (Shape.number n).text (.number n) := by
  intro rest hend
  have hnot : ∀ more, after? "NOT " ('-' :: more) = none := by
    simp [after?, List.isPrefixOf?]
  have hsign : ∀ more, after? "-" ('-' :: more) = some more := by
    simp [after?, List.isPrefixOf?]
  have htext : (Shape.number n).text.toList ++ rest = '-' :: (decimal n.natAbs ++ rest) := by
    simp [Shape.text, signedDecimal, hn, decimalString]
  have hval : -(n.natAbs : Int) = n := by omega
  rw [htext, expression, hnot, hsign]
  simp only [readNatural_decimal _ hend.stopsAt_isDigit, hval]

/-- **An expression is read back** by a reader that reads back all smaller ones. -/
theorem expression_reads (hr : Refuses sub) (h : ∀ p, sizeOf p < sizeOf s → Reads sub p)
    (hk : sizeOf s ≤ k) : Finds (expression sub k) s.text s := by
  by_cases hs : s.isBracketed = true
  · -- What an operand needs brackets for is read here: a sign, a connective or a negation.
    cases s with
    | number n => exact expression_negative (by simpa [Shape.isBracketed] using hs)
    | binary op lhs rhs =>
      have hop : op ≠ .coalesce := by simpa [Shape.isBracketed] using hs
      have hl : sizeOf lhs < sizeOf (Shape.binary op lhs rhs) :=
        Shape.sizeOf_lt_of_mem_parts (by simp [Shape.parts])
      have hrhs : sizeOf rhs < sizeOf (Shape.binary op lhs rhs) :=
        Shape.sizeOf_lt_of_mem_parts (by simp [Shape.parts])
      have hread := expression_join hr (.operator op) h hl hrhs hk
      rw [Shape.text, Shape.binaryText, if_neg hop]
      simpa only [Connective.text, Connective.join, String.append_assoc] using hread
    | like ignoreCase subject pattern =>
      have hl : sizeOf subject < sizeOf (Shape.like ignoreCase subject pattern) :=
        Shape.sizeOf_lt_of_mem_parts (by simp [Shape.parts])
      have hrhs : sizeOf pattern < sizeOf (Shape.like ignoreCase subject pattern) :=
        Shape.sizeOf_lt_of_mem_parts (by simp [Shape.parts])
      exact expression_join hr (.like ignoreCase) h hl hrhs hk
    | not p =>
      intro rest hend
      have hlt : sizeOf p < sizeOf (Shape.not p) :=
        Shape.sizeOf_lt_of_mem_parts (List.mem_singleton_self p)
      have hread := operand_reads_of_lt hr h hlt hk hend.toCloses
      rw [Shape.text, String.toList_append, List.append_assoc, expression, after?_append]
      simp [hread]
    | _ => cases hs
  · have hread := expression_operand hr h (fun hb => absurd hb hs) hk
    rwa [Shape.asOperand, if_neg hs] at hread

/-- What a reader of bounded depth finds; brackets around an operand take one level more. -/
theorem read_finds (k : Nat) : ∀ s : Shape,
    (2 * sizeOf s < k → Finds (read k) s.text s) ∧
      (2 * sizeOf s + 1 < k → Finds (read k) (s.asOperand s.text) s) := by
  induction k with
  | zero =>
    intro s
    constructor
    · intro h
      omega
    · intro h
      omega
  | succ k ih =>
    intro s
    -- A level more reads the parts, and with brackets around them.
    have hbelow : 2 * sizeOf s < k + 1 → ∀ p, sizeOf p < sizeOf s → Reads (read k) p := by
      intro h p hp
      exact ⟨(ih p).1 (by omega), (ih p).2 (by omega)⟩
    constructor
    · intro h
      exact expression_reads (refuses_read k) (hbelow h) (by omega)
    · intro h
      exact expression_operand (refuses_read k) (hbelow (by omega)) (fun _ => (ih s).1 (by omega))
        (by omega)

/-- Shapes with one text are one shape. -/
theorem eq_of_text_eq {s t : Shape} (h : s.text = t.text) : s = t := by
  -- Both are read by one reader, deep enough for either.
  have hs := (read_finds (2 * sizeOf s + 2 * sizeOf t + 1) s).1 (by omega) [] ends_nil
  have ht := (read_finds (2 * sizeOf s + 2 * sizeOf t + 1) t).1 (by omega) [] ends_nil
  rw [h, ht] at hs
  exact (congrArg Prod.fst (Option.some.inj hs)).symm

/-- **Fragments can be read in only one way.**  Two expressions that are written alike have the
same shape. -/
theorem shape_eq_of_render_eq {a b : Expr} {s t : Shape} (ha : a.HasShape s) (hb : b.HasShape t)
    (h : a.render .postgresql = b.render .postgresql) : s = t := by
  rw [ha.render_eq, hb.render_eq] at h
  exact eq_of_text_eq (Except.ok.inj h)

/-- A negated test of a column against a number, as text. -/
def testedAsText (nullable : Bool) (n : FixedInt) (mapping : Mapping) : Expr :=
  .cast
    (.not
      (.binary .eq (.column { table := "", name := "a", type := mapping.type, nullable })
        (.constant (.int n) (some mapping)) none) none)
    .string (some Mapping.text)

/-- The shape of `testedAsText`. -/
def testedShape (n : FixedInt) : Shape :=
  .cast (.not (.binary .eq (.column "" "a") (.number n.val))) ⟨Mapping.text.storeType, by decide⟩

theorem hasShape_testedAsText (nullable : Bool) (n : FixedInt) {mapping : Mapping}
    (hk : mapping.kind = .scalar .integer) :
    (testedAsText nullable n mapping).HasShape (testedShape n) :=
  .cast (by decide) (.not none (.binary .eq none (.column _) (.number n hk)))

/-- Width and nullability do not show. -/
theorem shape_eq_of_render_eq_widths :
    let a := testedAsText true ⟨.i16, -1, by decide⟩ Mapping.smallint
    let b := testedAsText false ⟨.i64, -1, by decide⟩ Mapping.bigint
    let s := testedShape ⟨.i16, -1, by decide⟩
    let t := testedShape ⟨.i64, -1, by decide⟩
    a.HasShape s ∧ b.HasShape t ∧ a.render .postgresql = b.render .postgresql ∧ s = t := by
  intro a b s t
  have ha : a.HasShape s := hasShape_testedAsText true ⟨.i16, -1, by decide⟩ rfl
  have hb : b.HasShape t := hasShape_testedAsText false ⟨.i64, -1, by decide⟩ rfl
  have h : a.render .postgresql = b.render .postgresql := by rfl
  exact ⟨ha, hb, h, shape_eq_of_render_eq ha hb h⟩

end PgFragment.Reading
