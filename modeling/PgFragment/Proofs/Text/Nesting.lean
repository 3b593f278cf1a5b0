import PgFragment.Proofs.Text.Runs

namespace PgFragment.Text

/-!
# Nesting

A scan of SQL text from left to right that keeps track of quotes, of brackets and of `CASE` and
`END`, which nest like brackets.  It fails at an arrow, `->` or `->>`, that stands at the outermost
level, and at what closes a level that was not opened.

* `Closed` — the scan goes through the text at every level, the outermost included, and comes out
  at the level it went in.
* `Nested` — it does so within brackets, where arrows may stand.
* `Closed.append_inj_arrow` — the first arrow at the outermost level ends a closed text, so that
  what stands in front of it is told.
-/

/-! ### The scan -/

/-- What the last character may be the beginning of. -/
inductive Lead where
  | nothing
  /-- A hyphen, as in an arrow. -/
  | hyphen
  /-- The `A` of `CASE`. -/
  | a
  /-- The `N` of `END`, which is not that of `AND`. -/
  | n
  deriving DecidableEq

/-- What a further character may be the beginning of. -/
def Lead.next (lead : Lead) (c : Char) : Lead :=
  if c = '-' then .hyphen
  else if c = 'A' then .a
  else if c = 'N' ∧ lead ≠ .a then .n
  else .nothing

/-- The state of a scan: the mark of the quote it is in, the lead and the level. -/
structure Scan where
  mark : Option Char
  lead : Lead
  level : Nat

namespace Scan

/-- The scan outside of quotes and words. -/
def atLevel (level : Nat) : Scan := ⟨none, .nothing, level⟩

/-- The scan within a quote. -/
def inQuote (mark : Char) (level : Nat) : Scan := ⟨some mark, .nothing, level⟩

/-- One level closed, if one was opened. -/
def close : Nat → Option Scan
  | 0 => none
  | level + 1 => some (atLevel level)

/-- The scan of one character.  A doubled mark within a quote closes the quote and opens it
again. -/
def step (s : Scan) (c : Char) : Option Scan :=
  match s.mark with
  | some mark => some { s with mark := if c = mark then none else some mark }
  | none =>
    if s.lead = .hyphen ∧ c = '>' then if s.level = 0 then none else some (atLevel s.level)
    else if (s.lead = .a ∧ c = 'S') ∨ c = '(' ∨ c = '[' then some (atLevel (s.level + 1))
    else if (s.lead = .n ∧ c = 'D') ∨ c = ')' ∨ c = ']' then close s.level
    else if c = '\x27' ∨ c = '"' then some (inQuote c s.level)
    else some { s with lead := s.lead.next c }

/-- The scan of a text. -/
def run (s : Scan) (t : String) : Option Scan := t.toList.foldlM step s

variable {s s' : Scan} {t u : String} {level : Nat}

theorem run_append (h : s.run t = some s') (u : String) : s.run (t ++ u) = s'.run u := by
  unfold run at h ⊢
  rw [String.toList_append, List.foldlM_append, h]
  rfl

theorem run_empty (s : Scan) : s.run "" = some s := rfl

end Scan

/-! ### Closed and nested texts -/

/-- The scan comes out of the text at the level at which it goes in, the outermost one included. A
closed text does not begin with the end of an arrow either. -/
structure Closed (t : String) : Prop where
  run_eq : ∀ level, (Scan.atLevel level).run t = some (Scan.atLevel level)
  head?_ne : t.toList.head? ≠ some '>'

/-- The scan comes out of the text at the level at which it goes in, within brackets. -/
def Nested (t : String) : Prop :=
  ∀ level, (Scan.atLevel (level + 1)).run t = some (Scan.atLevel (level + 1))

variable {s t u : String}

theorem Closed.nested (h : Closed t) : Nested t := fun level => h.run_eq (level + 1)

theorem Closed.empty : Closed "" where
  run_eq level := Scan.run_empty (.atLevel level)
  head?_ne := by decide

theorem Closed.append (ht : Closed t) (hu : Closed u) : Closed (t ++ u) where
  run_eq level := by rw [Scan.run_append (ht.run_eq level), hu.run_eq level]
  head?_ne := by
    have hne := ht.head?_ne
    rw [String.toList_append, List.head?_append]
    cases h : t.toList.head? with
    | none => exact hu.head?_ne
    | some c => rwa [h] at hne

theorem Nested.append (ht : Nested t) (hu : Nested u) : Nested (t ++ u) := by
  intro level
  rw [Scan.run_append (ht level), hu level]

/-- What opens a level, a nested text and what closes the level. -/
theorem Nested.between (ht : Nested t) (opening closing : String) {c : Char} {cs : List Char}
    (hopening : ∀ level, (Scan.atLevel level).run opening = some (Scan.atLevel (level + 1)))
    (hhead : opening.toList = c :: cs) (hne : c ≠ '>')
    (hclosing : ∀ level, (Scan.atLevel (level + 1)).run closing = some (Scan.atLevel level)) :
    Closed (opening ++ t ++ closing) where
  run_eq level := by
    rw [String.append_assoc, Scan.run_append (hopening level), Scan.run_append (ht level),
      hclosing level]
  head?_ne := by
    rw [String.toList_append, String.toList_append, hhead, List.cons_append, List.cons_append,
      List.head?_cons]
    simpa using hne

theorem Nested.parenthesized (ht : Nested t) : Closed ("(" ++ t ++ ")") :=
  ht.between "(" ")" (fun _ => rfl) rfl (by decide) fun _ => rfl

theorem Nested.caseEnd (ht : Nested t) : Closed ("CASE" ++ t ++ " END") :=
  ht.between "CASE" " END" (fun _ => rfl) rfl (by decide) fun _ => rfl

/-- A name in front of brackets. -/
theorem Nested.applied (hs : Closed s) (ht : Nested t) : Closed (s ++ "(" ++ t ++ ")") := by
  have h := hs.append ht.parenthesized
  rwa [← String.append_assoc, ← String.append_assoc] at h

/-! ### Lists -/

theorem Nested.join {ts : List String} (h : ∀ t ∈ ts, Nested t) : Nested (String.join ts) := by
  induction ts with
  | nil => exact Closed.empty.nested
  | cons t ts ih =>
    rw [String.join_cons]
    exact (h t List.mem_cons_self).append (ih fun u hu => h u (List.mem_cons_of_mem t hu))

theorem Nested.intercalate {ts : List String} (hs : Nested s) (h : ∀ t ∈ ts, Nested t) :
    Nested (String.intercalate s ts) := by
  induction ts with
  | nil => exact Closed.empty.nested
  | cons t ts ih =>
    have ht := h t List.mem_cons_self
    cases ts with
    | nil => exact ht
    | cons u ts =>
      rw [String.intercalate_cons_cons]
      exact (ht.append hs).append (ih fun v hv => h v (List.mem_cons_of_mem t hv))

theorem Nested.commaSeparated {ts : List String} (h : ∀ t ∈ ts, Nested t) :
    Nested (String.intercalate ", " ts) := by
  refine Nested.intercalate ?_ h
  exact fun _ => rfl

/-! ### Characters without a meaning -/

/-- The characters that open or close something, or are part of an arrow or of a word that does. -/
def activeChars : List Char :=
  ['\x27', '"', '(', ')', '[', ']', '-', '>', 'A', 'N', 'S', 'D']

/-- The character means nothing to the scan. -/
def isCalm (c : Char) : Bool := c ∉ activeChars

/-- The characters all mean nothing to the scan. -/
def IsCalm (cs : List Char) : Prop := ∀ c ∈ cs, isCalm c = true

instance (cs : List Char) : Decidable (IsCalm cs) :=
  decidable_of_iff (cs.all isCalm = true) List.all_eq_true

theorem isCalm_of_isNamePart {c : Char} (h : isNamePart c = true) : isCalm c = true := by
  have hnone : activeChars.all (!isNamePart ·) = true := by decide
  rw [isCalm, decide_eq_true_eq]
  intro hc
  have hpart := List.all_eq_true.1 hnone c hc
  rw [h] at hpart
  cases hpart

theorem isCalm_of_isDigit {c : Char} (h : c.isDigit = true) : isCalm c = true := by
  refine isCalm_of_isNamePart ?_
  rw [isNamePart, h, Bool.or_true]

section

variable {cs ds : List Char}

theorem IsCalm.append (hc : IsCalm cs) (hd : IsCalm ds) : IsCalm (cs ++ ds) := by
  intro c h
  rcases List.mem_append.1 h with h | h
  · exact hc c h
  · exact hd c h

theorem IsCalm.of_append_left (h : IsCalm (cs ++ ds)) : IsCalm cs :=
  fun c hc => h c (List.mem_append_left ds hc)

theorem IsCalm.of_append_right (h : IsCalm (cs ++ ds)) : IsCalm ds :=
  fun c hc => h c (List.mem_append_right cs hc)

/-- Calm texts with something calm between them. -/
theorem IsCalm.intercalate {texts : List (List Char)} (hc : IsCalm cs)
    (h : ∀ text ∈ texts, IsCalm text) : IsCalm (cs.intercalate texts) := by
  induction texts with
  | nil => exact List.forall_mem_nil _
  | cons text texts ih =>
    obtain ⟨htext, htexts⟩ := List.forall_mem_cons.1 h
    cases texts with
    | nil => simpa [List.intercalate] using htext
    | cons next texts =>
      rw [List.intercalate_cons_cons]
      exact (htext.append hc).append (ih htexts)

end

/-- A calm character ends whatever the one before it may have begun. -/
theorem Scan.step_of_isCalm {c : Char} (h : isCalm c = true) (lead : Lead) (level : Nat) :
    Scan.step ⟨none, lead, level⟩ c = some (Scan.atLevel level) := by
  simp only [isCalm, activeChars, decide_eq_true_eq, List.mem_cons, List.not_mem_nil, or_false,
    not_or] at h
  obtain ⟨hquote, hdouble, hopen, hclose, hopen', hclose', hhyphen, hgreater, ha, hn, hs, hd⟩ := h
  simp [step, Lead.next, atLevel, *]

/-- Calm characters, one at least, end whatever the one before them may have begun. -/
theorem Scan.foldlM_of_isCalm {cs : List Char} (hne : cs ≠ []) (h : IsCalm cs) (lead : Lead)
    (level : Nat) :
    cs.foldlM Scan.step ⟨none, lead, level⟩ = some (Scan.atLevel level) := by
  induction cs generalizing lead with
  | nil => exact absurd rfl hne
  | cons c cs ih =>
    rw [List.foldlM_cons, step_of_isCalm (h c List.mem_cons_self)]
    show cs.foldlM Scan.step (Scan.atLevel level) = some (Scan.atLevel level)
    by_cases hcs : cs = []
    · rw [hcs]
      rfl
    · exact ih hcs (fun d hd => h d (List.mem_cons_of_mem c hd)) .nothing

/-- A text of calm characters is closed. -/
theorem Closed.of_isCalm (h : IsCalm t.toList) : Closed t where
  run_eq level := by
    by_cases hne : t.toList = []
    · rw [Scan.run, hne]
      rfl
    · exact Scan.foldlM_of_isCalm hne h .nothing level
  head?_ne := by
    intro hhead
    exact absurd (h '>' (List.mem_of_mem_head? hhead)) (by decide)

theorem IsCalm.closed {cs : List Char} (h : IsCalm cs) : Closed (String.ofList cs) :=
  Closed.of_isCalm (by rwa [String.toList_ofList])

/-- So is one with a hyphen in front that does not stand alone. -/
theorem Closed.hyphen (hne : t ≠ "") (h : IsCalm t.toList) : Closed ("-" ++ t) where
  run_eq level := by
    have hrun : (Scan.atLevel level).run "-" = some ⟨none, .hyphen, level⟩ := rfl
    rw [Scan.run_append hrun]
    exact Scan.foldlM_of_isCalm (by simpa using hne) h .hyphen level
  head?_ne := by
    rw [String.toList_append]
    exact (by decide : some '-' ≠ some '>')

/-! ### Quotes -/

/-- Within a quote nothing means anything but its mark, and a doubled mark leaves the scan in the
quote. -/
theorem Scan.foldlM_doubled {mark : Char} (hmark : mark = '\x27' ∨ mark = '"') (cs : List Char)
    (level : Nat) :
    (doubled mark cs).foldlM Scan.step (Scan.inQuote mark level)
      = some (Scan.inQuote mark level) := by
  induction cs with
  | nil => rfl
  | cons c cs ih =>
    by_cases hc : c = mark
    · have hclose : Scan.step (Scan.inQuote mark level) mark = some (Scan.atLevel level) := by
        simp only [step, inQuote, if_pos, atLevel]
      have hopen : Scan.step (Scan.atLevel level) mark = some (Scan.inQuote mark level) := by
        rcases hmark with rfl | rfl <;> rfl
      rw [doubled, if_pos hc, List.foldlM_cons, hclose]
      show (mark :: doubled mark cs).foldlM Scan.step (Scan.atLevel level) = _
      rw [List.foldlM_cons, hopen]
      exact ih
    · have hstep : Scan.step (Scan.inQuote mark level) c = some (Scan.inQuote mark level) := by
        simp only [step, inQuote, if_neg hc]
      rw [doubled, if_neg hc, List.foldlM_cons, hstep]
      exact ih

/-- **Quoted text is closed**, whatever it is. -/
theorem Closed.quotedString {mark : Char} (hmark : mark = '\x27' ∨ mark = '"') (s : String) :
    Closed (quotedString mark s) where
  run_eq level := by
    have hopen : Scan.step (Scan.atLevel level) mark = some (Scan.inQuote mark level) := by
      rcases hmark with rfl | rfl <;> rfl
    have hclose : Scan.step (Scan.inQuote mark level) mark = some (Scan.atLevel level) := by
      simp only [Scan.step, Scan.inQuote, if_pos, Scan.atLevel]
    rw [Scan.run, Text.quotedString, String.toList_ofList, quoted, List.foldlM_cons, hopen]
    show (doubled mark s.toList ++ [mark]).foldlM Scan.step (Scan.inQuote mark level) = _
    rw [List.foldlM_append, Scan.foldlM_doubled hmark]
    show [mark].foldlM Scan.step (Scan.inQuote mark level) = _
    rw [List.foldlM_cons, hclose]
    rfl
  head?_ne := by
    rw [Text.quotedString, String.toList_ofList, quoted, List.head?_cons]
    rcases hmark with rfl | rfl <;> decide

theorem doubled_eq_self {mark : Char} {cs : List Char} (h : mark ∉ cs) : doubled mark cs = cs := by
  induction cs with
  | nil => rfl
  | cons c cs ih =>
    rw [List.mem_cons, not_or] at h
    rw [doubled, if_neg (Ne.symm h.1), ih h.2]

/-- So is text without a quote between two. -/
theorem Closed.quote {cs : List Char} (h : '\x27' ∉ cs) :
    Closed ("'" ++ String.ofList cs ++ "'") := by
  have heq : "'" ++ String.ofList cs ++ "'" = Text.quotedString '\x27' (String.ofList cs) := by
    rw [Text.quotedString, quoted, String.toList_ofList, doubled_eq_self h]
    apply String.toList_inj.1
    simp
  rw [heq]
  exact Closed.quotedString (.inl rfl) _

/-! ### Names -/

theorem Closed.of_isLowerName {name : String} (h : isLowerName name = true) : Closed name := by
  refine Closed.of_isCalm ?_
  intro c hc
  exact isCalm_of_isNamePart (isNamePart_of_mem h hc)

/-- An identifier is closed, bare or quoted. -/
theorem Closed.identifier (name : String) : Closed (identifier name) := by
  unfold Text.identifier
  split
  · next h => exact Closed.of_isLowerName (Bool.and_eq_true _ _ ▸ h).1
  · exact Closed.quotedString (.inr rfl) name

/-! ### Arrows -/

/-- The text is over or goes on with an arrow. -/
def AtArrow (t : String) : Prop := t = "" ∨ ∃ u, t = "->" ++ u

/-- The scan of a beginning of an arrow does not come out where it went in. -/
theorem AtArrow.eq_nil {r : String} (hr : AtArrow r) {cs rest : List Char}
    (h : r.toList = cs ++ rest)
    (hscan : cs.foldlM Scan.step (Scan.atLevel 0) = some (Scan.atLevel 0)) : cs = [] := by
  rcases hr with rfl | ⟨u, rfl⟩
  · exact (List.append_eq_nil_iff.1 h.symm).1
  · have harrow : "->".toList = ['-', '>'] := rfl
    rw [String.toList_append, harrow] at h
    match cs, h with
    | [], _ => rfl
    | [c], h =>
      -- Half an arrow leaves a lead.
      obtain rfl : '-' = c := (List.cons.inj h).1
      cases hscan
    | c :: d :: cs, h =>
      -- A whole one makes the scan fail.
      simp only [List.cons_append, List.nil_append, List.cons.injEq] at h
      obtain ⟨rfl, rfl, -⟩ := h
      cases hscan

/-- **The first arrow at the outermost level ends a closed text.** -/
theorem Closed.append_inj_arrow {s s' r r' : String} (hs : Closed s) (hs' : Closed s')
    (hr : AtArrow r) (hr' : AtArrow r') (h : s ++ r = s' ++ r') : s = s' ∧ r = r' := by
  -- What one of the two has more than the other is scanned alone, from where the other ends.
  have hscan : ∀ {s s' : String} {cs : List Char}, Closed s → Closed s' →
      s'.toList = s.toList ++ cs →
      cs.foldlM Scan.step (Scan.atLevel 0) = some (Scan.atLevel 0) := by
    intro s s' cs hs hs' heq
    have hrun := hs'.run_eq 0
    have hfirst : s.toList.foldlM Scan.step (Scan.atLevel 0) = some (Scan.atLevel 0) :=
      hs.run_eq 0
    rw [Scan.run, heq, List.foldlM_append, hfirst] at hrun
    exact hrun
  have hlist : s.toList ++ r.toList = s'.toList ++ r'.toList := by
    rw [← String.toList_append, h, String.toList_append]
  rcases List.append_eq_append_iff.1 hlist with ⟨cs, heq, hrest⟩ | ⟨cs, heq, hrest⟩
  · obtain rfl := hr.eq_nil hrest (hscan hs hs' heq)
    rw [List.append_nil] at heq
    exact ⟨String.toList_inj.1 heq.symm, String.toList_inj.1 hrest⟩
  · obtain rfl := hr'.eq_nil hrest (hscan hs' hs heq)
    rw [List.append_nil] at heq
    exact ⟨String.toList_inj.1 heq, String.toList_inj.1 hrest.symm⟩

end PgFragment.Text
