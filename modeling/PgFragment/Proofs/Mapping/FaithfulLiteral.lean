import PgFragment.Proofs.Mapping.Built
import PgFragment.Proofs.Mapping.LeafLiteral

namespace PgFragment

/-!
# Literals lose nothing but leap seconds within a minute

Under the mappings that can be built from a catalog, a literal tells the value that it was written
for, however deep arrays, ranges and multiranges nest.  The one exception is a leap second within a
minute, which has the text of the second behind it.

* `Mapping.TellsApart` — the invariant: the literal tells the value as it is written, and where it ends
  when a delimiter follows.
* `Mapping.tellsApart` — the invariant carries over from the element to its containers.
* `Mapping.literal_asWritten` — the literal is that of the value as it is written.
* `Catalog.literal_eq_iff` — two values have one literal exactly when they are written alike.
-/

open Text ScalarKind

/-- The values made of single values of one variant: null, lists and the bounds of ranges nest. -/
inductive Value.MadeOf (leaf : Leaf) : Value → Prop
  | leaf {v : Value} (h : v.IsLeaf leaf) : MadeOf leaf v
  | null : MadeOf leaf .null
  | list {items : List Value} (h : ∀ v ∈ items, MadeOf leaf v) : MadeOf leaf (.list items)
  | bounds {lower upper : Value} (hl : MadeOf leaf lower) (hu : MadeOf leaf upper) :
      MadeOf leaf (.record [lower, upper])

namespace Mapping

/-- The kind of the scalars that a mapping's values are made of. -/
def innermost : Mapping → ScalarKind
  | .scalar kind _ => kind
  | .container _ element _ => element.innermost

variable {m element : Mapping} {params : Params} {kind : ScalarKind} {leaf : Leaf} {v w : Value}
  {a b : String} {r r' : List Char}

/-! ### Literals of values that are not null -/

theorem literal_scalar (hv : v.isNull = false) (h : (scalar kind params).literal v = .ok a) :
    kind.literal? v = some a := by
  rw [literal, hv] at h
  simp only [Bool.false_eq_true, ↓reduceIte] at h
  split at h
  · next text htext =>
    cases h
    exact htext
  · cases h

theorem literal_array (hv : v.isNull = false)
    (h : (container .array element params).literal v = .ok a) :
    ∃ (items : List Value) (texts : List String),
      v = .list items ∧ items.map element.literal = texts.map .ok ∧
      "ARRAY[" ++ String.intercalate "," texts ++ "]::" ++ params.fullStoreType = a := by
  cases v with
  | null => cases hv
  | list items =>
    simp only [literal, Value.isNull, Bool.false_eq_true, ↓reduceIte, Success.bind_eq_ok_iff,
      Success.mapM_eq_ok_iff, Except.ok.injEq] at h
    obtain ⟨texts, htexts, h⟩ := h
    exact ⟨items, texts, rfl, htexts, h⟩
  | _ => simp [literal, Value.isNull] at h

theorem literal_range (hv : v.isNull = false)
    (h : (container .range element params).literal v = .ok a) :
    ∃ (lower upper : Value) (l u : String),
      v = .record [lower, upper] ∧ element.literal lower = .ok l ∧ element.literal upper = .ok u ∧
      params.fullStoreType ++ "(" ++ l ++ ", " ++ u ++ ")" = a := by
  cases v with
  | null => cases hv
  | record fields =>
    match fields with
    | [lower, upper] =>
      simp only [literal, Value.isNull, Bool.false_eq_true, ↓reduceIte, Success.bind_eq_ok_iff,
        Except.ok.injEq] at h
      obtain ⟨l, hl, u, hu, h⟩ := h
      exact ⟨lower, upper, l, u, rfl, hl, hu, h⟩
    | [] | [_] | _ :: _ :: _ :: _ => simp [literal, Value.isNull] at h
  | _ => simp [literal, Value.isNull] at h

theorem literal_multirange (hv : v.isNull = false)
    (h : (container .multirange element params).literal v = .ok a) :
    ∃ (items : List Value) (texts : List String),
      v = .list items ∧ items.map element.literal = texts.map .ok ∧
      params.fullStoreType ++ "(" ++ String.intercalate ", " texts ++ ")" = a := by
  cases v with
  | null => cases hv
  | list items =>
    simp only [literal, Value.isNull, Bool.false_eq_true, ↓reduceIte, Success.bind_eq_ok_iff,
      Success.mapM_eq_ok_iff, Except.ok.injEq] at h
    obtain ⟨texts, htexts, h⟩ := h
    exact ⟨items, texts, rfl, htexts, h⟩
  | _ => simp [literal, Value.isNull] at h

/-- The invariant passes to the element. -/
theorem isWellNamed_element {shape : Container}
    (h : (container shape element params).isWellNamed = true) : element.isWellNamed = true := by
  cases shape with
  | array => exact (Bool.and_eq_true _ _ ▸ h).2
  | range | multirange => exact (Bool.and_eq_true _ _ ▸ h).2

/-! ### What the values are made of -/

theorem isLeaf_of_literal? (hv : v.MadeOf leaf) (hnull : v.isNull = false)
    (h : kind.literal? v = some a) : v.IsLeaf leaf := by
  cases hv with
  | leaf h => exact h
  | null => cases hnull
  | list => cases kind <;> cases h
  | bounds => cases kind <;> cases h

theorem madeOf_of_mem {items : List Value} (h : (Value.list items).MadeOf leaf) (hv : v ∈ items) :
    v.MadeOf leaf := by
  cases h with
  | leaf h => cases h
  | list h => exact h v hv

theorem madeOf_of_record {lower upper : Value} (h : (Value.record [lower, upper]).MadeOf leaf) :
    lower.MadeOf leaf ∧ upper.MadeOf leaf := by
  cases h with
  | leaf h => cases h
  | bounds hl hu => exact ⟨hl, hu⟩

/-! ### How a literal begins -/

/-- The store type that a range's literal begins with. -/
theorem opens_fullStoreType (hn : params.isNamed = true) (hf : params.form = .none) :
    Opens params.fullStoreType.toList := by
  obtain ⟨c, hc, cs, hcs⟩ := Params.isNamed_iff.1 hn
  have hfull : params.fullStoreType = params.storeType := by
    simp [Params.fullStoreType, Params.facets?, hf]
  rw [hfull]
  refine ⟨c, cs, hcs, ?_, ?_⟩
  · rintro rfl
    exact absurd hc (by decide)
  · cases hd : isDelimiter c with
    | false => rfl
    | true =>
      simp only [isDelimiter, Bool.or_eq_true, beq_iff_eq] at hd
      rcases hd with (rfl | rfl) | rfl <;> exact absurd hc (by decide)

/-- Only null's literal begins as null's does. -/
theorem opens_literal (hm : m.isWellNamed = true) (hk : m.innermost.keepsApart = true)
    (hv : v.MadeOf leaf) (hnull : v.isNull = false) (ha : m.literal v = .ok a) :
    Opens a.toList := by
  cases m with
  | scalar kind params =>
    have hlit := literal_scalar hnull ha
    exact opens_literal? hk (isLeaf_of_literal? hv hnull hlit) hlit
  | container shape element params =>
    cases shape with
    | array =>
      obtain ⟨items, texts, -, -, rfl⟩ := literal_array hnull ha
      exact opens_append (opens_append (opens_append ⟨'A', _, rfl, by decide, by decide⟩))
    | range =>
      simp only [isWellNamed, Bool.and_eq_true, beq_iff_eq] at hm
      obtain ⟨lower, upper, l, u, -, -, -, rfl⟩ := literal_range hnull ha
      simp only [String.append_assoc]
      exact opens_append (opens_fullStoreType hm.1.1 hm.1.2)
    | multirange =>
      simp only [isWellNamed, Bool.and_eq_true, beq_iff_eq] at hm
      obtain ⟨items, texts, -, -, rfl⟩ := literal_multirange hnull ha
      simp only [String.append_assoc]
      exact opens_append (opens_fullStoreType hm.1.1 hm.1.2)

/-- No literal begins with a delimiter. -/
theorem exists_head_literal (hm : m.isWellNamed = true) (hk : m.innermost.keepsApart = true)
    (hv : v.MadeOf leaf) (ha : m.literal v = .ok a) :
    ∃ c cs, a.toList = c :: cs ∧ isDelimiter c = false := by
  cases hnull : v.isNull with
  | true =>
    rw [literal_of_isNull hnull] at ha
    cases ha
    exact ⟨'N', "ULL".toList, rfl, by decide⟩
  | false =>
    obtain ⟨c, cs, hcs, -, hd⟩ := opens_literal hm hk hv hnull ha
    exact ⟨c, cs, hcs, hd⟩

/-! ### Lists of literals -/

/-- The literals of a mapping tell the values as they are written, and where they end when a delimiter
follows. -/
def TellsApart (m : Mapping) (leaf : Leaf) : Prop :=
  ∀ ⦃v w : Value⦄ ⦃a b : String⦄ ⦃r r' : List Char⦄, v.MadeOf leaf → w.MadeOf leaf →
    m.literal v = .ok a → m.literal w = .ok b → Delimited r → Delimited r' →
    a.toList ++ r = b.toList ++ r' → v.asWritten = w.asWritten ∧ r = r'

/-- What follows an item of a list: the closing bracket, or a separator and the items behind it. -/
def itemsTail (separator : String) (close : Char) (texts : List String) (r : List Char) :
    List Char :=
  if texts = [] then close :: r
  else separator.toList ++ ((String.intercalate separator texts).toList ++ close :: r)

theorem intercalate_cons_append (separator : String) (close : Char) (a : String)
    (texts : List String) (r : List Char) :
    (String.intercalate separator (a :: texts)).toList ++ close :: r
      = a.toList ++ itemsTail separator close texts r := by
  cases texts with
  | nil => simp [itemsTail]
  | cons b texts => simp [itemsTail]

variable {separator : String} {close : Char}

theorem delimited_itemsTail (hs : ∃ cs, separator.toList = ',' :: cs)
    (hc : isDelimiter close = true) (texts : List String) (r : List Char) :
    Delimited (itemsTail separator close texts r) := by
  obtain ⟨cs, hcs⟩ := hs
  unfold itemsTail
  split
  · exact stopsAt_cons (by simp [hc]) r
  · rw [hcs]
    exact stopsAt_cons (by decide) _

/-- A list that has items does not begin as one that is over. -/
theorem intercalate_append_ne_cons (hm : element.isWellNamed = true)
    (hk : element.innermost.keepsApart = true) (hv : v.MadeOf leaf) (ha : element.literal v = .ok a)
    (hc : isDelimiter close = true) (texts : List String) :
    (String.intercalate separator (a :: texts)).toList ++ close :: r ≠ close :: r' := by
  obtain ⟨c, cs, hcs, hd⟩ := exists_head_literal hm hk hv ha
  rw [intercalate_cons_append, hcs]
  rintro ⟨⟩
  rw [hc] at hd
  cases hd

/-- Behind an item both lists are over, or both go on: no closing bracket is a separator. -/
theorem itemsTail_inj (hs : ∃ cs, separator.toList = ',' :: cs) (hc : close ≠ ',')
    {as bs : List String}
    (h : itemsTail separator close as r = itemsTail separator close bs r') :
    (String.intercalate separator as).toList ++ close :: r
      = (String.intercalate separator bs).toList ++ close :: r' := by
  obtain ⟨cs, hcs⟩ := hs
  unfold itemsTail at h
  by_cases has : as = [] <;> by_cases hbs : bs = []
  · rw [if_pos has, if_pos hbs] at h
    rw [has, hbs, h]
  · rw [if_pos has, if_neg hbs, hcs] at h
    exact absurd (List.cons.inj h).1 hc
  · rw [if_neg has, if_pos hbs, hcs] at h
    exact absurd (List.cons.inj h).1.symm hc
  · rw [if_neg has, if_neg hbs] at h
    exact List.append_cancel_left h

/-- **A list of literals tells the values**, one after the other up to the closing bracket. -/
theorem items_append_inj (hm : element.isWellNamed = true)
    (hk : element.innermost.keepsApart = true) (he : element.TellsApart leaf)
    (hs : ∃ cs, separator.toList = ',' :: cs) (hc : close = ']' ∨ close = ')')
    {vs ws : List Value} {as bs : List String} (hv : ∀ v ∈ vs, v.MadeOf leaf)
    (hw : ∀ w ∈ ws, w.MadeOf leaf) (ha : vs.map element.literal = as.map .ok)
    (hb : ws.map element.literal = bs.map .ok)
    (h : (String.intercalate separator as).toList ++ close :: r
      = (String.intercalate separator bs).toList ++ close :: r') :
    vs.map Value.asWritten = ws.map Value.asWritten ∧ r = r' := by
  have hdelim : isDelimiter close = true := by rcases hc with rfl | rfl <;> decide
  have hcomma : close ≠ ',' := by rcases hc with rfl | rfl <;> decide
  induction vs generalizing ws as bs with
  | nil =>
    obtain rfl : as = [] := by simpa using ha.symm
    cases ws with
    | nil =>
      obtain rfl : bs = [] := by simpa using hb.symm
      exact ⟨rfl, List.tail_eq_of_cons_eq h⟩
    | cons w ws =>
      cases bs with
      | nil => cases hb
      | cons b bs =>
        have hlit := (List.cons.inj hb).1
        exact absurd h.symm
          (intercalate_append_ne_cons hm hk (hw w List.mem_cons_self) hlit hdelim bs)
  | cons v vs ih =>
    cases as with
    | nil => cases ha
    | cons a as =>
      obtain ⟨hva, hta⟩ := List.cons.inj ha
      have hvm := hv v List.mem_cons_self
      cases ws with
      | nil =>
        obtain rfl : bs = [] := by simpa using hb.symm
        exact absurd h (intercalate_append_ne_cons hm hk hvm hva hdelim as)
      | cons w ws =>
        cases bs with
        | nil => cases hb
        | cons b bs =>
          obtain ⟨hwb, htb⟩ := List.cons.inj hb
          -- The first items agree, and with them what follows.
          rw [intercalate_cons_append, intercalate_cons_append] at h
          obtain ⟨hhead, htail⟩ := he hvm (hw w List.mem_cons_self) hva hwb
            (delimited_itemsTail hs hdelim as r) (delimited_itemsTail hs hdelim bs r') h
          have hvs : ∀ u ∈ vs, u.MadeOf leaf := by
            intro u hu
            exact hv u (List.mem_cons_of_mem v hu)
          have hws : ∀ u ∈ ws, u.MadeOf leaf := by
            intro u hu
            exact hw u (List.mem_cons_of_mem w hu)
          obtain ⟨hitems, hrest⟩ := ih hvs hws hta htb (itemsTail_inj hs hcomma htail)
          rw [List.map_cons, List.map_cons, hhead, hitems]
          exact ⟨rfl, hrest⟩

/-! ### Values -/

/-- Null is told from all other values, so that it is enough to tell those apart. -/
theorem tellsApart_of_not_null (hm : m.isWellNamed = true) (hk : m.innermost.keepsApart = true)
    (key : ∀ {v w : Value} {a b : String} {r r' : List Char}, v.MadeOf leaf → w.MadeOf leaf →
      v.isNull = false → w.isNull = false → m.literal v = .ok a → m.literal w = .ok b →
      Delimited r → Delimited r' → a.toList ++ r = b.toList ++ r' →
      v.asWritten = w.asWritten ∧ r = r') :
    m.TellsApart leaf := by
  -- The literal of null begins with a letter that no other literal begins with.
  have hopen : ∀ {w b r r'}, w.MadeOf leaf → w.isNull = false → m.literal w = .ok b →
      "NULL".toList ++ r ≠ b.toList ++ r' := by
    intro w b r r' hw hnull hb h
    obtain ⟨c, cs, hcs, hn, -⟩ := opens_literal hm hk hw hnull hb
    rw [hcs] at h
    exact hn (List.cons.inj h).1.symm
  intro v w a b r r' hv hw ha hb hr hr' h
  cases hvn : v.isNull with
  | true =>
    obtain rfl := Value.isNull_iff.1 hvn
    obtain rfl : "NULL" = a := Except.ok.inj ((literal_of_isNull rfl m).symm.trans ha)
    cases hwn : w.isNull with
    | true =>
      obtain rfl := Value.isNull_iff.1 hwn
      obtain rfl : "NULL" = b := Except.ok.inj ((literal_of_isNull rfl m).symm.trans hb)
      exact ⟨rfl, List.append_cancel_left h⟩
    | false => exact absurd h (hopen hw hwn hb)
  | false =>
    cases hwn : w.isNull with
    | true =>
      obtain rfl := Value.isNull_iff.1 hwn
      obtain rfl : "NULL" = b := Except.ok.inj ((literal_of_isNull rfl m).symm.trans hb)
      exact absurd h.symm (hopen hv hvn ha)
    | false => exact key hv hw hvn hwn ha hb hr hr' h

/-- **Literals tell values as they are written apart**, whatever they nest, under every mapping that is
well named and whose innermost kind keeps single values apart. -/
theorem tellsApart (m : Mapping) (hm : m.isWellNamed = true) (hk : m.innermost.keepsApart = true)
    (leaf : Leaf) : m.TellsApart leaf := by
  induction m with
  | scalar kind params =>
    refine tellsApart_of_not_null hm hk ?_
    intro v w a b r r' hv hw hvn hwn ha hb hr hr' h
    -- Under a scalar mapping nothing but null and single values has a literal.
    have hav := literal_scalar hvn ha
    have hbw := literal_scalar hwn hb
    exact literal?_append_inj hk (isLeaf_of_literal? hv hvn hav) (isLeaf_of_literal? hw hwn hbw)
      hav hbw hr hr' h
  | container shape element params ih =>
    have hm' : element.isWellNamed = true := isWellNamed_element hm
    refine tellsApart_of_not_null hm hk ?_
    intro v w a b r r' hv hw hvn hwn ha hb hr hr' h
    cases shape with
    | array =>
      obtain ⟨vs, as, rfl, has, rfl⟩ := literal_array hvn ha
      obtain ⟨ws, bs, rfl, hbs, rfl⟩ := literal_array hwn hb
      simp only [String.toList_append, List.append_assoc] at h
      obtain ⟨hitems, hrest⟩ := items_append_inj hm' hk (ih hm' hk) ⟨[], rfl⟩ (.inl rfl)
        (fun _ => madeOf_of_mem hv) (fun _ => madeOf_of_mem hw) has hbs (List.append_cancel_left h)
      -- Behind the items both literals go on with one cast.
      have hcast : "::".toList ++ (params.fullStoreType.toList ++ r)
          = "::".toList ++ (params.fullStoreType.toList ++ r') := hrest
      rw [Value.asWritten_list, Value.asWritten_list, hitems]
      exact ⟨rfl, List.append_cancel_left (List.append_cancel_left hcast)⟩
    | range =>
      obtain ⟨lower, upper, l, u, rfl, hl, hu, rfl⟩ := literal_range hvn ha
      obtain ⟨lower', upper', l', u', rfl, hl', hu', rfl⟩ := literal_range hwn hb
      have hlower := madeOf_of_record hv
      have hupper := madeOf_of_record hw
      simp only [String.toList_append, List.append_assoc] at h
      -- The lower bound ends at the comma, the upper one at the bracket.
      have hcomma : ∀ more, Delimited (", ".toList ++ more) := by
        intro more
        exact stopsAt_cons (by decide) _
      have hclose : ∀ more, Delimited (")".toList ++ more) := by
        intro more
        exact stopsAt_cons (by decide) _
      obtain ⟨hfirst, h₁⟩ := ih hm' hk hlower.1 hupper.1 hl hl' (hcomma _) (hcomma _)
        (List.append_cancel_left (List.append_cancel_left h))
      obtain ⟨hsecond, h₂⟩ := ih hm' hk hlower.2 hupper.2 hu hu' (hclose _) (hclose _)
        (List.append_cancel_left h₁)
      simp only [Value.asWritten_record, List.map_cons, List.map_nil, hfirst, hsecond]
      exact ⟨trivial, List.append_cancel_left h₂⟩
    | multirange =>
      obtain ⟨vs, as, rfl, has, rfl⟩ := literal_multirange hvn ha
      obtain ⟨ws, bs, rfl, hbs, rfl⟩ := literal_multirange hwn hb
      simp only [String.toList_append, List.append_assoc] at h
      obtain ⟨hitems, hrest⟩ := items_append_inj hm' hk (ih hm' hk) ⟨[' '], rfl⟩ (.inr rfl)
        (fun _ => madeOf_of_mem hv) (fun _ => madeOf_of_mem hw) has hbs
        (List.append_cancel_left (List.append_cancel_left h))
      rw [Value.asWritten_list, Value.asWritten_list, hitems]
      exact ⟨rfl, hrest⟩

/-! ### Values as they are written -/

/-- Texts of several values are those of the values as they are written. -/
theorem map_literal_asWritten {items : List Value} {texts : List String}
    (hitem : ∀ {v a}, m.literal v = .ok a → m.literal v.asWritten = .ok a)
    (h : items.map m.literal = texts.map .ok) :
    (items.map Value.asWritten).map m.literal = texts.map .ok := by
  induction items generalizing texts with
  | nil => exact h
  | cons item items ih =>
    cases texts with
    | nil => cases h
    | cons text texts =>
      obtain ⟨htext, htexts⟩ := List.cons.inj h
      rw [List.map_cons, List.map_cons, hitem htext, ih htexts, List.map_cons]

/-- **A literal is that of the value as it is written.**  By induction on the mapping, since a container
writes its elements through the element's mapping. -/
theorem literal_asWritten (h : m.literal v = .ok a) : m.literal v.asWritten = .ok a := by
  induction m generalizing v a with
  | scalar kind params =>
    cases hnull : v.isNull with
    | true =>
      obtain rfl := Value.isNull_iff.1 hnull
      exact h
    | false =>
      have htext := (kind.literal?_asWritten v).trans (literal_scalar hnull h)
      exact literal_of_kind rfl (v.isNull_asWritten.trans hnull) htext
  | container shape element params ih =>
    cases hnull : v.isNull with
    | true =>
      obtain rfl := Value.isNull_iff.1 hnull
      exact h
    | false =>
      cases shape with
      | array =>
        obtain ⟨items, texts, rfl, htexts, rfl⟩ := literal_array hnull h
        simp only [Value.asWritten_list, literal, Value.isNull, Bool.false_eq_true, ↓reduceIte,
          Success.bind_eq_ok_iff, Success.mapM_eq_ok_iff, Except.ok.injEq]
        exact ⟨texts, map_literal_asWritten ih htexts, rfl⟩
      | range =>
        obtain ⟨lower, upper, l, u, rfl, hl, hu, rfl⟩ := literal_range hnull h
        simp only [Value.asWritten_record, List.map_cons, List.map_nil, literal, Value.isNull,
          Bool.false_eq_true, ↓reduceIte, Success.bind_eq_ok_iff, Except.ok.injEq]
        exact ⟨l, ih hl, u, ih hu, rfl⟩
      | multirange =>
        obtain ⟨items, texts, rfl, htexts, rfl⟩ := literal_multirange hnull h
        simp only [Value.asWritten_list, literal, Value.isNull, Bool.false_eq_true, ↓reduceIte,
          Success.bind_eq_ok_iff, Success.mapM_eq_ok_iff, Except.ok.injEq]
        exact ⟨texts, map_literal_asWritten ih htexts, rfl⟩

end Mapping

namespace Catalog

/-- **Literals lose nothing but leap seconds within a minute.**  Take a mapping of a catalog, or one
built from such at any depth, and two values that have a literal under it, whose single values are of
one variant and whose innermost kind keeps those apart.  They have one literal exactly when they are
written alike; so they are equal if no leap second in them stands within a minute. -/
theorem literal_eq_iff {catalog : Catalog}
    (henums : ∀ name ∈ catalog.enums, isLowerName name = true) {m : Mapping}
    (hm : catalog.Built m) (hk : m.innermost.keepsApart = true) {leaf : Leaf} {v w : Value}
    (hv : v.MadeOf leaf) (hw : w.MadeOf leaf) {text text' : String} (h : m.literal v = .ok text)
    (h' : m.literal w = .ok text') :
    (text = text' ↔ v.asWritten = w.asWritten) ∧
      (v.leapsMidMinute = false → w.leapsMidMinute = false → text = text' → v = w) := by
  have hiff : text = text' ↔ v.asWritten = w.asWritten := by
    constructor
    · -- Both literals end with the text, so nothing follows either of them.
      rintro rfl
      have hnil : Delimited [] := by simp [Delimited, StopsAt]
      exact (Mapping.tellsApart m (hm.isWellNamed henums) hk leaf hv hw h h' hnil hnil rfl).1
    · -- Either literal is that of the one value which both are written as.
      intro hwritten
      have htext := Mapping.literal_asWritten h
      rw [hwritten, Mapping.literal_asWritten h'] at htext
      exact (Except.ok.inj htext).symm
  refine ⟨hiff, fun hlv hlw htext => ?_⟩
  have hwritten := hiff.1 htext
  rwa [Value.asWritten_eq_self hlv, Value.asWritten_eq_self hlw] at hwritten

/-! ### A leap second on two clocks -/

/-- The leap second of June 2015, on a clock that is three hours, forty minutes and thirty-six seconds
behind universal time. -/
def leapWithinMinute : Value :=
  .dateTime {
    date := ⟨2015, 6, 30, by decide, by decide⟩
    time := ⟨20, 19, 23, 1000000000, by decide, by decide⟩ }

/-- The second behind it on that clock. -/
def behindLeap : Value :=
  .dateTime {
    date := ⟨2015, 6, 30, by decide, by decide⟩
    time := ⟨20, 19, 24, 0, by decide, by decide⟩ }

/-- Half of the leap second of December 2016 in universal time. -/
def leapAtMidnight : Value :=
  .dateTime {
    date := ⟨2016, 12, 31, by decide, by decide⟩
    time := ⟨23, 59, 59, 1500000000, by decide, by decide⟩ }

/-- A range from a value on, without an end. -/
def openEnded (start : Value) : Value := .record [start, .null]

/-- A catalog with multiranges and an enumeration. -/
def moods : Catalog := ⟨true, ["mood"]⟩

/-- The multirange of timestamps in `moods`. -/
def timestampMultirange : Mapping := moods.multirangeOf (.rangeOver .timestamp "tsrange")

/-- Lists of ranges from before a leap second on, which is within a minute in the first one and not in
the others. -/
theorem literal_eq_iff_leapSeconds :
    let text := "tsmultirange(tsrange(TIMESTAMP '2015-06-30 20:19:24', NULL), " ++
      "tsrange(TIMESTAMP '2016-12-31 23:59:60.500', NULL))"
    let leap := Value.list [openEnded leapWithinMinute, openEnded leapAtMidnight]
    let behind := Value.list [openEnded behindLeap, openEnded leapAtMidnight]
    let turned := Value.list ([leapAtMidnight, behindLeap].reverse.map openEnded)
    (∀ name ∈ moods.enums, isLowerName name = true) ∧ moods.Built timestampMultirange ∧
      timestampMultirange.innermost.keepsApart = true ∧ leap.MadeOf .dateTime ∧
      behind.MadeOf .dateTime ∧ turned.MadeOf .dateTime ∧
      timestampMultirange.literal leap = .ok text ∧
      timestampMultirange.literal behind = .ok text ∧
      timestampMultirange.literal turned = .ok text ∧
      leap.asWritten = behind.asWritten ∧ behind.leapsMidMinute = false ∧
      turned.leapsMidMinute = false ∧ behind = turned := by
  intro text leap behind turned
  have henums : ∀ name ∈ moods.enums, isLowerName name = true := by decide
  have hm : moods.Built timestampMultirange :=
    .multirangeOf (.byType (rfl : moods.findByType (.range (.scalar .dateTime)) = some _))
  have hk : timestampMultirange.innermost.keepsApart = true := by cbv
  have hopen : ∀ t, (openEnded (.dateTime t)).MadeOf .dateTime :=
    fun t => .bounds (.leaf (.dateTime t)) .null
  have hleap : leap.MadeOf .dateTime := .list (by simp [leapWithinMinute, leapAtMidnight, hopen])
  have hbehind : behind.MadeOf .dateTime := .list (by simp [behindLeap, leapAtMidnight, hopen])
  have hturned : turned.MadeOf .dateTime := .list (by simp [behindLeap, leapAtMidnight, hopen])
  have htleap : timestampMultirange.literal leap = .ok text := by cbv
  have htbehind : timestampMultirange.literal behind = .ok text := by cbv
  have htturned : timestampMultirange.literal turned = .ok text := by cbv
  obtain ⟨hwritten, -⟩ := literal_eq_iff henums hm hk hleap hbehind htleap htbehind
  obtain ⟨-, hself⟩ := literal_eq_iff henums hm hk hbehind hturned htbehind htturned
  exact ⟨henums, hm, hk, hleap, hbehind, hturned, htleap, htbehind, htturned, hwritten.1 rfl, rfl, rfl,
    hself rfl rfl rfl⟩

/-- A leap second within a minute and the second behind it are two values with one literal. -/
theorem literal_leapWithinMinute :
    (∀ name ∈ moods.enums, isLowerName name = true) ∧ moods.Built .timestamp ∧
      Mapping.timestamp.innermost.keepsApart = true ∧ leapWithinMinute.MadeOf .dateTime ∧
      behindLeap.MadeOf .dateTime ∧
      Mapping.timestamp.literal leapWithinMinute = .ok "TIMESTAMP '2015-06-30 20:19:24'" ∧
      Mapping.timestamp.literal behindLeap = .ok "TIMESTAMP '2015-06-30 20:19:24'" ∧
      leapWithinMinute ≠ behindLeap := by
  have hm : moods.Built .timestamp :=
    .byType (rfl : moods.findByType (.scalar .dateTime) = some _)
  have hne : leapWithinMinute ≠ behindLeap := fun h => absurd (Value.dateTime.inj h) (by decide)
  exact ⟨by decide, hm, rfl, .leaf (.dateTime _), .leaf (.dateTime _), by cbv, by cbv, hne⟩

end Catalog

end PgFragment
