import PgFragment.Proofs.Mapping.Built
import PgFragment.Proofs.Rule.FirstRefusal

namespace PgFragment

/-!
# The order of the rules for members

The first rule that takes a call settles it, so that the order of the rules matters only between
rules that take the same call.  Among the rules for members these are the rule for documents and the
one for the lengths of strings, apart from strings that are stored as arrays.

* `Registry.takers_of_members` — which of the rules for members can take an access.
* `Registry.lower_eq_members_iff` — the rules for members may be asked in any order in which
  documents come before strings, and in no other.
-/

/-! ### What the rules for members take -/

/-- What a member tells of a value. -/
inductive Topic where
  | size
  | property
  | dateTime
  | timeSpan
  deriving DecidableEq

/-- What a member is about. -/
def Member.topic : Member → Topic
  | .length | .count => .size
  | .datePart _ | .date => .dateTime
  | .spanPart _ => .timeSpan
  | .property _ => .property

/-- The access is not to a member of a string that is stored as an array. -/
def MemberAccess.IsPlain (access : MemberAccess) : Prop :=
  ∀ e ∈ access.instance?, e.type = .string → ∀ m ∈ e.mapping, m.kind.isArray = false

variable {catalog : Catalog} {options : Options} {access : MemberAccess} {redshift : Bool}

namespace Rule

theorem of_takes_arrayLength (h : (arrayLength catalog redshift).Takes access) :
    access.member.topic = .size ∧ ∃ e ∈ access.instance?, e.isStoredArray = true := by
  obtain ⟨length, h⟩ := h
  unfold arrayLength at h
  dsimp only at h
  split at h
  · next e hinstance hmember =>
    split at h
    · next harray => exact ⟨by rw [hmember]; rfl, e, hinstance, harray⟩
    · cases h
  · next e hinstance hmember =>
    split at h
    · next harray => exact ⟨by rw [hmember]; rfl, e, hinstance, harray⟩
    · cases h
  · cases h

theorem of_takes_dateTimeParts (h : (dateTimeParts catalog).Takes access) :
    access.member.topic = .dateTime := by
  obtain ⟨part, h⟩ := h
  unfold dateTimeParts at h
  dsimp only at h
  split at h
  · split at h
    · split at h
      · next hmember => rw [hmember]; rfl
      · next hmember => rw [hmember]; rfl
      · cases h
    · cases h
  · cases h

theorem of_takes_document (h : (document catalog).Takes access) :
    (access.member.topic = .size ∨ access.member.topic = .property) ∧
      ∃ e ∈ access.instance?, ∃ m, e.mapping = some m ∧ m.kind.isJson = true := by
  obtain ⟨found, h⟩ := h
  unfold document at h
  dsimp only at h
  split at h
  · cases h
  · next e hinstance =>
    split at h
    · cases h
    · next m hm =>
      split at h
      · next hjson =>
        refine ⟨?_, e, hinstance, m, hm, hjson⟩
        split at h
        · next hmember => exact .inr (by rw [hmember]; rfl)
        · next hmember => exact .inl (by rw [hmember]; rfl)
        · next hmember => exact .inl (by rw [hmember]; rfl)
        · cases h
      · cases h

theorem of_takes_stringLength (h : (stringLength catalog).Takes access) :
    access.member.topic = .size ∧ ∃ e ∈ access.instance?, e.type = .string := by
  obtain ⟨length, h⟩ := h
  unfold stringLength at h
  dsimp only at h
  split at h
  · next e hinstance hmember =>
    split at h
    · next hstring => exact ⟨by rw [hmember]; rfl, e, hinstance, hstring⟩
    · cases h
  · cases h

theorem of_takes_timeSpanParts (h : (timeSpanParts catalog).Takes access) :
    access.member.topic = .timeSpan := by
  obtain ⟨part, h⟩ := h
  unfold timeSpanParts at h
  dsimp only at h
  split at h
  · next hmember => rw [hmember]; rfl
  · cases h

/-- Documents are not stored as arrays. -/
theorem not_takes_document_of_array (h : (arrayLength catalog redshift).Takes access) :
    ¬(document catalog).Takes access := by
  intro hdocument
  obtain ⟨-, e, he, harray⟩ := of_takes_arrayLength h
  obtain ⟨-, e', he', m, hm, hjson⟩ := of_takes_document hdocument
  obtain rfl := Option.some.inj (Option.mem_def.1 he ▸ Option.mem_def.1 he')
  rw [Expr.isStoredArray, hm] at harray
  have hnot : m.kind.isArray = false := Kind.isArray_of_isJson hjson
  exact absurd harray (by simp [hnot])

/-- Strings are not stored as arrays, as far as plain accesses go. -/
theorem not_takes_stringLength_of_array (hplain : access.IsPlain)
    (h : (arrayLength catalog redshift).Takes access) : ¬(stringLength catalog).Takes access := by
  intro hstring
  obtain ⟨-, e, he, harray⟩ := of_takes_arrayLength h
  obtain ⟨-, e', he', htype⟩ := of_takes_stringLength hstring
  obtain rfl := Option.some.inj (Option.mem_def.1 he ▸ Option.mem_def.1 he')
  cases hm : e.mapping with
  | none => rw [Expr.isStoredArray, hm, htype] at harray; cases harray
  | some m =>
    rw [Expr.isStoredArray, hm] at harray
    exact absurd harray (by simp [hplain e he htype m hm])

end Rule

namespace Registry

theorem nodup_members (catalog : Catalog) (options : Options) :
    (members catalog options).Nodup := by
  have hnames : ((members catalog options).map Rule.name).Nodup := by
    simp [members, Rule.arrayLength, Rule.dateTimeParts, Rule.document, Rule.stringLength,
      Rule.timeSpanParts]
  exact List.Pairwise.of_map Rule.name (fun q r hne heq => hne (congrArg Rule.name heq)) hnames

/-- The rules for members that are about something. -/
def membersAbout (catalog : Catalog) (options : Options) : Topic → Registry MemberAccess
  | .size => [.arrayLength catalog options.redshift, .document catalog, .stringLength catalog]
  | .property => [.document catalog]
  | .dateTime => [.dateTimeParts catalog]
  | .timeSpan => [.timeSpanParts catalog]

/-- **An access is taken by rules that are about its member.** -/
theorem mem_membersAbout {topic : Topic} (htopic : access.member.topic = topic)
    {q : Rule MemberAccess} (hq : q ∈ members catalog options) (htakes : q.Takes access) :
    q ∈ membersAbout catalog options topic := by
  subst htopic
  simp only [members, List.mem_cons, List.not_mem_nil, or_false] at hq
  rcases hq with rfl | rfl | rfl | rfl | rfl
  · rw [(Rule.of_takes_arrayLength htakes).1]
    exact List.mem_cons_self
  · rw [Rule.of_takes_dateTimeParts htakes]
    exact List.mem_cons_self
  · rcases (Rule.of_takes_document htakes).1 with htopic | htopic
    · rw [htopic]
      exact List.mem_cons_of_mem _ List.mem_cons_self
    · rw [htopic]
      exact List.mem_cons_self
  · rw [(Rule.of_takes_stringLength htakes).1]
    exact List.mem_cons_of_mem _ (List.mem_cons_of_mem _ List.mem_cons_self)
  · rw [Rule.of_takes_timeSpanParts htakes]
    exact List.mem_cons_self

/-- **Documents and strings alone may take the same plain access.** -/
theorem takers_of_members (catalog : Catalog) (options : Options) (hplain : access.IsPlain) :
    (∃ rule ∈ members catalog options, ∀ q ∈ members catalog options, q.Takes access → q ∈ [rule]) ∨
      ∀ q ∈ members catalog options, q.Takes access →
        q ∈ [Rule.document catalog, Rule.stringLength catalog] := by
  cases htopic : access.member.topic with
  | size =>
    -- What is stored as an array is no document, and no string either.
    by_cases harray : (Rule.arrayLength catalog options.redshift).Takes access
    · refine .inl ⟨_, List.mem_cons_self, fun q hq htakes => ?_⟩
      have hmem := mem_membersAbout htopic hq htakes
      simp only [membersAbout, List.mem_cons, List.not_mem_nil, or_false] at hmem
      rcases hmem with rfl | rfl | rfl
      · exact List.mem_cons_self
      · exact absurd htakes (Rule.not_takes_document_of_array harray)
      · exact absurd htakes (Rule.not_takes_stringLength_of_array hplain harray)
    · refine .inr fun q hq htakes => ?_
      have hmem := mem_membersAbout htopic hq htakes
      exact (List.mem_cons.1 hmem).resolve_left fun heq => harray (heq ▸ htakes)
  | property =>
    refine .inr fun q hq htakes => ?_
    have hmem := mem_membersAbout htopic hq htakes
    exact List.mem_cons.2 (.inl (List.mem_singleton.1 hmem))
  | dateTime =>
    exact .inl ⟨.dateTimeParts catalog, by simp [members], fun _ => mem_membersAbout htopic⟩
  | timeSpan =>
    exact .inl ⟨.timeSpanParts catalog, by simp [members], fun _ => mem_membersAbout htopic⟩

/-! ### Asking in another order -/

/-- Of two rules, one comes before the other. -/
theorem sublist_or_sublist {Call : Type} {rules : Registry Call} {q r : Rule Call} (hq : q ∈ rules)
    (hr : r ∈ rules) (hne : q ≠ r) : [q, r].Sublist rules ∨ [r, q].Sublist rules := by
  obtain ⟨before, after, rfl⟩ := List.append_of_mem hq
  rcases List.mem_append.1 hr with hr | hr
  · refine .inr ?_
    have hfront : [r].Sublist before := List.singleton_sublist.2 hr
    have hback : [q].Sublist (q :: after) := List.singleton_sublist.2 List.mem_cons_self
    exact hfront.append hback
  · refine .inl (List.Sublist.trans ?_ (List.sublist_append_right before (q :: after)))
    have hafter : r ∈ after := (List.mem_cons.1 hr).resolve_left (Ne.symm hne)
    exact (List.singleton_sublist.2 hafter).cons_cons q

/-- The length of a string inside a document. -/
def lengthInDocument : MemberAccess where
  instance? := some (.jsonPath
    (.column { table := "t", name := "customer", type := .scalar .json, mapping := some .jsonb })
    [.constant (.string "Name") (some .text)] false .string (some .jsonb))
  member := .length
  returnType := .int .i32

theorem isPlain_lengthInDocument : lengthInDocument.IsPlain := by
  rintro e ⟨⟩ - m ⟨⟩
  rfl

theorem takers_lengthInDocument (catalog : Catalog) (options : Options) :
    ∀ q ∈ members catalog options, q.Takes lengthInDocument →
      q ∈ [Rule.document catalog, Rule.stringLength catalog] := by
  intro q hq htakes
  have hmem : q ∈ membersAbout catalog options .size := mem_membersAbout rfl hq htakes
  refine (List.mem_cons.1 hmem).resolve_left ?_
  rintro rfl
  obtain ⟨-, e, he, harray⟩ := Rule.of_takes_arrayLength htakes
  obtain rfl := Option.some.inj he
  cases harray

/-- With strings in front of documents, a string inside a document is not taken as text before its
length is. -/
theorem lower_lengthInDocument_ne (catalog : Catalog) :
    lower [Rule.stringLength catalog, Rule.document catalog] lengthInDocument ≠
      lower [Rule.document catalog, Rule.stringLength catalog] lengthInDocument := by
  intro h
  have harg := Option.some.inj h
  simp [Catalog.function, Catalog.applyDefault, Expr.mapping] at harg

/-- **The order of the rules for members** makes no difference to plain accesses as long as documents
come before strings, and does when they do not. -/
theorem lower_eq_members_iff (catalog : Catalog) (options : Options)
    (rules : Registry MemberAccess) (h : rules.Perm (members catalog options)) :
    (∀ access : MemberAccess, access.IsPlain →
        rules.lower access = (members catalog options).lower access) ↔
      [Rule.document catalog, Rule.stringLength catalog].Sublist rules := by
  have hnodup := nodup_members catalog options
  have hrules : rules.Nodup := h.nodup_iff.2 hnodup
  have hstandard : [Rule.document catalog, Rule.stringLength catalog].Sublist
      (members catalog options) := by
    simp [members]
  -- What takes an access in one order does so in the other.
  have htakers : ∀ {access : MemberAccess} {takers : Registry MemberAccess},
      (∀ q ∈ members catalog options, q.Takes access → q ∈ takers) →
        ∀ q ∈ rules, q.Takes access → q ∈ takers :=
    fun htakers q hq => htakers q (h.mem_iff.1 hq)
  constructor
  · intro hsame
    have hdocument : Rule.document catalog ∈ rules := h.mem_iff.2 (by simp [members])
    have hstring : Rule.stringLength catalog ∈ rules := h.mem_iff.2 (by simp [members])
    have hne : Rule.document catalog ≠ Rule.stringLength catalog := fun heq =>
      absurd (congrArg Rule.name heq) (by simp [Rule.document, Rule.stringLength])
    refine (sublist_or_sublist hdocument hstring hne).resolve_right fun hswapped => ?_
    -- The length of a string inside a document tells the two orders apart.
    have hlength := takers_lengthInDocument catalog options
    have hlower := lower_eq_of_sublist hswapped hrules fun q hq htakes =>
      (List.Perm.swap _ _ []).mem_iff.1 (htakers hlength q hq htakes)
    apply lower_lengthInDocument_ne catalog
    rw [← hlower, hsame lengthInDocument isPlain_lengthInDocument,
      lower_eq_of_sublist hstandard hnodup hlength]
  · intro horder access hplain
    rcases takers_of_members catalog options hplain with ⟨rule, hrule, honly⟩ | honly
    · have hin : [rule].Sublist (members catalog options) := List.singleton_sublist.2 hrule
      have hsub : [rule].Sublist rules := List.singleton_sublist.2 (h.mem_iff.2 hrule)
      rw [lower_eq_of_sublist hsub hrules (htakers honly), lower_eq_of_sublist hin hnodup honly]
    · rw [lower_eq_of_sublist horder hrules (htakers honly),
        lower_eq_of_sublist hstandard hnodup honly]

/-- The rules for members with those for documents, strings and durations in front. -/
def documentsFirst (catalog : Catalog) (options : Options) : Registry MemberAccess :=
  [.document catalog, .stringLength catalog, .timeSpanParts catalog] ++
    [.arrayLength catalog options.redshift, .dateTimeParts catalog]

/-- In that order, too, a string inside a document is taken as text before its length is. -/
theorem lower_eq_members_iff_documentsFirst :
    (documentsFirst ⟨true, []⟩ {}).Perm (members ⟨true, []⟩ {}) ∧ lengthInDocument.IsPlain ∧
      (documentsFirst ⟨true, []⟩ {}).lower lengthInDocument
        = (members ⟨true, []⟩ {}).lower lengthInDocument := by
  have hperm : (documentsFirst ⟨true, []⟩ {}).Perm (members ⟨true, []⟩ {}) := List.perm_append_comm
  have horder : [Rule.document ⟨true, []⟩, Rule.stringLength ⟨true, []⟩].Sublist
      (documentsFirst ⟨true, []⟩ {}) := by
    simp [documentsFirst]
  exact ⟨hperm, isPlain_lengthInDocument,
    (lower_eq_members_iff ⟨true, []⟩ {} _ hperm).2 horder _ isPlain_lengthInDocument⟩

end Registry

end PgFragment
