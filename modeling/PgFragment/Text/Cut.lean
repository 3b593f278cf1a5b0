namespace PgFragment.Text

/-!
# Cutting text

Removing a known ending, and finding the first place where a pattern starts.  Main statements:
both only cut, so the pieces put together are the text again.
-/

/-- The text before `ending`, when the text ends in it. -/
def dropEnding? (ending s : List Char) : Option (List Char) :=
  if ending.isSuffixOf s then some (s.take (s.length - ending.length)) else none

/-- The text before and from the first place where `pattern` starts. -/
def breakAt (pattern : List Char) : List Char → Option (List Char × List Char)
  | [] => if pattern.isEmpty then some ([], []) else none
  | c :: s =>
    if pattern.isPrefixOf (c :: s) then some ([], c :: s)
    else (breakAt pattern s).map fun (before, rest) => (c :: before, rest)

theorem append_of_breakAt {pattern s before rest : List Char}
    (h : breakAt pattern s = some (before, rest)) : before ++ rest = s := by
  induction s generalizing before with
  | nil =>
    simp only [breakAt] at h
    split at h <;> simp_all
  | cons c s ih =>
    simp only [breakAt] at h
    split at h
    · simp_all
    · obtain ⟨⟨b, r⟩, hb, he⟩ := Option.map_eq_some_iff.1 h
      simp only [Prod.mk.injEq] at he
      obtain ⟨rfl, rfl⟩ := he
      simp [ih hb]

theorem append_of_dropEnding? {ending s before : List Char}
    (h : dropEnding? ending s = some before) : before ++ ending = s := by
  unfold dropEnding? at h
  split at h
  case isTrue hs =>
    obtain ⟨t, rfl⟩ := List.isSuffixOf_iff_suffix.1 hs
    simp_all
  case isFalse => simp at h

/-- What begins at the place where a pattern starts begins with it. -/
theorem prefix_of_breakAt {pattern s before rest : List Char}
    (h : breakAt pattern s = some (before, rest)) : pattern <+: rest := by
  induction s generalizing before with
  | nil =>
    simp only [breakAt] at h
    split at h
    · next hempty =>
      rw [List.isEmpty_iff.1 hempty]
      exact List.nil_prefix
    · cases h
  | cons c s ih =>
    simp only [breakAt] at h
    split at h
    · next hprefix =>
      cases h
      exact List.isPrefixOf_iff_prefix.1 hprefix
    · obtain ⟨⟨b, r⟩, hb, heq⟩ := Option.map_eq_some_iff.1 h
      cases heq
      exact ih hb

theorem dropEnding?_append (ending s : List Char) :
    dropEnding? ending (s ++ ending) = some s := by
  rw [dropEnding?, if_pos (List.isSuffixOf_iff_suffix.2 (List.suffix_append s ending))]
  simp

theorem dropEnding?_eq_none {ending s : List Char} (h : ¬ending <:+ s) :
    dropEnding? ending s = none :=
  if_neg (by rwa [List.isSuffixOf_iff_suffix])

end PgFragment.Text
