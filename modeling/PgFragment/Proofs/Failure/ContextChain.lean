import PgFragment.Failure.Chain

namespace PgFragment

/-!
# What is shown of a failure under context

A context is put in front of a failure with a colon between the two.  When the context is itself a
failure under context, only its newest cause is put there, and the rest of it is told to nobody.

* `Failure.Account` — how a failure came about, every context with the contexts of its own.
* `Failure.message_context` — what is shown of a context: its newest cause.
* `Failure.Account.message_eq_told_iff` — a failure tells its whole account exactly when no context
  in it has a context of its own.
* `Failure.Account.message_context_eq_iff` — hence what one more context adds to the text.
-/

/-! ### Wordings with colons between them -/

section Wordings

variable {shorter longer : List String}

/-- The wordings of causes with colons between them. -/
def colonSeparated (wordings : List String) : String := String.intercalate ": " wordings

/-- The length of wordings with a colon and a space behind each of them. -/
def lengthWithColons : List String → Nat
  | [] => 0
  | wording :: rest => wording.length + 2 + lengthWithColons rest

/-- Behind the last wording there is no colon. -/
theorem length_colonSeparated (h : longer ≠ []) :
    (colonSeparated longer).length + 2 = lengthWithColons longer := by
  induction longer with
  | nil => exact absurd rfl h
  | cons wording rest ih =>
    by_cases hrest : rest = []
    · subst hrest
      rfl
    · have ih := ih hrest
      have hcolon : ": ".length = 2 := by decide
      rw [colonSeparated, String.intercalate_cons_of_ne_nil hrest, String.length_append,
        String.length_append, hcolon, ← colonSeparated, lengthWithColons]
      omega

/-- Each wording that is left out makes the text shorter by the length of a colon at least. -/
theorem lengthWithColons_add_le_of_sublist (h : shorter.Sublist longer) :
    lengthWithColons shorter + 2 * longer.length
      ≤ lengthWithColons longer + 2 * shorter.length := by
  induction h with
  | slnil => exact Nat.le_refl _
  | cons wording _ ih =>
    rw [lengthWithColons, List.length_cons]
    omega
  | cons_cons wording _ ih =>
    rw [lengthWithColons, lengthWithColons, List.length_cons, List.length_cons]
    omega

/-- **Nothing is left out of a text without a trace.** -/
theorem eq_of_colonSeparated_eq (h : shorter.Sublist longer) (hne : shorter ≠ [])
    (heq : colonSeparated shorter = colonSeparated longer) : shorter = longer := by
  have hne' : longer ≠ [] := by
    rintro rfl
    exact hne (List.sublist_nil.1 h)
  have hshort := length_colonSeparated hne
  have hlong := length_colonSeparated hne'
  have hcolons := lengthWithColons_add_le_of_sublist h
  have hlength := h.length_le
  rw [heq] at hshort
  exact h.eq_of_length (by omega)

end Wordings

namespace Failure

/-! ### One context -/

/-- The wordings of all causes, the newest first. -/
def wordings (f : Failure) : List String := f.causes.map Cause.message

theorem wordings_ne_nil (f : Failure) : f.wordings ≠ [] := List.cons_ne_nil _ _

theorem message_eq (f : Failure) : f.message = colonSeparated f.wordings := rfl

theorem wordings_context (f consequent : Failure) :
    (f.context consequent).wordings = consequent.newest.message :: f.wordings := rfl

/-- A consequent that the host still holds is worded like any other. -/
theorem wordings_sharedContext (f consequent : Failure) :
    (f.sharedContext consequent).wordings = consequent.newest.message :: f.wordings := rfl

/-- **A context is shown by its newest cause**, in front of what was shown before. -/
theorem message_context (f consequent : Failure) :
    (f.context consequent).message = consequent.newest.message ++ ": " ++ f.message := by
  rw [message_eq, wordings_context, colonSeparated,
    String.intercalate_cons_of_ne_nil f.wordings_ne_nil, message_eq, colonSeparated]

/-- What was caused by nothing else is shown by its newest cause, and nothing else is. -/
theorem message_eq_newest_iff {f : Failure} : f.message = f.newest.message ↔ f.older = [] := by
  constructor
  · intro h
    have hsub : [f.newest.message].Sublist f.wordings :=
      List.singleton_sublist.2 List.mem_cons_self
    have hwordings := eq_of_colonSeparated_eq hsub (List.cons_ne_nil _ _) h.symm
    exact List.map_eq_nil_iff.1 (List.cons.inj hwordings).2.symm
  · intro h
    rw [message_eq, wordings, causes, h]
    rfl

/-! ### Any nesting of contexts -/

/-- How a failure came about: from a cause, or by putting a failure under a consequent, which has an
account of its own and may be one that the host still holds. -/
inductive Account where
  | cause (c : Cause)
  | context (base consequent : Account) (shared : Bool)

namespace Account

/-- The failure that came about. -/
def failure : Account → Failure
  | .cause c => .ofCause c
  | .context base consequent shared =>
    if shared then base.failure.sharedContext consequent.failure
    else base.failure.context consequent.failure

/-- The wordings of all causes that went into a failure, consequents in front. -/
def told : Account → List String
  | .cause c => [c.message]
  | .context base consequent _ => consequent.told ++ base.told

/-- Every consequent is a cause alone. -/
def IsStraight : Account → Prop
  | .cause _ => True
  | .context base consequent _ => base.IsStraight ∧ ∃ c, consequent = .cause c

variable {base consequent : Account}

theorem wordings_failure_context (base consequent : Account) (shared : Bool) :
    (context base consequent shared).failure.wordings
      = consequent.failure.newest.message :: base.failure.wordings := by
  cases shared with
  | false => exact wordings_context base.failure consequent.failure
  | true => exact wordings_sharedContext base.failure consequent.failure

/-- Only a cause alone has nothing behind it. -/
theorem older_failure_eq_nil_iff (account : Account) :
    account.failure.older = [] ↔ ∃ c, account = .cause c := by
  cases account with
  | cause c => exact iff_of_true rfl ⟨c, rfl⟩
  | context base consequent shared =>
    refine iff_of_false ?_ nofun
    cases shared <;> exact List.cons_ne_nil _ _

/-- What is shown is part of the account, in its order. -/
theorem wordings_sublist_told (account : Account) :
    account.failure.wordings.Sublist account.told := by
  induction account with
  | cause c => exact List.Sublist.refl _
  | context base consequent shared hbase hconsequent =>
    rw [wordings_failure_context, told, ← List.singleton_append]
    have hnewest : [consequent.failure.newest.message].Sublist consequent.failure.wordings :=
      List.singleton_sublist.2 List.mem_cons_self
    exact (hnewest.trans hconsequent).append hbase

theorem length_wordings_le (account : Account) :
    account.failure.wordings.length ≤ account.told.length :=
  account.wordings_sublist_told.length_le

theorem two_le_length_told (base consequent : Account) (shared : Bool) :
    2 ≤ (context base consequent shared).told.length := by
  have hpos : ∀ account : Account, 0 < account.told.length := fun account =>
    Nat.lt_of_lt_of_le (List.length_pos_iff.2 account.failure.wordings_ne_nil)
      account.length_wordings_le
  have hbase := hpos base
  have hconsequent := hpos consequent
  rw [told, List.length_append]
  omega

/-- As many causes are shown as went into the failure, exactly when every consequent is a cause
alone: of any other a cause is left out. -/
theorem length_wordings_eq_iff (account : Account) :
    account.failure.wordings.length = account.told.length ↔ account.IsStraight := by
  induction account with
  | cause c => exact iff_of_true rfl trivial
  | context base consequent shared hbase _ =>
    have hle := base.length_wordings_le
    rw [wordings_failure_context, List.length_cons, told, List.length_append, IsStraight, ← hbase]
    -- A cause alone has one wording, which is shown; any other consequent has two at least, of which
    -- one is shown.
    cases consequent with
    | cause c =>
      have hone : (cause c).told.length = 1 := rfl
      have hcause : ∃ d, cause c = cause d := ⟨c, rfl⟩
      constructor
      · intro h
        exact ⟨by omega, hcause⟩
      · rintro ⟨h, -⟩
        omega
    | context inner outer shared' =>
      have htwo := two_le_length_told inner outer shared'
      exact iff_of_false (by omega) (by rintro ⟨-, c, ⟨⟩⟩)

/-- **A failure tells its whole account exactly when every consequent in it is a cause alone.** -/
theorem message_eq_told_iff (account : Account) :
    account.failure.message = colonSeparated account.told ↔ account.IsStraight := by
  rw [← length_wordings_eq_iff, message_eq]
  constructor
  · intro h
    rw [eq_of_colonSeparated_eq account.wordings_sublist_told account.failure.wordings_ne_nil h]
  · intro h
    rw [account.wordings_sublist_told.eq_of_length h]

/-- **What a context adds to the text.**  Whatever a failure and a consequent were made of, the
consequent is shown by its newest cause in front of all that was shown of the failure.  So the text of
the consequent stands there in full exactly when the consequent has no context of its own, and the
whole account is told exactly when, besides, no context did before. -/
theorem message_context_eq_iff (base consequent : Account) :
    (context base consequent false).failure.message
        = consequent.failure.newest.message ++ ": " ++ base.failure.message ∧
      ((context base consequent false).failure.message
          = consequent.failure.message ++ ": " ++ base.failure.message ↔
        ∃ c, consequent = .cause c) ∧
      ((context base consequent false).failure.message
          = colonSeparated (consequent.told ++ base.told) ↔
        base.IsStraight ∧ ∃ c, consequent = .cause c) := by
  have hshown : (context base consequent false).failure.message
      = consequent.failure.newest.message ++ ": " ++ base.failure.message :=
    message_context base.failure consequent.failure
  refine ⟨hshown, ?_, message_eq_told_iff (context base consequent false)⟩
  -- Both texts end alike, so that they agree when what stands in front does.
  rw [hshown, String.append_left_inj, String.append_left_inj, eq_comm, message_eq_newest_iff,
    older_failure_eq_nil_iff]

/-- A failure without context. -/
def rootCause : Account := .cause (.stated "root cause")

/-- A context that was itself put under a context. -/
def topOfMiddle : Account :=
  .context (.cause (.stated "middle context")) (.cause (.stated "top context")) false

/-- What is behind the context is shown of the context alone, and no longer of the whole. -/
theorem message_context_ne_topOfMiddle :
    topOfMiddle.failure.message = "top context: middle context" ∧
      (context rootCause topOfMiddle false).failure.message = "top context: root cause" ∧
      (context rootCause topOfMiddle false).failure.message
        ≠ topOfMiddle.failure.message ++ ": " ++ rootCause.failure.message := by
  refine ⟨rfl, rfl, ?_⟩
  show "top context: root cause" ≠ "top context: middle context: root cause"
  decide

end Account

end Failure

end PgFragment
