import NetworkAi.Control.Database
import NetworkAi.Ledger.Projection

set_option relaxedAutoImplicit false
set_option autoImplicit false

/-!
# Postings of an operation

An operation posts at most once under each business key, and only when there is something to
move. This module states what such a posting does to the books, and what it leaves alone.

## Main definitions

* `NetworkAi.Booked` — a posting that succeeded: its key was known, or it is `Ledger.Posted`.
* `NetworkAi.BookedIf` — a posting that is made only under a condition.
* `NetworkAi.Entered` — a journal entry with its lines.

## Main results

* `NetworkAi.Db.post_ok` — a successful `Db.post` is `Booked` and changes only the books.
* `NetworkAi.Booked.balance_of_not_named`, `NetworkAi.Booked.findKey_ne` — the frame of a posting:
  accounts it does not name and keys it does not use.
* `NetworkAi.Booked.posted_of_fresh` — a posting under a fresh key moves its entries.
-/

namespace NetworkAi

open Relational

variable {env : Env} {xid : Nat} {books books' : Books} {key : BusinessKey}
  {entries : List (AccountId × Int)}

/-- A posting that succeeded: the key was known and nothing moved, or its entries moved. -/
inductive Booked (env : Env) (xid : Nat) (books : Books) (key : BusinessKey)
    (entries : List (AccountId × Int)) : Books → Prop
  | known (h : books.findKey key ≠ none) : Booked env xid books key entries books
  | posted {id : JournalId} {info : PostInfo} {books' : Books}
      (h : Ledger.Posted env.accountLe xid books id key info entries books') :
      Booked env xid books key entries books'

/-- A posting that is made only under a condition. -/
def BookedIf (c : Prop) (env : Env) (xid : Nat) (books : Books) (key : BusinessKey)
    (entries : List (AccountId × Int)) (books' : Books) : Prop :=
  (c ∧ Booked env xid books key entries books') ∨ (¬ c ∧ books' = books)

/-- **A successful posting of an operation** changes nothing but the books. -/
theorem Db.post_ok {db db' : Db} {id j : JournalId} {info : PostInfo}
    (h : db.post env id key info entries = .ok (j, db')) :
    ∃ books', Booked env db.xid db.books key entries books' ∧ db' = { db with books := books' } := by
  unfold Db.post at h
  simp only [Checked.bind_ok, Checked.pure_ok, Prod.mk.injEq] at h
  obtain ⟨⟨j', books'⟩, hpost, rfl, rfl⟩ := h
  refine ⟨books', ?_, rfl⟩
  rcases Ledger.post_cases hpost with ⟨hknown, rfl⟩ | ⟨-, hposted⟩
  · exact .known (by rw [hknown]; exact Option.some_ne_none _)
  · exact .posted hposted

/-- The posting of an operation that posts only under a condition. -/
theorem Db.postIf_ok {db db' : Db} {c : Prop} [Decidable c] {id j : JournalId} {info : PostInfo}
    (h : (if c then db.post env id key info entries else pure (0, db)) = .ok (j, db')) :
    ∃ books', BookedIf c env db.xid db.books key entries books' ∧
      db' = { db with books := books' } := by
  split at h
  · rename_i hc
    obtain ⟨books', hb, rfl⟩ := Db.post_ok h
    exact ⟨books', .inl ⟨hc, hb⟩, rfl⟩
  · rename_i hc
    simp only [Checked.pure_ok, Prod.mk.injEq] at h
    obtain ⟨-, rfl⟩ := h
    exact ⟨db.books, .inr ⟨hc, rfl⟩, rfl⟩

namespace Booked

/-- A posting under a fresh key moved its entries. -/
theorem posted_of_fresh (h : Booked env xid books key entries books')
    (hfresh : books.findKey key = none) :
    ∃ id info, Ledger.Posted env.accountLe xid books id key info entries books' := by
  cases h with
  | known hk => exact absurd hfresh hk
  | posted hp => exact ⟨_, _, hp⟩

/-- A posting under a fresh key adds its entries to the balances. -/
theorem balance_of_fresh (h : Booked env xid books key entries books')
    (hfresh : books.findKey key = none) (a : AccountId) :
    books'.balance a = books.balance a + Ledger.entrySum a entries := by
  obtain ⟨_, _, hp⟩ := h.posted_of_fresh hfresh
  exact hp.balance a

/-- An account that the entries do not name keeps its balance. -/
theorem balance_of_not_named (h : Booked env xid books key entries books') {a : AccountId}
    (ha : ∀ e ∈ entries, e.1 ≠ a) : books'.balance a = books.balance a := by
  cases h with
  | known => rfl
  | posted hp => exact hp.balance_of_not_named ha

/-- The keys of the journal after a posting. -/
theorem findKey_none (h : Booked env xid books key entries books') (k : BusinessKey) :
    books'.findKey k = none ↔ k ≠ key ∧ books.findKey k = none := by
  cases h with
  | known hk =>
    refine ⟨fun hn => ⟨?_, hn⟩, And.right⟩
    rintro rfl
    exact hk hn
  | posted hp => exact hp.findKey_none k

/-- Another key is in the journal after a posting exactly when it was before. -/
theorem findKey_ne (h : Booked env xid books key entries books') {k : BusinessKey} (hne : k ≠ key) :
    books'.findKey k = none ↔ books.findKey k = none := by
  rw [h.findKey_none]
  exact and_iff_right hne

/-- The key of a posting is in the journal after it. -/
theorem findKey_self (h : Booked env xid books key entries books') :
    books'.findKey key ≠ none := by
  intro hn
  exact ((h.findKey_none key).1 hn).1 rfl

/-- A journal entry after a posting is an old one with its lines, or the new one. -/
theorem journal_cases (h : Booked env xid books key entries books') (hs : books.Sound)
    {j : JournalId} {row : JournalRow BusinessKey PostInfo}
    (hj : books'.journal.find? j = some row) :
    (books.journal.find? j = some row ∧ books'.linesOfJournal j = books.linesOfJournal j) ∨
      (row.businessKey = key ∧ books'.linesOfJournal j =
        Ledger.storedLines j (Ledger.linesOf env.accountLe entries)) := by
  cases h with
  | known => exact .inl ⟨hj, rfl⟩
  | posted hp =>
    rw [hp.linesOfJournal fun l hl => (hs.owned l hl).1]
    rw [hp.journal] at hj
    rcases Table.find?_insert_cases hj with ⟨rfl, rfl⟩ | ⟨hne, hj⟩
    · exact .inr ⟨rfl, if_pos rfl⟩
    · exact .inl ⟨hj, if_neg hne⟩

/-- A journal entry stays in the journal, with its lines. -/
theorem journal_old (h : Booked env xid books key entries books') (hs : books.Sound)
    {j : JournalId} {row : JournalRow BusinessKey PostInfo}
    (hj : books.journal.find? j = some row) :
    books'.journal.find? j = some row ∧ books'.linesOfJournal j = books.linesOfJournal j := by
  cases h with
  | known => exact ⟨hj, rfl⟩
  | posted hp =>
    have hne : j ≠ _ := fun e => by
      rw [e, hp.idFresh] at hj
      cases hj
    rw [hp.linesOfJournal (fun l hl => (hs.owned l hl).1), if_neg hne, hp.journal,
      Table.find?_insert, if_neg (Ne.symm hne)]
    exact ⟨hj, rfl⟩

/-- A posting keeps the ledger sound. -/
theorem sound (h : Booked env xid books key entries books') (hs : books.Sound) :
    books'.Sound := by
  cases h with
  | known => exact hs
  | posted hp => exact hp.sound hs

end Booked

namespace BookedIf

variable {c : Prop}

/-- An account that the entries do not name keeps its balance. -/
theorem balance_of_not_named (h : BookedIf c env xid books key entries books') {a : AccountId}
    (ha : ∀ e ∈ entries, e.1 ≠ a) : books'.balance a = books.balance a := by
  rcases h with ⟨-, hb⟩ | ⟨-, rfl⟩
  · exact hb.balance_of_not_named ha
  · rfl

/-- Another key is in the journal after a posting exactly when it was before. -/
theorem findKey_ne (h : BookedIf c env xid books key entries books') {k : BusinessKey}
    (hne : k ≠ key) : books'.findKey k = none ↔ books.findKey k = none := by
  rcases h with ⟨-, hb⟩ | ⟨-, rfl⟩
  · exact hb.findKey_ne hne
  · exact Iff.rfl

/-- A posting under a fresh key adds its entries to the balances, when it is made. -/
theorem balance_of_fresh (h : BookedIf c env xid books key entries books')
    (hfresh : books.findKey key = none) {a : AccountId}
    (hzero : ¬ c → Ledger.entrySum a entries = 0) :
    books'.balance a = books.balance a + Ledger.entrySum a entries := by
  rcases h with ⟨-, hb⟩ | ⟨hc, rfl⟩
  · exact hb.balance_of_fresh hfresh a
  · rw [hzero hc, add_zero]

/-- A journal entry after a posting is an old one with its lines, or the new one. -/
theorem journal_cases (h : BookedIf c env xid books key entries books') (hs : books.Sound)
    {j : JournalId} {row : JournalRow BusinessKey PostInfo}
    (hj : books'.journal.find? j = some row) :
    (books.journal.find? j = some row ∧ books'.linesOfJournal j = books.linesOfJournal j) ∨
      (row.businessKey = key ∧ books'.linesOfJournal j =
        Ledger.storedLines j (Ledger.linesOf env.accountLe entries)) := by
  rcases h with ⟨-, hb⟩ | ⟨-, rfl⟩
  · exact hb.journal_cases hs hj
  · exact .inl ⟨hj, rfl⟩

/-- A journal entry stays in the journal, with its lines. -/
theorem journal_old (h : BookedIf c env xid books key entries books') (hs : books.Sound)
    {j : JournalId} {row : JournalRow BusinessKey PostInfo}
    (hj : books.journal.find? j = some row) :
    books'.journal.find? j = some row ∧ books'.linesOfJournal j = books.linesOfJournal j := by
  rcases h with ⟨-, hb⟩ | ⟨-, rfl⟩
  · exact hb.journal_old hs hj
  · exact ⟨hj, rfl⟩

/-- A posting keeps the ledger sound. -/
theorem sound (h : BookedIf c env xid books key entries books') (hs : books.Sound) :
    books'.Sound := by
  rcases h with ⟨-, hb⟩ | ⟨-, rfl⟩
  · exact hb.sound hs
  · exact hs

end BookedIf

/-! ### Entries of the journal -/

/-- The journal has an entry under a key, and its lines are those of some entries. -/
def Entered (env : Env) (books : Books) (key : BusinessKey) (entries : List (AccountId × Int)) :
    Prop :=
  ∃ j, books.findKey key = some j ∧ books.linesOfJournal j =
    Ledger.storedLines j (Ledger.linesOf env.accountLe entries)

/-- A posting under a fresh key enters its entries. -/
theorem Booked.entered (h : Booked env xid books key entries books') (hs : books.Sound)
    (hfresh : books.findKey key = none) : Entered env books' key entries := by
  obtain ⟨j, info, hp⟩ := h.posted_of_fresh hfresh
  have hrow : books'.journal.find? j = some ⟨key, info, xid⟩ := by
    rw [hp.journal, Table.find?_insert_self]
  refine ⟨j, (hp.sound hs).keys j _ hrow, ?_⟩
  rw [hp.linesOfJournal (fun l hl => (hs.owned l hl).1), if_pos rfl]

/-! ### Opening accounts -/

/-- An account that is opened holds nothing, like an account that does not exist. -/
@[simp] theorem balance_openAccount (books : Books) (a b : AccountId) (kind : AccountKind) :
    (books.openAccount a kind).balance b = books.balance b := by
  unfold Ledger.openAccount
  split
  · rename_i h
    unfold Ledger.balance
    by_cases e : a = b
    · subst e
      simp [h]
    · simp only [Table.find?_insert, if_neg e]
  · rfl

/-- An opened account posts no journal under any key. -/
@[simp] theorem findKey_openAccount (books : Books) (a : AccountId) (kind : AccountKind)
    (k : BusinessKey) : (books.openAccount a kind).findKey k = books.findKey k := by
  unfold Ledger.openAccount
  split <;> rfl

/-- An opened account adds no journal lines. -/
@[simp] theorem lines_openAccount (books : Books) (a : AccountId) (kind : AccountKind) :
    (books.openAccount a kind).lines = books.lines := by
  unfold Ledger.openAccount
  split <;> rfl

/-- An opened account adds no journal. -/
@[simp] theorem journal_openAccount (books : Books) (a : AccountId) (kind : AccountKind) :
    (books.openAccount a kind).journal = books.journal := by
  unfold Ledger.openAccount
  split <;> rfl

/-- Opening an account deletes none. -/
theorem accounts_none_of_openAccount {a b : AccountId} {kind : AccountKind}
    (h : (books.openAccount a kind).accounts.find? b = none) : books.accounts.find? b = none := by
  unfold Ledger.openAccount at h
  split at h
  · rw [Table.find?_insert] at h
    split at h
    · cases h
    · exact h
  · exact h

/-- An account that must be new is opened. -/
theorem openFresh_ok {a : AccountId} {kind : AccountKind}
    (h : books.openFresh a kind = .ok books') : books' = books.openAccount a kind := by
  unfold Ledger.openFresh at h
  simp only [Checked.bind_ok, constraint_ok, Checked.pure_ok] at h
  obtain ⟨-, -, rfl⟩ := h
  rfl

end NetworkAi
