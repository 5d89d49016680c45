import NetworkAi.Ledger.Entries
import NetworkAi.Lib.Machine

set_option relaxedAutoImplicit false
set_option autoImplicit false
set_option linter.unusedSectionVars false

/-!
# The ledger projection

What one posting can do, and what therefore holds after every history of postings, committed or
rejected: the stored balances are the projection of the append-only lines, they sum to zero, no
account but the issuer is overdrawn, and every journal entry is balanced.

## Main definitions

* `NetworkAi.Ledger.Posted` — a posting under a fresh key, as a relation of the ledgers around it.
* `NetworkAi.Ledger.Sound` — the invariant of the ledger.
* `NetworkAi.LedgerState`, `NetworkAi.PostCall`, `NetworkAi.ledgerSystem` — histories of
  postings, each its own transaction.

## Main results

* `NetworkAi.Ledger.post_cases` — a successful posting re-used its key or was `Posted`.
* `NetworkAi.Ledger.Posted.balance` — a posting adds its entries to the balances.
* `NetworkAi.Ledger.Posted.sound` — a posting keeps the invariant.
* `NetworkAi.ledger_projection` — the invariant in every reachable state, with the effect of a
  re-used key and of a rejected posting.
-/

namespace NetworkAi

open Relational

namespace Ledger

variable {K A I : Type} [DecidableEq K] [DecidableEq A]

/-! ### Accounts and lines -/

/-- The journal entry found under a key. -/
theorem findKey_eq_some {L : Ledger K A I} {key : K} {j : JournalId} (h : L.findKey key = some j) :
    ∃ row, L.journal.find? j = some row ∧ row.businessKey = key := by
  unfold findKey at h
  rw [Option.map_eq_some_iff] at h
  obtain ⟨r, hr, rfl⟩ := h
  exact ⟨r.2, Table.find?_eq_some.2 (List.mem_of_find?_eq_some hr), by
    simpa using List.find?_some hr⟩

/-- A key without a journal entry. -/
theorem findKey_eq_none {L : Ledger K A I} {key : K} :
    L.findKey key = none ↔ ∀ j row, L.journal.find? j = some row → row.businessKey ≠ key := by
  unfold findKey
  rw [Option.map_eq_none_iff, List.find?_eq_none]
  constructor
  · intro h j row hj
    simpa using h (j, row) (Table.find?_eq_some.1 hj)
  · intro h r hr
    simpa using h r.1 r.2 (Table.find?_eq_some.2 hr)

/-- The balance stored in an existing row. -/
theorem balance_eq {L : Ledger K A I} {a : A} {row : Account} (h : L.accounts.find? a = some row) :
    L.balance a = row.balance := by
  simp [balance, h]

/-- An account that is not there has balance zero. -/
theorem balance_eq_zero {L : Ledger K A I} {a : A} (h : L.accounts.find? a = none) :
    L.balance a = 0 := by
  simp [balance, h]

/-- The fields a line's trigger leaves alone, and what it does to the rest. -/
structure LineApplied (L : Ledger K A I) (line : JournalLine A) (L' : Ledger K A I) : Prop where
  journal : L'.journal = L.journal
  lines : L'.lines = L.lines ++ [line]
  account : ∃ row, L.accounts.find? line.accountId = some row ∧
    L'.accounts = L.accounts.set line.accountId { row with balance := row.balance + line.amount }
      ∧ (0 ≤ row.balance + line.amount ∨ row.kind = .labIssuer)
  fits : ∀ a row, L'.accounts.find? a = some row →
    L.accounts.find? a = some row ∨ fitsBigint row.balance
  owner : ∃ row, L.journal.find? line.journalId = some row

/-- What a line that is accepted does to the ledger. -/
theorem applyJournalLine_ok {xid : Nat} {L L' : Ledger K A I} {line : JournalLine A}
    (h : applyJournalLine xid L line = .ok L') : LineApplied L line L' := by
  unfold applyJournalLine at h
  simp only [Checked.bind_ok, constraint_ok, reference_ok, Checked.pure_ok, exists_const] at h
  obtain ⟨-, -, row, hrow, -, account, haccount, hvalid, rfl⟩ := h
  refine ⟨rfl, rfl, ⟨account, haccount, rfl, hvalid.1⟩, fun a r hr => ?_, ⟨row, hrow⟩⟩
  rcases Table.find?_set_cases hr with ⟨-, rfl, -⟩ | ⟨-, hold⟩
  · exact .inr hvalid.2
  · exact .inl hold

/-- The accounts after a line: the one it names is changed by its amount. -/
theorem LineApplied.find? {L L' : Ledger K A I} {line : JournalLine A} (h : LineApplied L line L')
    (a : A) : L'.accounts.find? a = (L.accounts.find? a).map fun row =>
      { row with balance := row.balance + if line.accountId = a then line.amount else 0 } := by
  obtain ⟨row, hrow, hacc, -⟩ := h.account
  rw [hacc, Table.find?_set]
  by_cases e : a = line.accountId
  · subst e
    simp [hrow]
  · have e' : ¬ line.accountId = a := fun h => e h.symm
    cases L.accounts.find? a <;> simp [e, e']

/-- The total of the balances after a line is changed by its amount. -/
theorem LineApplied.total {L L' : Ledger K A I} {line : JournalLine A} (h : LineApplied L line L') :
    L'.totalBalance = L.totalBalance + line.amount := by
  obtain ⟨row, hrow, hacc, -⟩ := h.account
  unfold totalBalance
  rw [hacc, Table.sum_set hrow]
  ring

/-! ### A posting as a relation -/

/-- The lines of one journal entry as they are stored. -/
def storedLines (id : JournalId) (lines : List (A × Int)) : List (JournalLine A) :=
  lines.map fun line => ⟨id, line.1, line.2⟩

/-- A posting that wrote a journal entry: under a fresh key and a fresh identifier it inserted
the entry and its lines and moved the lines' amounts onto existing accounts. -/
structure Posted (le : A → A → Bool) (xid : Nat) (L : Ledger K A I) (id : JournalId) (key : K)
    (info : I) (entries : List (A × Int)) (L' : Ledger K A I) : Prop where
  keyFresh : L.findKey key = none
  idFresh : L.journal.find? id = none
  journal : L'.journal = L.journal.insert id ⟨key, info, xid⟩ idFresh
  lines : L'.lines = L.lines ++ storedLines id (linesOf le entries)
  accounts : ∀ a, L'.accounts.find? a = (L.accounts.find? a).map fun row =>
    { row with balance := row.balance + entrySum a entries }
  total : L'.totalBalance = L.totalBalance
  two : 2 ≤ (linesOf le entries).length
  zero : (entries.map Prod.snd).sum = 0
  exist : ∀ a, entrySum a entries ≠ 0 → ∃ row, L.accounts.find? a = some row ∧
    (row.kind = .labIssuer ∨ 0 ≤ row.balance + entrySum a entries)
  fits : ∀ a row, L'.accounts.find? a = some row →
    L.accounts.find? a = some row ∨ fitsBigint row.balance

/-- The trigger along a list of lines with distinct accounts. -/
private theorem foldlM_applyJournalLine {xid : Nat} {id : JournalId} :
    ∀ {lines : List (A × Int)} {L L' : Ledger K A I},
      lines.foldlM (fun L line => applyJournalLine xid L ⟨id, line.1, line.2⟩) L = .ok L' →
      L'.journal = L.journal ∧ L'.lines = L.lines ++ storedLines id lines ∧
      (∀ a, L'.accounts.find? a = (L.accounts.find? a).map fun row =>
        { row with balance := row.balance + entrySum a lines }) ∧
      L'.totalBalance = L.totalBalance + (lines.map Prod.snd).sum ∧
      (∀ a row, L'.accounts.find? a = some row →
        L.accounts.find? a = some row ∨ fitsBigint row.balance)
  | [], L, L', h => by
    simp only [List.foldlM_nil, Checked.pure_ok] at h
    subst h
    refine ⟨rfl, by simp [storedLines], fun a => ?_, by simp, fun a row hrow => .inl hrow⟩
    cases L.accounts.find? a <;> simp
  | line :: lines, L, L', h => by
    simp only [List.foldlM_cons, Checked.bind_ok] at h
    obtain ⟨M, hM, h⟩ := h
    have hM := applyJournalLine_ok hM
    obtain ⟨h1, h2, h3, h4, h5⟩ := foldlM_applyJournalLine h
    refine ⟨h1.trans hM.journal, ?_, fun a => ?_, ?_, fun a row hrow => ?_⟩
    · rw [h2, hM.lines]; simp [storedLines]
    · rw [h3, hM.find?]
      cases L.accounts.find? a with
      | none => rfl
      | some row => simp only [Option.map_some, entrySum_cons, add_assoc]
    · rw [h4, hM.total, List.map_cons, List.sum_cons]; ring
    · rcases h5 a row hrow with hrow | hfits
      · exact hM.fits a row hrow
      · exact .inr hfits

/-- The checks that `post` makes before it writes. -/
private theorem forM_checkLine {L : Ledger K A I} :
    ∀ {lines : List (A × Int)} {u : PUnit}, lines.forM (checkLine L) = .ok u →
      ∀ line ∈ lines, ∃ row, L.accounts.find? line.1 = some row ∧
        (row.kind = .labIssuer ∨ 0 ≤ row.balance + line.2)
  | [], _, _ => by simp
  | line :: lines, u, h => by
    change (checkLine L line >>= fun _ => lines.forM (checkLine L)) = .ok u at h
    rw [Checked.bind_ok] at h
    obtain ⟨_, hl, h⟩ := h
    unfold checkLine at hl
    simp only [Checked.bind_ok, needRow_ok, need_ok] at hl
    intro l hmem
    rcases List.mem_cons.1 hmem with rfl | hmem
    · exact hl
    · exact forM_checkLine h l hmem

/-- **What a successful posting did**: its key was in the journal and nothing changed, or it
was `Posted` under the fresh identifier.

**Proof sketch.** Past the key lookup every line of `post` is a check or a write; the checks on
the merged lines give the facts about the entries, since a line carries the sum of its account's
entries, and the triggers along the lines give the new tables. -/
theorem post_cases {le : A → A → Bool} {xid : Nat} {L L' : Ledger K A I} {id j : JournalId}
    {key : K} {info : I} {entries : List (A × Int)}
    (h : post le xid L id key info entries = .ok (j, L')) :
    (L.findKey key = some j ∧ L' = L) ∨ (j = id ∧ Posted le xid L id key info entries L') := by
  unfold post at h
  split at h
  · rename_i existing hkey
    simp only [Checked.pure_ok, Prod.mk.injEq] at h
    exact .inl ⟨h.1 ▸ hkey, h.2.symm⟩
  · rename_i hkey
    simp only [Checked.bind_ok, need_ok, Checked.pure_ok, Prod.mk.injEq, exists_const] at h
    obtain ⟨⟨htwo, hzero⟩, -, _, hcheck, M, hM, N, hN, rfl, rfl⟩ := h
    unfold insertJournal at hM
    simp only [Checked.bind_ok, constraint_ok, reference_ok, Checked.pure_ok, exists_const] at hM
    obtain ⟨-, journal, hins, rfl⟩ := hM
    rw [Table.insert?_eq_some] at hins
    obtain ⟨hfresh, rfl⟩ := hins
    obtain ⟨h1, h2, h3, h4, h5⟩ := foldlM_applyJournalLine hN
    refine .inr ⟨rfl, hkey, hfresh, h1, h2, fun a => ?_, ?_, htwo, ?_, fun a ha => ?_, h5⟩
    · rw [h3 a]
      simp only [entrySum_linesOf]
    · rw [h4, hzero, add_zero]
      rfl
    · rw [← sum_linesOf le entries]
      exact hzero
    · exact forM_checkLine hcheck _ (linesOf_of_entrySum_ne_zero le ha)

section Posted

variable {le : A → A → Bool} {xid : Nat} {L L' : Ledger K A I} {id : JournalId} {key : K}
  {info : I} {entries : List (A × Int)}

/-- **A posting adds its entries to the balances**, account by account. -/
theorem Posted.balance (h : Posted le xid L id key info entries L') (a : A) :
    L'.balance a = L.balance a + entrySum a entries := by
  cases ha : L.accounts.find? a with
  | some row =>
    have h' := h.accounts a
    rw [ha, Option.map_some] at h'
    rw [balance_eq ha, balance_eq h']
  | none =>
    have h' := h.accounts a
    rw [ha, Option.map_none] at h'
    have hz : entrySum a entries = 0 := by
      by_contra hne
      obtain ⟨row, hrow, -⟩ := h.exist a hne
      rw [ha] at hrow
      cases hrow
    rw [balance_eq_zero ha, balance_eq_zero h', hz, add_zero]

/-- An account the entries do not name keeps its balance. -/
theorem Posted.balance_of_not_named (h : Posted le xid L id key info entries L') {a : A}
    (ha : ∀ e ∈ entries, e.1 ≠ a) : L'.balance a = L.balance a := by
  rw [h.balance, entrySum_eq_zero ha, add_zero]

/-- The keys of the journal after a posting. -/
theorem Posted.findKey_none (h : Posted le xid L id key info entries L') (k : K) :
    L'.findKey k = none ↔ k ≠ key ∧ L.findKey k = none := by
  simp only [findKey_eq_none, h.journal]
  constructor
  · intro hk
    refine ⟨fun e => hk id _ Table.find?_insert_self e.symm, fun j row hj => ?_⟩
    exact hk j row (Table.find?_insert_of_some hj)
  · rintro ⟨hne, hk⟩ j row hj
    rcases Table.find?_insert_cases hj with ⟨-, rfl⟩ | ⟨-, hj⟩
    · exact hne.symm
    · exact hk j row hj

/-- A posting is found under its key. -/
theorem Posted.findKey_self (h : Posted le xid L id key info entries L') :
    L'.findKey key = some id := by
  have hnone : L.journal.rows.find? (fun r => decide (r.2.businessKey = key)) = none := by
    have hfresh := h.keyFresh
    unfold findKey at hfresh
    exact Option.map_eq_none_iff.1 hfresh
  have hrows : L'.journal.rows = L.journal.rows ++ [(id, ⟨key, info, xid⟩)] := by
    rw [h.journal]
    rfl
  unfold findKey
  rw [hrows, List.find?_append, hnone]
  simp

/-- The accounts that exist, with their kinds, are those that existed. -/
theorem Posted.isSome_iff (h : Posted le xid L id key info entries L') (a : A) :
    (L'.accounts.find? a).isSome ↔ (L.accounts.find? a).isSome := by
  rw [h.accounts a, Option.isSome_map]

/-- An account after a posting is an old one of the same kind. -/
theorem Posted.kind (h : Posted le xid L id key info entries L') {a : A} {row : Account}
    (hrow : L'.accounts.find? a = some row) :
    ∃ old, L.accounts.find? a = some old ∧ row.kind = old.kind := by
  rw [h.accounts a, Option.map_eq_some_iff] at hrow
  obtain ⟨old, hold, rfl⟩ := hrow
  exact ⟨old, hold, rfl⟩

end Posted

/-! ### The invariant -/

/-- The ledger's invariant: the balances are the projection of the lines and sum to zero, only
the issuer may be overdrawn, every journal entry is balanced, keys are unique, and every line
belongs to a journal entry and to an account. -/
structure Sound (L : Ledger K A I) : Prop where
  total : L.totalBalance = 0
  projection : ∀ a row, L.accounts.find? a = some row → row.balance = L.lineSum a
  nonneg : ∀ a row, L.accounts.find? a = some row → row.kind ≠ .labIssuer → 0 ≤ row.balance
  balanced : ∀ j row, L.journal.find? j = some row → L.Balanced j
  keys : ∀ j row, L.journal.find? j = some row → L.findKey row.businessKey = some j
  owned : ∀ l ∈ L.lines, (L.journal.find? l.journalId).isSome ∧
    (L.accounts.find? l.accountId).isSome

/-- The lines of a new journal entry add its amounts to the sums of the accounts. -/
theorem lineSum_append_storedLines (L : Ledger K A I) (id : JournalId) (lines : List (A × Int))
    (M : Ledger K A I) (hM : M.lines = L.lines ++ storedLines id lines) (a : A) :
    M.lineSum a = L.lineSum a + entrySum a lines := by
  simp only [lineSum, hM, storedLines, List.map_append, List.sum_append, List.map_map, entrySum,
    Function.comp_def]

/-- The lines of a journal entry after a posting: the new ones under the new identifier, the old
ones elsewhere. -/
theorem Posted.linesOfJournal {le : A → A → Bool} {xid : Nat} {L L' : Ledger K A I}
    {id : JournalId} {key : K} {info : I} {entries : List (A × Int)}
    (h : Posted le xid L id key info entries L')
    (howned : ∀ l ∈ L.lines, (L.journal.find? l.journalId).isSome) (j : JournalId) :
    L'.linesOfJournal j =
      if j = id then storedLines id (linesOf le entries) else L.linesOfJournal j := by
  unfold Ledger.linesOfJournal
  rw [h.lines, List.filter_append]
  by_cases e : j = id
  · subst e
    have hold : L.lines.filter (fun l => decide (l.journalId = j)) = [] := by
      rw [List.filter_eq_nil_iff]
      intro l hl
      have := howned l hl
      simp only [decide_eq_true_eq]
      rintro rfl
      rw [h.idFresh] at this
      cases this
    have hnew : (storedLines j (linesOf le entries)).filter (fun l => decide (l.journalId = j)) =
        storedLines j (linesOf le entries) := by
      rw [List.filter_eq_self]
      intro l hl
      obtain ⟨e, -, rfl⟩ := List.mem_map.1 hl
      simp
    rw [hold, hnew, if_pos rfl, List.nil_append]
  · have hnew : (storedLines id (linesOf le entries)).filter (fun l => decide (l.journalId = j)) =
        [] := by
      rw [List.filter_eq_nil_iff]
      intro l hl
      obtain ⟨e', -, rfl⟩ := List.mem_map.1 hl
      simpa using fun h => e h.symm
    rw [hnew, if_neg e, List.append_nil]

/-- **A posting keeps the ledger sound.**

**Proof sketch.** The total moves by the sum of the entries, which is zero; a balance and the
sum of its lines move by the same entries; the check against the stored balance keeps every
account but the issuer nonnegative; the new entry has the merged lines, at least two of them,
and the old entries keep theirs. -/
theorem Posted.sound {le : A → A → Bool} {xid : Nat} {L L' : Ledger K A I} {id : JournalId}
    {key : K} {info : I} {entries : List (A × Int)} (h : Posted le xid L id key info entries L')
    (hs : L.Sound) : L'.Sound where
  total := h.total.trans hs.total
  projection a row hrow := by
    rw [h.accounts a, Option.map_eq_some_iff] at hrow
    obtain ⟨row, hrow, rfl⟩ := hrow
    rw [lineSum_append_storedLines L id _ L' h.lines a, entrySum_linesOf]
    rw [← hs.projection a row hrow]
  nonneg a row hrow hkind := by
    rw [h.accounts a, Option.map_eq_some_iff] at hrow
    obtain ⟨row, hrow, rfl⟩ := hrow
    have hold := hs.nonneg a row hrow hkind
    by_cases hz : entrySum a entries = 0
    · simpa [hz] using hold
    · obtain ⟨row', hrow', hcheck⟩ := h.exist a hz
      rw [hrow, Option.some.injEq] at hrow'
      subst hrow'
      exact hcheck.resolve_left hkind
  balanced j row hrow := by
    rw [h.journal] at hrow
    unfold Balanced
    rw [h.linesOfJournal (fun l hl => (hs.owned l hl).1)]
    rcases Table.find?_insert_cases hrow with ⟨rfl, -⟩ | ⟨hne, hrow⟩
    · rw [if_pos rfl]
      refine ⟨by simpa [storedLines] using h.two, ?_⟩
      rw [← h.zero, ← sum_linesOf le entries]
      simp only [storedLines, List.map_map, Function.comp_def]
    · rw [if_neg hne]
      exact hs.balanced j row hrow
  keys j row hrow := by
    rw [h.journal] at hrow
    have hrows : L'.journal.rows = L.journal.rows ++ [(id, ⟨key, info, xid⟩)] := by
      rw [h.journal]; rfl
    rcases Table.find?_insert_cases hrow with ⟨rfl, rfl⟩ | ⟨hne, hrow⟩
    · exact h.findKey_self
    · have hold := hs.keys j row hrow
      unfold findKey at hold ⊢
      rw [hrows, List.find?_append]
      rw [Option.map_eq_some_iff] at hold
      obtain ⟨r, hr, hj⟩ := hold
      simp [hr, hj]
  owned l hl := by
    rw [h.lines, List.mem_append] at hl
    rw [h.isSome_iff, h.journal]
    rcases hl with hl | hl
    · obtain ⟨h1, h2⟩ := hs.owned l hl
      refine ⟨?_, h2⟩
      obtain ⟨row, hrow⟩ := Option.isSome_iff_exists.1 h1
      rw [Table.find?_insert_of_some hrow]
      rfl
    · obtain ⟨e, he, rfl⟩ := List.mem_map.1 hl
      have hz : entrySum e.1 entries ≠ 0 := by
        rw [← mem_linesOf_amount le he]
        exact (mem_linesOf le he).1
      obtain ⟨row, hrow, -⟩ := h.exist e.1 hz
      refine ⟨by simp, by simp [hrow]⟩

/-- A sound ledger passes the check at its commit. -/
theorem Sound.commit {L : Ledger K A I} (hs : L.Sound) (xid : Nat) : L.commit xid = .ok () := by
  rw [Ledger.commit, constraint_ok]
  exact fun r hr _ => hs.balanced r.1 r.2 (Table.find?_eq_some.2 hr)

/-- Opening an account keeps the ledger sound: the new account has no lines. -/
theorem Sound.openAccount {L : Ledger K A I} (hs : L.Sound) (a : A) (kind : AccountKind) :
    (L.openAccount a kind).Sound := by
  unfold Ledger.openAccount
  split
  · rename_i h
    have hlines : L.lineSum a = 0 := by
      unfold lineSum
      apply List.sum_eq_zero
      intro x hx
      obtain ⟨l, hl, rfl⟩ := List.mem_map.1 hx
      have := (hs.owned l hl).2
      split
      · rename_i e
        rw [e, h] at this
        cases this
      · rfl
    refine ⟨?_, fun b row hrow => ?_, fun b row hrow hk => ?_, hs.balanced, hs.keys, fun l hl => ?_⟩
    · have := hs.total
      simp only [totalBalance, Table.sum_insert] at this ⊢
      omega
    · rcases Table.find?_insert_cases (h := h) hrow with ⟨rfl, rfl⟩ | ⟨-, hrow⟩
      · exact hlines.symm
      · exact hs.projection b row hrow
    · rcases Table.find?_insert_cases (h := h) hrow with ⟨rfl, rfl⟩ | ⟨-, hrow⟩
      · exact le_rfl
      · exact hs.nonneg b row hrow hk
    · obtain ⟨h1, h2⟩ := hs.owned l hl
      obtain ⟨row, hrow⟩ := Option.isSome_iff_exists.1 h2
      exact ⟨h1, by simp [Table.find?_insert_of_some hrow]⟩
  · exact hs

end Ledger

/-! ### Histories of postings -/

section History

variable {K A I : Type} [DecidableEq K] [DecidableEq A]

/-- One call of `post` with the identifier it draws. -/
structure PostCall (K A I : Type) where
  id : JournalId
  key : K
  info : I
  entries : List (A × Int)

/-- A ledger with the identifier of the next transaction. -/
structure LedgerState (K A I : Type) where
  books : Ledger K A I
  xid : Nat

/-- One call of `post` in its own transaction, with the deferred check at its commit. -/
def PostCall.transaction (le : A → A → Bool) (xid : Nat) (c : PostCall K A I)
    (L : Ledger K A I) : Except Failure (JournalId × Ledger K A I) := do
  let (id, L) ← L.post le xid c.id c.key c.info c.entries
  L.commit xid
  return (id, L)

/-- The histories of postings: from accounts with balance zero and an empty journal, each call
is committed, or rolled back when it fails. -/
def ledgerSystem (le : A → A → Bool) : Machine.System (LedgerState K A I) (PostCall K A I) where
  init s := (∀ a row, s.books.accounts.find? a = some row → row.balance = 0) ∧
    s.books.journal = Table.empty ∧ s.books.lines = []
  step c s :=
    { books := Checked.settle (Prod.snd <$> c.transaction le s.xid s.books) s.books
      xid := s.xid + 1 }

/-- The state after a call: as before, or with a journal entry posted. -/
theorem ledgerSystem_step_cases (le : A → A → Bool) (c : PostCall K A I) (s : LedgerState K A I) :
    ((ledgerSystem le).step c s).books = s.books ∨
      Ledger.Posted le s.xid s.books c.id c.key c.info c.entries
        ((ledgerSystem le).step c s).books := by
  rcases Checked.settle_cases (Prod.snd <$> c.transaction le s.xid s.books) s.books with
    ⟨L', hL', hset⟩ | hset
  · simp only [PostCall.transaction, Checked.map_ok, Checked.bind_ok, Checked.pure_ok] at hL'
    obtain ⟨⟨j, M⟩, ⟨⟨j', M'⟩, hpost, _, -, hM⟩, rfl⟩ := hL'
    simp only [Prod.mk.injEq] at hM
    obtain ⟨rfl, rfl⟩ := hM
    have hstep : ((ledgerSystem le).step c s).books = M' := hset
    rw [hstep]
    rcases Ledger.post_cases hpost with ⟨-, rfl⟩ | ⟨-, hp⟩
    · exact .inl rfl
    · exact .inr hp
  · exact .inl hset

/-- The invariant of the histories: a sound ledger, written by earlier transactions. -/
theorem ledgerSystem_sound {le : A → A → Bool} {s : LedgerState K A I}
    (h : Machine.Reachable (ledgerSystem le) s) :
    s.books.Sound ∧ ∀ j row, s.books.journal.find? j = some row → row.writerXid < s.xid := by
  refine h.invariant (P := fun s => s.books.Sound ∧ ∀ j row,
    s.books.journal.find? j = some row → row.writerXid < s.xid) (fun s hs => ?_) (fun s c _ ih => ?_)
  · obtain ⟨hzero, hj, hl⟩ := hs
    refine ⟨⟨?_, fun a row hrow => ?_, fun a row hrow _ => ?_, ?_, ?_, ?_⟩, ?_⟩
    · exact Table.sum_eq_zero fun a row hrow => hzero a row (Table.find?_eq_some.2 hrow)
    · rw [hzero a row hrow]; simp [Ledger.lineSum, hl]
    · rw [hzero a row hrow]
    all_goals simp [hj, hl]
  · obtain ⟨hs, hx⟩ := ih
    rcases ledgerSystem_step_cases le c s with h | h
    · rw [h]
      exact ⟨hs, fun j row hrow => Nat.lt_succ_of_lt (hx j row hrow)⟩
    · refine ⟨h.sound hs, fun j row hrow => ?_⟩
      rw [h.journal] at hrow
      rcases Table.find?_insert_cases hrow with ⟨-, rfl⟩ | ⟨-, hrow⟩
      · exact Nat.lt_succ_self _
      · exact Nat.lt_succ_of_lt (hx j row hrow)

/-- A call that re-uses a key commits, returns the entry of the key and changes nothing. -/
theorem transaction_of_findKey {le : A → A → Bool} {s : LedgerState K A I}
    (h : Machine.Reachable (ledgerSystem le) s) {c : PostCall K A I} {j : JournalId}
    (hj : s.books.findKey c.key = some j) :
    c.transaction le s.xid s.books = .ok (j, s.books) := by
  have hcommit := (ledgerSystem_sound h).1.commit s.xid
  unfold PostCall.transaction Ledger.post
  rw [hj]
  simp only [Checked.bind_ok, Checked.pure_ok]
  exact ⟨(j, s.books), rfl, (), hcommit, rfl⟩

/-- **The ledger projection.** After every history of committed and rejected postings the
balances sum to zero, each is the sum of its account's lines, none but the issuer's is negative,
and every journal entry has at least two lines that sum to zero. A posting under a key of the
journal returns that key's entry and changes nothing, and a rejected posting changes nothing.

**Proof sketch.** Soundness holds at the start and is kept by every posting (`ledgerSystem_sound`),
and it contains the first four parts. A posting under a known key returns before it writes, and a
failed one is rolled back. -/
theorem ledger_projection {le : A → A → Bool} {s : LedgerState K A I}
    (h : Machine.Reachable (ledgerSystem le) s) :
    s.books.totalBalance = 0 ∧
    (∀ a row, s.books.accounts.find? a = some row → row.balance = s.books.lineSum a) ∧
    (∀ a row, s.books.accounts.find? a = some row → row.kind ≠ .labIssuer → 0 ≤ row.balance) ∧
    (∀ j row, s.books.journal.find? j = some row →
      2 ≤ (s.books.linesOfJournal j).length ∧
        ((s.books.linesOfJournal j).map (·.amount)).sum = 0) ∧
    (∀ (c : PostCall K A I) j, s.books.findKey c.key = some j →
      c.transaction le s.xid s.books = .ok (j, s.books) ∧
        ((ledgerSystem le).step c s).books = s.books) ∧
    (∀ (c : PostCall K A I) e, c.transaction le s.xid s.books = .error e →
      ((ledgerSystem le).step c s).books = s.books) := by
  obtain ⟨hs, -⟩ := ledgerSystem_sound h
  refine ⟨hs.total, hs.projection, hs.nonneg, hs.balanced, fun c j hj => ?_, fun c e he => ?_⟩
  · have ht := transaction_of_findKey h hj
    exact ⟨ht, by simp only [ledgerSystem, ht]; rfl⟩
  · simp only [ledgerSystem, he]
    rfl

/-- An issuer and two users, before any posting. -/
def issuerAndUsers : LedgerState String Nat Unit :=
  ⟨⟨⟨[(0, ⟨.labIssuer, 0⟩), (1, ⟨.available, 0⟩), (2, ⟨.available, 0⟩)], by decide⟩,
    Table.empty, []⟩, 1⟩

/-- A grant, the same grant again, a transfer that names an account twice, an overdraft. -/
def grantAndTransfer : List (PostCall String Nat Unit) :=
  [⟨10, "grant", (), [(1, 100), (0, -100)]⟩, ⟨11, "grant", (), [(1, 100), (0, -100)]⟩,
    ⟨12, "transfer", (), [(2, 20), (1, -30), (2, 10), (0, 0)]⟩,
    ⟨13, "overdraft", (), [(2, 80), (1, -80)]⟩]

/-- The projection after a history with a duplicate and a rejected posting: two entries were
written, and the balances are those of their lines. -/
theorem ledger_projection_grantAndTransfer :
    let s := (ledgerSystem fun a b : Nat => a ≤ b).run issuerAndUsers grantAndTransfer
    s.books.journal.rows.map Prod.fst = [10, 12] ∧ s.books.balance 1 = 70 ∧
      s.books.totalBalance = 0 ∧
      ∀ a row, s.books.accounts.find? a = some row → row.balance = s.books.lineSum a := by
  have hinit : (ledgerSystem fun a b : Nat => a ≤ b).init issuerAndUsers :=
    ⟨fun a row h => by
      have hmem := Table.find?_eq_some.1 h
      simp only [issuerAndUsers, List.mem_cons, Prod.mk.injEq, List.not_mem_nil, or_false] at hmem
      rcases hmem with ⟨-, rfl⟩ | ⟨-, rfl⟩ | ⟨-, rfl⟩ <;> rfl, rfl, rfl⟩
  have h := ledger_projection (Machine.reachable_run (.init hinit) grantAndTransfer)
  exact ⟨by decide +kernel, by decide +kernel, h.1, h.2.1⟩

end History

end NetworkAi
