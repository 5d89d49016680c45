import NetworkAi.Ledger.Projection

set_option relaxedAutoImplicit false
set_option autoImplicit false

/-!
# When a posting succeeds

A posting under a new key and a new identifier, whose entries cancel out, move something and fit the
columns, succeeds as soon as every account that it moves exists and covers what leaves it.

## Main definitions

* `NetworkAi.Ledger.Covers` — the accounts cover the entries.
* `NetworkAi.Ledger.Unused`, `NetworkAi.Ledger.FreshFrom` — the identifiers that no entry of the
  journal has.

## Main results

* `NetworkAi.Ledger.post_of_covers` — such a posting succeeds.
-/

namespace NetworkAi

open Relational

namespace Ledger

variable {K A I : Type} [DecidableEq K] [DecidableEq A]

/-- Every account that the entries move exists and covers what leaves it, and the amounts fit. -/
def Covers (L : Ledger K A I) (entries : List (A × Int)) : Prop :=
  ∀ a, entrySum a entries ≠ 0 → ∃ row, L.accounts.find? a = some row ∧
    0 ≤ row.balance + entrySum a entries ∧ row.balance + entrySum a entries ≤ maxAmount ∧
    entrySum a entries ≤ maxAmount ∧ -maxAmount ≤ entrySum a entries

/-- Entries of distinct accounts are covered one by one. -/
theorem covers_of_entries {L : Ledger K A I} {entries : List (A × Int)}
    (hnodup : (entries.map Prod.fst).Nodup)
    (h : ∀ e ∈ entries, e.2 ≠ 0 → (L.accounts.find? e.1).isSome ∧ 0 ≤ L.balance e.1 + e.2 ∧
      L.balance e.1 + e.2 ≤ maxAmount ∧ e.2 ≤ maxAmount ∧ -maxAmount ≤ e.2) : L.Covers entries := by
  intro a ha
  have hmem : ∃ e ∈ entries, e.1 = a := by
    by_contra hnone
    exact ha (entrySum_eq_zero fun e he hea => hnone ⟨e, he, hea⟩)
  obtain ⟨e, he, rfl⟩ := hmem
  have hsum : entrySum e.1 entries = e.2 := entrySum_of_mem hnodup he
  rw [hsum] at ha ⊢
  obtain ⟨hsome, hcovered⟩ := h e he ha
  obtain ⟨row, hrow⟩ := Option.isSome_iff_exists.1 hsome
  rw [balance_eq hrow] at hcovered
  exact ⟨row, hrow, hcovered⟩

/-- No entry and no line of the journal has the identifier. -/
def Unused (L : Ledger K A I) (id : JournalId) : Prop :=
  L.journal.find? id = none ∧ ∀ line ∈ L.lines, line.journalId ≠ id

/-- In a sound ledger, an identifier that no entry has is unused. -/
theorem Sound.unused {L : Ledger K A I} (hs : L.Sound) {id : JournalId}
    (h : L.journal.find? id = none) : L.Unused id := by
  refine ⟨h, fun line hline hid => ?_⟩
  have howned := (hs.owned line hline).1
  rw [hid, h] at howned
  cases howned

/-- No entry and no line of the journal has a number from `n` on. -/
def FreshFrom (L : Ledger K A I) (n : JournalId) : Prop :=
  (∀ j, n ≤ j → L.journal.find? j = none) ∧ ∀ line ∈ L.lines, line.journalId < n

omit [DecidableEq K] [DecidableEq A] in
/-- A journal identifier at the mark is unused. -/
theorem FreshFrom.unused {L : Ledger K A I} {n : JournalId} (h : L.FreshFrom n) : L.Unused n :=
  ⟨h.1 n le_rfl, fun line hline => Nat.ne_of_lt (h.2 line hline)⟩

/-- A posting uses up one number. -/
theorem Posted.freshFrom {le : A → A → Bool} {xid : Nat} {L L' : Ledger K A I} {n : JournalId}
    {key : K} {info : I} {entries : List (A × Int)} (h : Posted le xid L n key info entries L')
    (hfresh : L.FreshFrom n) : L'.FreshFrom (n + 1) := by
  refine ⟨fun j hj => ?_, fun line hline => ?_⟩
  · rw [h.journal, Table.find?_insert_ne (Nat.ne_of_lt hj)]
    exact hfresh.1 j (Nat.le_of_succ_le hj)
  · rw [h.lines] at hline
    rcases List.mem_append.1 hline with hline | hline
    · exact Nat.lt_succ_of_lt (hfresh.2 line hline)
    · obtain ⟨l, -, rfl⟩ := List.mem_map.1 hline
      exact Nat.lt_succ_self n

/-- Entries that cancel out and move something have two lines. -/
theorem two_le_length_linesOf (le : A → A → Bool) {entries : List (A × Int)} {a : A}
    (hzero : (entries.map Prod.snd).sum = 0) (ha : entrySum a entries ≠ 0) :
    2 ≤ (linesOf le entries).length := by
  have hline := linesOf_of_entrySum_ne_zero le ha
  have hsum := sum_linesOf le entries
  rw [hzero] at hsum
  cases hlines : linesOf le entries with
  | nil =>
    rw [hlines] at hline
    cases hline
  | cons x l =>
    cases l with
    | nil =>
      rw [hlines] at hline hsum
      obtain rfl := List.mem_singleton.1 hline
      simp only [List.map_cons, List.map_nil, List.sum_cons, List.sum_nil, add_zero] at hsum
      exact absurd hsum ha
    | cons y l => simp

omit [DecidableEq K] in
/-- The trigger accepts lines of one entry whose accounts are distinct and cover them.

**Proof sketch.** Induction on the lines. The first one is accepted, as its account has no line of
the entry and covers it. The accounts are distinct, so that the others cover their lines as before.
-/
theorem foldlM_applyJournalLine_of_covered (xid : Nat) (id : JournalId) :
    ∀ (lines : List (A × Int)) (L : Ledger K A I),
      (∃ row, L.journal.find? id = some row ∧ row.writerXid = xid) →
      (∀ l ∈ L.lines, l.journalId = id → l.accountId ∉ lines.map Prod.fst) →
      (lines.map Prod.fst).Nodup →
      (∀ line ∈ lines, line.2 ≠ 0 ∧ fitsBigint line.2) →
      (∀ line ∈ lines, ∃ row, L.accounts.find? line.1 = some row ∧
        ({ row with balance := row.balance + line.2 } : Account).Valid) →
      ∃ L', lines.foldlM (fun L line => applyJournalLine xid L ⟨id, line.1, line.2⟩) L = .ok L'
  | [], L, _, _, _, _, _ => ⟨L, rfl⟩
  | (a, v) :: lines, L, hjournal, hlines, hnodup, hfits, hcovered => by
    obtain ⟨row, hrow, hxid⟩ := hjournal
    obtain ⟨account, haccount, hvalid⟩ := hcovered (a, v) List.mem_cons_self
    rw [List.map_cons, List.nodup_cons] at hnodup
    let L₁ : Ledger K A I := { L with
      accounts := L.accounts.set a { account with balance := account.balance + v }
      lines := L.lines ++ [⟨id, a, v⟩] }
    have hfirst : applyJournalLine xid L ⟨id, a, v⟩ = .ok L₁ := by
      have hother : ∀ l ∈ L.lines, l.journalId = id → l.accountId ≠ a := by
        rintro l hl hid rfl
        exact hlines l hl hid List.mem_cons_self
      unfold applyJournalLine
      simp only [Checked.bind_ok, constraint_ok, reference_ok, Checked.pure_ok, exists_const]
      exact ⟨hfits _ List.mem_cons_self, hother, row, hrow, hxid, account, haccount, hvalid, rfl⟩
    obtain ⟨L', hL'⟩ := foldlM_applyJournalLine_of_covered xid id lines L₁ ⟨row, hrow, hxid⟩
      (by
        intro l hl hid
        rcases List.mem_append.1 hl with hl | hl
        · exact fun hmem => hlines l hl hid (List.mem_cons_of_mem _ hmem)
        · obtain rfl := List.mem_singleton.1 hl
          exact hnodup.1)
      hnodup.2 (fun line hline => hfits line (List.mem_cons_of_mem _ hline))
      (by
        intro line hline
        obtain ⟨r, hr, hv⟩ := hcovered line (List.mem_cons_of_mem _ hline)
        have hne : line.1 ≠ a := by
          intro he
          exact hnodup.1 (he ▸ List.mem_map.2 ⟨line, hline, rfl⟩)
        exact ⟨r, (Table.find?_set_ne hne).trans hr, hv⟩)
    refine ⟨L', ?_⟩
    rw [List.foldlM_cons, Checked.bind_ok]
    exact ⟨L₁, hfirst, hL'⟩

/-- **A covered posting succeeds.**

**Proof sketch.** The normalised lines are the sums of the entries on distinct accounts, each not
zero. So the checks of `post` pass, the entry is inserted under its new key, and the trigger accepts
all lines. -/
theorem post_of_covers (le : A → A → Bool) (xid : Nat) {L : Ledger K A I} {id : JournalId} {key : K}
    (info : I) (entries : List (A × Int)) {a : A} (hkey : L.findKey key = none)
    (hunused : L.Unused id) (hzero : (entries.map Prod.snd).sum = 0) (ha : entrySum a entries ≠ 0)
    (hcovers : L.Covers entries) :
    ∃ L', post le xid L id key info entries = .ok (id, L') ∧
      Posted le xid L id key info entries L' := by
  obtain ⟨hid, hlines⟩ := hunused
  have hcovered : ∀ line ∈ linesOf le entries, ∃ row, L.accounts.find? line.1 = some row ∧
      0 ≤ row.balance + line.2 ∧ row.balance + line.2 ≤ maxAmount ∧
      line.2 ≤ maxAmount ∧ -maxAmount ≤ line.2 := by
    intro line hline
    have hsum := mem_linesOf_amount le hline
    have hne : entrySum line.1 entries ≠ 0 := hsum ▸ (mem_linesOf le hline).1
    rw [hsum]
    exact hcovers line.1 hne
  have hcheck : (linesOf le entries).forM (checkLine L) = .ok () := by
    have hall : ∀ lines : List (A × Int), (∀ line ∈ lines, ∃ row,
        L.accounts.find? line.1 = some row ∧ 0 ≤ row.balance + line.2) →
        lines.forM (checkLine L) = .ok () := by
      intro lines
      induction lines with
      | nil => exact fun _ => rfl
      | cons line lines ih =>
        intro h
        obtain ⟨row, hrow, hbalance⟩ := h line List.mem_cons_self
        have hone : checkLine L line = .ok () := by
          unfold checkLine
          simp only [Checked.bind_ok, needRow_ok, need_ok]
          exact ⟨row, hrow, .inr hbalance⟩
        show (checkLine L line >>= fun _ => lines.forM (checkLine L)) = .ok ()
        rw [Checked.bind_ok]
        exact ⟨(), hone, ih fun l hl => h l (List.mem_cons_of_mem _ hl)⟩
    refine hall _ fun line hline => ?_
    obtain ⟨row, hrow, hbalance, -⟩ := hcovered line hline
    exact ⟨row, hrow, hbalance⟩
  let M : Ledger K A I := { L with journal := L.journal.insert id ⟨key, info, xid⟩ hid }
  have hinsert : insertJournal L id ⟨key, info, xid⟩ = .ok M := by
    unfold insertJournal
    simp only [Checked.bind_ok, constraint_ok, reference_ok, Checked.pure_ok, exists_const]
    exact ⟨hkey, _, Table.insert?_eq_some.2 ⟨hid, rfl⟩, rfl⟩
  obtain ⟨L', hL'⟩ := foldlM_applyJournalLine_of_covered xid id (linesOf le entries) M
    ⟨_, Table.find?_insert_self (h := hid), rfl⟩ (fun l hl hid' => absurd hid' (hlines l hl))
    (nodup_linesOf le entries)
    (by
      intro line hline
      obtain ⟨row, -, -, -, hmax, hmin⟩ := hcovered line hline
      refine ⟨(mem_linesOf le hline).1, ?_⟩
      unfold fitsBigint
      unfold maxAmount at hmax hmin
      omega)
    (by
      intro line hline
      obtain ⟨row, hrow, hbalance, hfits, -⟩ := hcovered line hline
      refine ⟨row, hrow, .inl hbalance, ?_⟩
      show fitsBigint (row.balance + line.2)
      unfold fitsBigint
      unfold maxAmount at hfits
      omega)
  have hpost : post le xid L id key info entries = .ok (id, L') := by
    unfold post
    rw [hkey]
    simp only [Checked.bind_ok, need_ok, Checked.pure_ok, Prod.mk.injEq, exists_const]
    refine ⟨⟨two_le_length_linesOf le hzero ha, by rw [sum_linesOf, hzero]⟩, ?_, (), hcheck, M,
      hinsert, L', hL', trivial, rfl⟩
    intro line hline
    obtain ⟨row, -, -, -, hmax, hmin⟩ := hcovered line hline
    exact ⟨hmax, hmin⟩
  refine ⟨L', hpost, ?_⟩
  rcases post_cases hpost with ⟨hknown, -⟩ | ⟨-, hposted⟩
  · rw [hkey] at hknown
    cases hknown
  · exact hposted

end Ledger

end NetworkAi
