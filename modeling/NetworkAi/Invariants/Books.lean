import NetworkAi.Control.RenewalMoves

set_option relaxedAutoImplicit false
set_option autoImplicit false

/-!
# The books of the coordinator

What holds of the books in every reachable database, whatever the operations did: they are sound,
every business key of the journal belongs to a row that exists, and so a posting under the key of
a new row, of a further payment or of an end that has not come yet is never lost.

## Main definitions

* `NetworkAi.KeyOwner` — the row that a business key belongs to.
* `NetworkAi.Booking` — what is known of the books at every point of a transaction.

## Main results

* `NetworkAi.Change.keyOwner`, `NetworkAi.Change.key_cases` — owners stay, and a new key has one.
* `NetworkAi.reachable_booking` — the books are sound, and every key of the journal has its owner.
* `NetworkAi.reachable_of_booked_changes` — the induction that the other invariants use.
-/

namespace NetworkAi

open Relational

variable {env : Env} {req : Request} {tx : Tx} {db db' : Db}

/-! ### Soundness -/

/-- Opening the accounts of a user keeps the books sound. -/
theorem Ledger.Sound.createAccounts {books : Books} (hs : books.Sound) (u : UserId) :
    (createAccounts books u).Sound :=
  (hs.openAccount _ _).openAccount _ _

/-- **Every change keeps the books sound.** -/
theorem Change.sound (h : Change env req tx db db') (hs : db.books.Sound) : db'.books.Sound := by
  rcases h with h | h
  · cases h with
    | accounts u => exact hs.createAccounts u
    | granted _ hb => exact hb.sound hs
    | sessionCreated _ _ _ _ hb => exact hb.sound hs
    | sessionFinalized _ _ _ _ _ _ _ hb => exact hb.sound hs
    | consumptionRefunded _ _ _ hb => exact hb.sound hs
    | nodeLeaseOffered _ _ _ _ _ _ _ hb => exact hb.sound (hs.openAccount _ _)
    | nodeLeaseSampled _ _ _ _ _ _ hb => exact hb.sound hs
    | nodeLeaseClosed _ _ _ hb => exact hb.sound hs
    | routeOffered h _ => exact h.booked.sound (hs.openAccount _ _)
    | windowOffered h _ _ => exact h.booked.sound (hs.openAccount _ _)
    | routeSampled _ _ _ _ _ _ _ _ _ hb => exact hb.sound hs
    | routeClosed _ _ hb => exact hb.sound hs
    | poolCreated => exact ((hs.openAccount _ _).openAccount _ _).openAccount _ _
    | funded _ _ hb => exact hb.sound hs
    | _ => exact hs
  · cases h <;> exact hs

/-- **A journal entry stays** in the journal, with its lines. -/
theorem Change.journal_old (h : Change env req tx db db') (hs : db.books.Sound) {j : JournalId}
    {row : JournalRow BusinessKey PostInfo} (hj : db.books.journal.find? j = some row) :
    db'.books.journal.find? j = some row ∧
      db'.books.linesOfJournal j = db.books.linesOfJournal j := by
  -- the accounts that a change opens are no part of the journal
  have hopen : ∀ {a : AccountId} {kind : AccountKind} {books' : Books},
      books'.journal.find? j = some row ∧ books'.linesOfJournal j =
        (db.books.openAccount a kind).linesOfJournal j →
      books'.journal.find? j = some row ∧ books'.linesOfJournal j =
        db.books.linesOfJournal j := by
    intro a kind books' hbooks
    simpa [Ledger.linesOfJournal] using hbooks
  rcases h with h | h
  · cases h with
    | accounts u => simpa [createAccounts, Ledger.linesOfJournal] using hj
    | granted _ hb => exact hb.journal_old hs hj
    | sessionCreated _ _ _ _ hb => exact hb.journal_old hs hj
    | sessionFinalized _ _ _ _ _ _ _ hb => exact hb.journal_old hs hj
    | consumptionRefunded _ _ _ hb => exact hb.journal_old hs hj
    | nodeLeaseOffered _ _ _ _ _ _ _ hb =>
      exact hopen (hb.journal_old (hs.openAccount _ _) (by simpa using hj))
    | nodeLeaseSampled _ _ _ _ _ _ hb => exact hb.journal_old hs hj
    | nodeLeaseClosed _ _ _ hb => exact hb.journal_old hs hj
    | routeOffered h _ =>
      exact hopen (h.booked.journal_old (hs.openAccount _ _) (by simpa using hj))
    | windowOffered h _ _ =>
      exact hopen (h.booked.journal_old (hs.openAccount _ _) (by simpa using hj))
    | routeSampled _ _ _ _ _ _ _ _ _ hb => exact hb.journal_old hs hj
    | routeClosed _ _ hb => exact hb.journal_old hs hj
    | poolCreated => simpa [Ledger.linesOfJournal] using hj
    | funded _ _ hb => exact hb.journal_old hs hj
    | _ => exact ⟨hj, rfl⟩
  · cases h <;> exact ⟨hj, rfl⟩

/-- An entry under a key stays, with its lines. -/
theorem Change.entered (h : Change env req tx db db') (hs : db.books.Sound) {key : BusinessKey}
    {entries : List (AccountId × Int)} (he : Entered env db.books key entries) :
    Entered env db'.books key entries := by
  obtain ⟨j, hj, hlines⟩ := he
  obtain ⟨row, hrow, rfl⟩ := Ledger.findKey_eq_some hj
  obtain ⟨hrow', hlines'⟩ := h.journal_old hs hrow
  exact ⟨j, (h.sound hs).keys j row hrow', hlines'.trans hlines⟩

/-- The books of the initial database. -/
theorem initial_sound (admin : UserId) : (Db.initial admin).books.Sound := by
  show (createAccounts ⟨⟨[(.issuer, ⟨.labIssuer, 0⟩), (.labWorking, ⟨.working, 0⟩)], by simp⟩,
    Table.empty, []⟩ admin).Sound
  refine Ledger.Sound.createAccounts ⟨?_, fun a row hrow => ?_, fun a row hrow _ => ?_,
    fun j row hrow => ?_, fun j row hrow => ?_, fun l hl => ?_⟩ admin
  · rfl
  · have hmem := Table.find?_eq_some.1 hrow
    simp only [List.mem_cons, Prod.mk.injEq, List.not_mem_nil, or_false] at hmem
    rcases hmem with ⟨-, rfl⟩ | ⟨-, rfl⟩ <;> rfl
  · have hmem := Table.find?_eq_some.1 hrow
    simp only [List.mem_cons, Prod.mk.injEq, List.not_mem_nil, or_false] at hmem
    rcases hmem with ⟨-, rfl⟩ | ⟨-, rfl⟩ <;> exact le_rfl
  · simp at hrow
  · simp at hrow
  · simp at hl

/-! ### The owners of business keys -/

/-- The row that a business key belongs to: a key is used when the row is created, when it pays,
or when it ends. -/
def KeyOwner (db : Db) : BusinessKey → Prop
  | .hold id => ∃ s, db.sessions.find? id = some s
  | .settle id => ∃ s, db.sessions.find? id = some s ∧ s.state.terminal = true
  | .grant _ => True
  | .leaseFund id => ∃ l, db.nodeLeases.find? id = some l
  | .leasePay id credited => ∃ l, db.nodeLeases.find? id = some l ∧ credited ≤ l.credited
  | .leaseRefund id => ∃ l, db.nodeLeases.find? id = some l ∧ l.state.isOpen = false
  | .routeFund id => ∃ l, db.routeLeases.find? id = some l
  | .routePay id paid => ∃ l, db.routeLeases.find? id = some l ∧
      paid ≤ (l.members.map (·.paid)).sum
  | .routeRefund id => ∃ l, db.routeLeases.find? id = some l ∧ l.state.funded = false
  | .coopFunding id => ∃ f, db.fundings.find? id = some f
  | .coopRefund id => ∃ r, db.refunds.find? id = some r
  | .bootstrap => True

/-- **Owners stay**: no row is deleted, no earning shrinks, and what has ended has ended.

**Proof sketch.** By the key. No table loses a row; what has ended stays ended, and the amounts that
the keys of payments count to only grow. -/
theorem Change.keyOwner (h : Change env req tx db db') {key : BusinessKey} (hk : KeyOwner db key) :
    KeyOwner db' key := by
  cases key with
  | hold id =>
    obtain ⟨s, hs⟩ := hk
    obtain ⟨s', hs', -⟩ := h.sessions.old hs
    exact ⟨s', hs'⟩
  | settle id =>
    obtain ⟨s, hs, ht⟩ := hk
    obtain ⟨s', hs', hkeeps⟩ := h.sessions.old hs
    exact ⟨s', hs', by rw [hkeeps.ended ht]; exact ht⟩
  | leaseFund id =>
    obtain ⟨l, hl⟩ := hk
    obtain ⟨l', hl', -⟩ := h.nodeLeases.old hl
    exact ⟨l', hl'⟩
  | leasePay id credited =>
    obtain ⟨l, hl, hc⟩ := hk
    obtain ⟨l', hl', hkeeps⟩ := h.nodeLeases.old hl
    exact ⟨l', hl', hc.trans hkeeps.credited⟩
  | leaseRefund id =>
    obtain ⟨l, hl, he⟩ := hk
    obtain ⟨l', hl', hkeeps⟩ := h.nodeLeases.old hl
    exact ⟨l', hl', by rw [hkeeps.ended he]; exact he⟩
  | routeFund id =>
    obtain ⟨l, hl⟩ := hk
    obtain ⟨l', hl', -⟩ := h.routeLeases.old hl
    exact ⟨l', hl'⟩
  | routePay id paid =>
    obtain ⟨l, hl, hp⟩ := hk
    obtain ⟨l', hl', hkeeps⟩ := h.routeLeases.old hl
    exact ⟨l', hl', hp.trans hkeeps.earned⟩
  | routeRefund id =>
    obtain ⟨l, hl, he⟩ := hk
    obtain ⟨l', hl', hkeeps⟩ := h.routeLeases.old hl
    exact ⟨l', hl', by rw [hkeeps.ended he]; exact he⟩
  | coopFunding id =>
    obtain ⟨f, hf⟩ := hk
    obtain ⟨f', hf', -⟩ := h.frozen.2.1.old hf
    exact ⟨f', hf'⟩
  | coopRefund id =>
    obtain ⟨r, hr⟩ := hk
    obtain ⟨r', hr', -⟩ := h.frozen.2.2.2.old hr
    exact ⟨r', hr'⟩
  | grant | bootstrap => trivial

/-- A key of the journal after a posting is its own or an old one. -/
theorem Booked.key_cases {xid : Nat} {books books' : Books} {key : BusinessKey}
    {entries : List (AccountId × Int)} (h : Booked env xid books key entries books')
    {k : BusinessKey} (hk : books'.findKey k ≠ none) : k = key ∨ books.findKey k ≠ none := by
  by_cases e : k = key
  · exact .inl e
  · exact .inr fun hn => hk ((h.findKey_ne e).2 hn)

/-- A key that the books hold after a posting is the posting's own, or an old one. -/
theorem BookedIf.key_cases {c : Prop} {xid : Nat} {books books' : Books} {key : BusinessKey}
    {entries : List (AccountId × Int)} (h : BookedIf c env xid books key entries books')
    {k : BusinessKey} (hk : books'.findKey k ≠ none) : k = key ∨ books.findKey k ≠ none := by
  rcases h with ⟨-, hb⟩ | ⟨-, rfl⟩
  · exact hb.key_cases hk
  · exact .inr hk

/-- **The keys of the journal after a change** are old ones, or belong to the row that the change
wrote.

**Proof sketch.** By the move. Each posts under one key at most, and writes the row that this key
belongs to. -/
theorem Change.key_cases (h : Change env req tx db db') {k : BusinessKey}
    (hk : db'.books.findKey k ≠ none) : db.books.findKey k ≠ none ∨ KeyOwner db' k := by
  rcases h with h | h
  · cases h with
    | accounts u => exact .inl (by simpa [createAccounts] using hk)
    | granted hkey hb =>
      rcases hb.key_cases hk with rfl | hold
      · rcases hkey with rfl | ⟨_, rfl⟩ <;> exact .inr trivial
      · exact .inl hold
    | sessionCreated hid _ _ _ hb =>
      rcases hb.key_cases hk with rfl | hold
      · exact .inr ⟨_, Table.find?_insert_self (h := hid)⟩
      · exact .inl hold
    | @sessionFinalized _ _ _ _ _ state _ _ _ _ _ _ hs _ _ _ _ _ _ hb =>
      rcases hb.key_cases hk with rfl | hold
      · exact .inr ⟨_, Table.find?_set_self hs, by cases state <;> rfl⟩
      · exact .inl hold
    | consumptionRefunded _ _ hid hb =>
      rcases hb.key_cases hk with rfl | hold
      · exact .inr ⟨_, Table.find?_insert_self (h := hid)⟩
      · exact .inl hold
    | nodeLeaseOffered hid _ _ _ _ _ _ hb =>
      rcases hb.key_cases hk with rfl | hold
      · exact .inr ⟨_, Table.find?_insert_self (h := hid)⟩
      · exact .inl (by simpa using hold)
    | nodeLeaseSampled hrow _ _ _ _ _ hb =>
      rcases hb.key_cases hk with rfl | hold
      · exact .inr ⟨_, Table.find?_set_self hrow, le_rfl⟩
      · exact .inl hold
    | nodeLeaseClosed hrow _ hstate hb =>
      rcases hb.key_cases hk with rfl | hold
      · exact .inr ⟨_, Table.find?_set_self hrow, hstate⟩
      · exact .inl hold
    | routeOffered h _ =>
      rcases h.booked.key_cases hk with rfl | hold
      · exact .inr ⟨_, Table.find?_insert_self (h := h.id)⟩
      · exact .inl (by simpa using hold)
    | windowOffered h _ _ =>
      rcases h.booked.key_cases hk with rfl | hold
      · exact .inr ⟨_, Table.find?_insert_self (h := h.id)⟩
      · exact .inl (by simpa using hold)
    | routeSampled hrow _ _ _ _ _ _ hsampled _ hb =>
      rcases hb.key_cases hk with rfl | hold
      · refine .inr ⟨_, Table.find?_set_self hrow, le_of_eq ?_⟩
        rw [hsampled]
        simp only [RouteLease.sampled, List.map_map, Function.comp_def]
      · exact .inl hold
    | routeClosed hrow hend hb =>
      rcases hb.key_cases hk with rfl | hold
      · refine .inr ⟨_, Table.find?_set_self hrow, ?_⟩
        rcases hend with ⟨-, -, rfl | ⟨rfl, -⟩⟩ | ⟨-, -, rfl, -⟩ <;> rfl
      · exact .inl hold
    | poolCreated => exact .inl (by simpa using hk)
    | funded hid _ hb =>
      rcases hb.key_cases hk with rfl | hold
      · exact .inr ⟨_, Table.find?_insert_self (h := hid)⟩
      · exact .inl hold
    | _ => exact .inl hk
  · cases h <;> exact .inl hk

/-- What is known of the books at every point of a transaction. -/
structure Booking (db : Db) : Prop where
  sound : db.books.Sound
  keys : ∀ key, db.books.findKey key ≠ none → KeyOwner db key

/-- A key whose owner does not exist is fresh. -/
theorem Booking.fresh (h : Booking db) {key : BusinessKey} (hk : ¬ KeyOwner db key) :
    db.books.findKey key = none := by
  by_contra hn
  exact hk (h.keys key hn)

/-- A change keeps the books in order. -/
theorem Change.booking (h : Change env req tx db db') (hb : Booking db) : Booking db' where
  sound := h.sound hb.sound
  keys key hk := by
    rcases h.key_cases hk with hold | hnew
    · exact h.keyOwner (hb.keys key hold)
    · exact hnew

/-- The books of an empty database are in order. -/
theorem initial_booking (admin : UserId) : Booking (Db.initial admin) where
  sound := initial_sound admin
  keys key hk := by
    refine absurd ?_ hk
    simp only [Db.initial, createAccounts, findKey_openAccount]
    rfl

/-- **The books of every reachable database** are sound, and every key has its owner. -/
theorem reachable_booking (h : Machine.Reachable (controlSystem env) db) : Booking db :=
  reachable_of_changes initial_booking (fun _ _ _ _ hb hc => hc.booking hb) h

/-- The induction over reachable databases, with what is known of the books. -/
theorem reachable_of_booked_changes {P : Db → Prop} (h0 : ∀ admin, P (Db.initial admin))
    (hc : ∀ req tx db db', Booking db → P db → Change env req tx db db' → P db')
    (h : Machine.Reachable (controlSystem env) db) : P db :=
  (reachable_of_changes (P := fun db => Booking db ∧ P db)
    (fun admin => ⟨initial_booking admin, h0 admin⟩)
    (fun req tx db db' hp hch => ⟨hch.booking hp.1, hc req tx db db' hp.1 hp.2 hch⟩) h).2

/-- The induction along a run, from any database: what every change preserves. -/
theorem run_of_changes {P : Db → Prop}
    (hc : ∀ req tx db db', P db → Change env req tx db db' → P db')
    (hp : P db) (is : List (Tx × Request)) : P ((controlSystem env).run db is) := by
  induction is generalizing db with
  | nil => exact hp
  | cons i is ih =>
    exact ih ((step_changes i db).preserves (fun a b hab ha => hc i.2 i.1 a b ha hab) hp)

/-! ### Accounts -/

/-- **The accounts of the coordinator**: only the issuer may owe, and every balance fits its
column. -/
def Solvent (books : Books) : Prop :=
  ∀ a row, books.accounts.find? a = some row →
    (a ≠ .issuer → row.kind ≠ .labIssuer) ∧ fitsBigint row.balance

/-- A posting keeps the kinds of accounts, and what it writes fits. -/
theorem Solvent.booked {xid : Nat} {books books' : Books} {key : BusinessKey}
    {entries : List (AccountId × Int)} (hs : Solvent books)
    (h : Booked env xid books key entries books') : Solvent books' := by
  cases h with
  | known => exact hs
  | posted hp =>
    intro a row hrow
    obtain ⟨old, hold, hkind⟩ := hp.kind hrow
    refine ⟨fun hne => hkind ▸ (hs a old hold).1 hne, ?_⟩
    rcases hp.fits a row hrow with hsame | hfits
    · exact (hs a row hsame).2
    · exact hfits

/-- A posting keeps the books solvent. -/
theorem Solvent.bookedIf {c : Prop} {xid : Nat} {books books' : Books} {key : BusinessKey}
    {entries : List (AccountId × Int)} (hs : Solvent books)
    (h : BookedIf c env xid books key entries books') : Solvent books' := by
  rcases h with ⟨-, hb⟩ | ⟨-, rfl⟩
  · exact hs.booked hb
  · exact hs

/-- An opened account keeps the books solvent, unless it is the issuer's. -/
theorem Solvent.openAccount {books : Books} (hs : Solvent books) (a : AccountId)
    {kind : AccountKind} (hkind : kind ≠ .labIssuer) : Solvent (books.openAccount a kind) := by
  intro b row hrow
  unfold Ledger.openAccount at hrow
  split at hrow
  · rename_i hnew
    rcases Table.find?_insert_cases (h := hnew) hrow with ⟨-, rfl⟩ | ⟨-, hold⟩
    · exact ⟨fun _ => hkind, show fitsBigint 0 from ⟨by decide, by decide⟩⟩
    · exact hs b row hold
  · exact hs b row hrow

/-- **Every change keeps the accounts.** -/
theorem Change.solvent (h : Change env req tx db db') (hs : Solvent db.books) :
    Solvent db'.books := by
  rcases h with h | h
  · cases h with
    | accounts u => exact (hs.openAccount _ (by decide)).openAccount _ (by decide)
    | granted _ hb => exact hs.booked hb
    | sessionCreated _ _ _ _ hb => exact hs.bookedIf hb
    | sessionFinalized _ _ _ _ _ _ _ hb => exact hs.bookedIf hb
    | consumptionRefunded _ _ _ hb => exact hs.booked hb
    | nodeLeaseOffered _ _ _ _ _ _ _ hb => exact (hs.openAccount _ (by decide)).booked hb
    | nodeLeaseSampled _ _ _ _ _ _ hb => exact hs.bookedIf hb
    | nodeLeaseClosed _ _ _ hb => exact hs.bookedIf hb
    | routeOffered h _ => exact (hs.openAccount _ (by decide)).booked h.booked
    | windowOffered h _ _ => exact (hs.openAccount _ (by decide)).booked h.booked
    | routeSampled _ _ _ _ _ _ _ _ _ hb => exact hs.bookedIf hb
    | routeClosed _ _ hb => exact hs.bookedIf hb
    | poolCreated =>
      exact ((hs.openAccount _ (by decide)).openAccount _ (by decide)).openAccount _ (by decide)
    | funded _ _ hb => exact hs.booked hb
    | _ => exact hs
  · cases h <;> exact hs

/-- The books of an empty database are solvent. -/
theorem initial_solvent (admin : UserId) : Solvent (Db.initial admin).books := by
  have hfirst : Solvent ⟨⟨[(.issuer, ⟨.labIssuer, 0⟩), (.labWorking, ⟨.working, 0⟩)], by simp⟩,
      Table.empty, []⟩ := by
    intro a row hrow
    have hmem := Table.find?_eq_some.1 hrow
    simp only [List.mem_cons, Prod.mk.injEq, List.not_mem_nil, or_false] at hmem
    rcases hmem with ⟨rfl, rfl⟩ | ⟨-, rfl⟩
    · exact ⟨fun hne => absurd rfl hne, by decide, by decide⟩
    · exact ⟨fun _ => AccountKind.noConfusion, by decide, by decide⟩
  exact (hfirst.openAccount _ (by decide)).openAccount _ (by decide)

/-- The books of every reachable database are solvent. -/
theorem reachable_solvent (h : Machine.Reachable (controlSystem env) db) : Solvent db.books :=
  reachable_of_changes initial_solvent (fun _ _ _ _ hs hc => hc.solvent hs) h

/-- **No account but the issuer's owes anything**, and every balance fits its column. -/
theorem reachable_balance (h : Machine.Reachable (controlSystem env) db) {a : AccountId}
    (ha : a ≠ .issuer) : 0 ≤ db.books.balance a ∧ db.books.balance a ≤ maxAmount := by
  cases hrow : db.books.accounts.find? a with
  | none =>
    rw [Ledger.balance_eq_zero hrow]
    decide
  | some row =>
    rw [Ledger.balance_eq hrow]
    obtain ⟨hkind, hfits⟩ := reachable_solvent h a row hrow
    exact ⟨(reachable_booking h).sound.nonneg a row hrow (hkind ha), hfits.2⟩

end NetworkAi
