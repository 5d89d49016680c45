import NetworkAi.Invariants.Books

set_option relaxedAutoImplicit false
set_option autoImplicit false

/-!
# Held funds

A session holds its maximum price while it is open. The held account of a user is what the open
sessions of the user hold; the hold of a session leaves that account in one posting, when the
session ends, and a session that has ended stays as it is.

## Main definitions

* `NetworkAi.heldFunds` — what the open sessions of a user hold.
* `NetworkAi.HeldEntries` — the entries of the journal, as far as held accounts are concerned.
* `NetworkAi.HoldReleased` — how the hold of a session left its held account.

## Main results

* `NetworkAi.Change.held_cases` — the changes that concern held accounts: a session is created, or
  it ends.
* `NetworkAi.held_funds` — the invariant of held funds.
-/

namespace NetworkAi

open Relational

variable {env : Env} {req : Request} {tx : Tx} {db db' : Db}

/-! ### What is held -/

/-- What a session holds of a user: its hold while it is open. -/
def Session.heldOf (s : Session) (u : UserId) : Int :=
  if s.userId = u ∧ s.state.terminal = false then s.hold else 0

/-- What the open sessions of a user hold. -/
def heldFunds (db : Db) (u : UserId) : Int := db.sessions.sum fun _ s => s.heldOf u

/-- The postings that move holds. -/
def BusinessKey.movesHold : BusinessKey → Bool
  | .hold _ | .settle _ => true
  | _ => false

/-- Entries that name no held account. -/
def Unheld (entries : List (AccountId × Int)) : Prop := ∀ e ∈ entries, ∀ u, e.1 ≠ .held u

/-- The entries of a hold. -/
def reserveEntries (s : Session) : List (AccountId × Int) :=
  [(.available s.userId, -s.hold), (.held s.userId, s.hold)]

/-- **The entries of a journal entry, as far as held accounts are concerned**: the hold of a
session, its end, or entries that name no held account. -/
inductive HeldEntries (db : Db) : BusinessKey → List (AccountId × Int) → Prop
  | hold {id : SessionId} {s : Session} (hs : db.sessions.find? id = some s) :
      HeldEntries db (.hold id) (reserveEntries s)
  | settle {id : SessionId} {s : Session} {payees : List (AccountId × Int)}
      (hs : db.sessions.find? id = some s) (hended : s.state.terminal = true)
      (hpayees : Unheld payees) (hfree : s.charged = 0 → payees = []) :
      HeldEntries db (.settle id) (holdEntries s s.charged ++ payees)
  | apart {key : BusinessKey} {entries : List (AccountId × Int)} (hkey : key.movesHold = false)
      (h : Unheld entries) : HeldEntries db key entries

/-- A posting apart from the held accounts. -/
structure Apart (env : Env) (books books' : Books) : Prop where
  balance : ∀ u, books'.balance (.held u) = books.balance (.held u)
  keys : ∀ id, books'.findKey (.settle id) = none → books.findKey (.settle id) = none
  journal : ∀ j row, books'.journal.find? j = some row →
    (books.journal.find? j = some row ∧ books'.linesOfJournal j = books.linesOfJournal j) ∨
      ∃ entries, row.businessKey.movesHold = false ∧ Unheld entries ∧ books'.linesOfJournal j =
        Ledger.storedLines j (Ledger.linesOf env.accountLe entries)

/-- No posting is apart from the held accounts. -/
theorem Apart.refl (books : Books) : Apart env books books :=
  ⟨fun _ => rfl, fun _ => id, fun _ _ hj => .inl ⟨hj, rfl⟩⟩

/-- Opening an account is apart from the held accounts. -/
theorem Apart.openAccount {books books' : Books} {a : AccountId} {kind : AccountKind}
    (h : Apart env (books.openAccount a kind) books') : Apart env books books' where
  balance u := by rw [h.balance, balance_openAccount]
  keys id hk := by simpa using h.keys id hk
  journal j row hj := by
    simpa [Ledger.linesOfJournal] using h.journal j row hj

/-- A posting is apart from the held accounts when its key and its entries are. -/
theorem Booked.apart {xid : Nat} {books books' : Books} {key : BusinessKey}
    {entries : List (AccountId × Int)} (h : Booked env xid books key entries books')
    (hs : books.Sound) (hkey : key.movesHold = false) (hentries : Unheld entries) :
    Apart env books books' where
  balance u := h.balance_of_not_named fun e he => hentries e he u
  keys id hk := ((h.findKey_none _).1 hk).2
  journal j row hj := (h.journal_cases hs hj).imp_right fun hnew =>
    ⟨entries, by rw [hnew.1]; exact hkey, hentries, hnew.2⟩

/-- A posting that depends on a condition is apart from the held accounts, too. -/
theorem BookedIf.apart {c : Prop} {xid : Nat} {books books' : Books} {key : BusinessKey}
    {entries : List (AccountId × Int)} (h : BookedIf c env xid books key entries books')
    (hs : books.Sound) (hkey : key.movesHold = false) (hentries : Unheld entries) :
    Apart env books books' := by
  rcases h with ⟨-, hb⟩ | ⟨-, rfl⟩
  · exact hb.apart hs hkey hentries
  · exact .refl _

/-! ### Entries that name no held account -/

/-- Two entries of other accounts. -/
theorem Unheld.pair {a b : AccountId} {m n : Int} (ha : ∀ u, a ≠ .held u) (hb : ∀ u, b ≠ .held u) :
    Unheld [(a, m), (b, n)] := by
  intro e he u
  simp only [List.mem_cons, List.not_mem_nil, or_false] at he
  rcases he with rfl | rfl
  · exact ha u
  · exact hb u

/-- What funds a window is no held account. -/
theorem fundingAccount_ne_held (sponsor : UserId) (c : Option CoopContext) (u : UserId) :
    fundingAccount sponsor c ≠ .held u := by
  unfold fundingAccount FundSource.account
  split
  · split <;> exact AccountId.noConfusion
  · exact AccountId.noConfusion

/-- The payments of a window name no held account. -/
theorem unheld_paymentLines (id : LeaseId) (before after : List LeaseMember) (delta : Int) :
    Unheld (paymentLines id before after delta) := by
  intro e he u
  unfold paymentLines at he
  simp only [List.mem_append, List.mem_filterMap, List.mem_singleton] at he
  rcases he with ⟨p, -, hp⟩ | rfl
  · split at hp
    · simp only [Option.some.injEq] at hp
      rw [← hp]
      exact AccountId.noConfusion
    · cases hp
  · exact AccountId.noConfusion

/-- The entries of a consumption's refund name no held account. -/
theorem unheld_refundEntries (u : UserId) (s : Settlement) : Unheld (refundEntries u s) := by
  intro e he v
  simp only [refundEntries, List.mem_cons, List.not_mem_nil, or_false] at he
  rcases he with rfl | rfl | rfl | rfl <;> exact AccountId.noConfusion

/-- No part of a charge goes to a held account. -/
theorem Split.unheld {id : SessionId} {s s' : Session} {charge : Int}
    {entries : List (AccountId × Int)} {settlements : Table SessionId Settlement}
    (h : Split db id s charge entries s' settlements) : Unheld entries := by
  intro e he u
  cases h with
  | free => simp at he
  | recycled =>
    simp only [List.mem_cons, List.not_mem_nil, or_false] at he
    rcases he with rfl | rfl | rfl <;> exact AccountId.noConfusion
  | route =>
    simp only [List.mem_append, List.mem_map, List.mem_singleton] at he
    rcases he with ⟨p, -, rfl⟩ | rfl <;> exact AccountId.noConfusion
  | node =>
    simp only [List.mem_cons, List.not_mem_nil, or_false] at he
    rcases he with rfl | rfl <;> exact AccountId.noConfusion

/-- A session that is not charged has no payees. -/
theorem Split.eq_nil {id : SessionId} {s s' : Session} {entries : List (AccountId × Int)}
    {settlements : Table SessionId Settlement} (h : Split db id s 0 entries s' settlements) :
    entries = [] := by
  cases h with
  | free => rfl
  | recycled h | route h | node h => exact absurd h (lt_irrefl 0)

/-! ### The changes that concern held accounts -/

/-- A session was created, and its hold entered its held account. -/
structure HoldCreated (env : Env) (db db' : Db) (id : SessionId) (s : Session) : Prop where
  fresh : db.sessions.find? id = none
  sessions : db'.sessions = db.sessions.insert id s fresh
  live : s.state.terminal = false
  hold : 0 ≤ s.hold
  booked : BookedIf (0 < s.hold) env db.xid db.books (.hold id) (reserveEntries s) db'.books

/-- A session ended, and its hold left its held account. -/
structure HoldEnded (env : Env) (db db' : Db) (id : SessionId) (s s' : Session)
    (payees : List (AccountId × Int)) : Prop where
  found : db.sessions.find? id = some s
  sessions : db'.sessions = db.sessions.set id s'
  live : s.state.terminal = false
  ended : s'.state.terminal = true
  user : s'.userId = s.userId
  hold : s'.hold = s.hold
  charged : 0 ≤ s'.charged ∧ s'.charged ≤ s'.hold
  completed : 0 < s'.charged → s'.state = .completed
  unheld : Unheld payees
  free : s'.charged = 0 → payees = []
  booked : BookedIf (0 < s.hold) env db.xid db.books (.settle id)
    (holdEntries s' s'.charged ++ payees) db'.books

/-- Another write to a session: what it holds, and how it ended, stay. -/
structure Session.HoldsSame (s s' : Session) : Prop where
  user : s'.userId = s.userId
  hold : s'.hold = s.hold
  terminal : s'.state.terminal = s.state.terminal
  ended : s.state.terminal = true → s'.state = s.state ∧ s'.charged = s.charged

/-- A session that was left as it is holds the same. -/
theorem Session.HoldsSame.refl (s : Session) : s.HoldsSame s := ⟨rfl, rfl, rfl, fun _ => ⟨rfl, rfl⟩⟩

/-- A session that holds the same adds the same to its user's held funds. -/
theorem Session.HoldsSame.heldOf {s s' : Session} (h : s.HoldsSame s') (u : UserId) :
    s'.heldOf u = s.heldOf u := by
  unfold Session.heldOf
  rw [h.user, h.hold, h.terminal]

/-- The sessions keep what they hold. -/
structure SessionsHold (db db' : Db) : Prop where
  sum : ∀ u, heldFunds db' u = heldFunds db u
  row : ∀ id s', db'.sessions.find? id = some s' →
    ∃ s, db.sessions.find? id = some s ∧ s.HoldsSame s'

/-- The sessions hold the same when their table was left as it is. -/
theorem SessionsHold.of_eq (h : db'.sessions = db.sessions) : SessionsHold db db' where
  sum u := by rw [heldFunds, heldFunds, h]
  row id s' hs' := ⟨s', by rw [← h]; exact hs', .refl s'⟩

/-- The sessions hold the same when one of them was written and holds the same. -/
theorem SessionsHold.of_set {id : SessionId} {s s' : Session} (hs : db.sessions.find? id = some s)
    (hsame : s.HoldsSame s') (h : db'.sessions = db.sessions.set id s') : SessionsHold db db' where
  sum u := by
    rw [heldFunds, heldFunds, h]
    exact Table.sum_set_eq hs (hsame.heldOf u)
  row id₁ s₁ hs₁ := by
    rw [h, Table.find?_set] at hs₁
    split at hs₁
    · rename_i hid
      subst hid
      rw [hs, Option.map_some, Option.some.injEq] at hs₁
      exact ⟨s, hs, hs₁ ▸ hsame⟩
    · exact ⟨s₁, hs₁, .refl s₁⟩

/-- **The changes that concern held accounts**: a session is created, or it ends; every other
change is apart from them.

**Proof sketch.** By the move. A new session posts its hold and its end the release; the entries of
all other postings, read off one by one, name no held account, and no other move writes what a
session holds or how it ended. -/
theorem Change.held_cases (h : Change env req tx db db') (hs : db.books.Sound) :
    (Apart env db.books db'.books ∧ SessionsHold db db') ∨
      (∃ id s, HoldCreated env db db' id s) ∨
      ∃ id s s' payees, HoldEnded env db db' id s s' payees := by
  have hopen : ∀ (a : AccountId) (kind : AccountKind), (db.books.openAccount a kind).Sound :=
    fun a kind => hs.openAccount a kind
  rcases h with h | h
  · cases h with
    | accounts u =>
      exact .inl ⟨(Apart.refl _).openAccount.openAccount, .of_eq rfl⟩
    | granted hkey hb =>
      refine .inl ⟨hb.apart hs ?_ (.pair (by simp) (by simp)), .of_eq rfl⟩
      rcases hkey with rfl | ⟨_, rfl⟩ <;> rfl
    | sessionCreated hid _ hhold _ hb => exact .inr (.inl ⟨_, _, hid, rfl, rfl, hhold, hb⟩)
    | sessionAdmitted hfound h =>
      have hqueued := h.queued
      refine .inl ⟨.refl _, .of_set hfound ?_ rfl⟩
      rw [h.row]
      exact ⟨rfl, rfl, by rw [hqueued]; rfl, fun ht => by rw [hqueued] at ht; cases ht⟩
    | sessionUpdated hfound h =>
      have h := h.continues
      have hlive := h.live
      have hlive' := h.live'
      refine .inl ⟨.refl _, .of_set hfound ⟨?_, ?_, by rw [hlive, hlive'], fun ht => ?_⟩ rfl⟩
      · rw [h.row]
      · rw [h.row]
      · rw [hlive] at ht
        cases ht
    | @sessionFinalized _ id s₀ s s' state charge _ _ entries _ _ hfound hreport hlive hcharge _ hpaid
        hsplit hb =>
      rw [hreport.row] at hcharge hb
      refine .inr (.inr ⟨id, s₀, _, entries, hfound, rfl, hlive, by cases state <;> rfl, ?_, ?_, ?_,
        fun hpos => ?_, hsplit.unheld, ?_, ?_⟩)
      · rw [hsplit.same, hreport.row]
        rfl
      · rw [hsplit.same, hreport.row]
        rfl
      · rw [hsplit.same, hreport.row]
        exact hcharge
      · show state.toSession = .completed
        rw [(hpaid hpos).completed]
        rfl
      · intro hzero
        have hzero : charge = 0 := hzero
        subst hzero
        exact hsplit.eq_nil
      · rw [hsplit.same, hreport.row]
        exact hb
    | consumptionRefunded hfound _ _ hb =>
      refine .inl ⟨hb.apart hs rfl (unheld_refundEntries _ _), .of_set hfound ?_ rfl⟩
      exact ⟨rfl, rfl, rfl, fun _ => ⟨rfl, rfl⟩⟩
    | nodeLeaseOffered _ _ _ _ _ _ _ hb =>
      exact .inl ⟨(hb.apart (hopen _ _) rfl (.pair (by simp) (by simp))).openAccount, .of_eq rfl⟩
    | nodeLeaseSampled _ _ _ _ _ _ hb | nodeLeaseClosed _ _ _ hb =>
      exact .inl ⟨hb.apart hs rfl (.pair (by simp) (by simp)), .of_eq rfl⟩
    | routeOffered h | windowOffered h =>
      exact .inl ⟨(h.booked.apart (hopen _ _) rfl (.pair (fundingAccount_ne_held _ _)
        (by simp))).openAccount, .of_eq rfl⟩
    | routeSampled _ _ _ _ _ _ _ _ _ hb =>
      exact .inl ⟨hb.apart hs rfl (unheld_paymentLines _ _ _ _), .of_eq rfl⟩
    | routeClosed _ _ hb =>
      exact .inl ⟨hb.apart hs rfl (.pair (by simp) (fundingAccount_ne_held _ _)), .of_eq rfl⟩
    | poolCreated =>
      exact .inl ⟨(Apart.refl _).openAccount.openAccount.openAccount, .of_eq rfl⟩
    | @funded _ f _ _ _ hb =>
      refine .inl ⟨hb.apart hs rfl (.pair (by simp) fun u => ?_), .of_eq rfl⟩
      cases f.destination <;> exact AccountId.noConfusion
    | _ => exact .inl ⟨.refl _, .of_eq rfl⟩
  · cases h <;> exact .inl ⟨.refl _, .of_eq rfl⟩

/-! ### The invariant -/

/-- **The invariant of held accounts**: a held account is what the open sessions of its user hold,
a session that has ended has released its hold, and the journal moves holds for nothing else. -/
structure HeldBooks (env : Env) (db : Db) : Prop where
  hold : ∀ id s, db.sessions.find? id = some s → 0 ≤ s.hold
  balance : ∀ u, db.books.balance (.held u) = heldFunds db u
  released : ∀ id s, db.sessions.find? id = some s → s.state.terminal = true → 0 < s.hold →
    db.books.findKey (.settle id) ≠ none
  charged : ∀ id s, db.sessions.find? id = some s → s.state.terminal = true →
    (0 ≤ s.charged ∧ s.charged ≤ s.hold) ∧ (0 < s.charged → s.state = .completed)
  journal : ∀ j row, db.books.journal.find? j = some row → ∃ entries,
    HeldEntries db row.businessKey entries ∧ db.books.linesOfJournal j =
      Ledger.storedLines j (Ledger.linesOf env.accountLe entries)

/-- The entries of the journal stay what they were: a session keeps its owner and its hold, and
its charge once it has ended. -/
theorem HeldEntries.keeps {key : BusinessKey} {entries : List (AccountId × Int)}
    (h : HeldEntries db key entries) (hkeeps : ∀ id s, db.sessions.find? id = some s →
      ∃ s', db'.sessions.find? id = some s' ∧ s.Keeps s') : HeldEntries db' key entries := by
  cases h with
  | @hold _ s hs =>
    obtain ⟨s', hs', hk⟩ := hkeeps _ _ hs
    have hsame : reserveEntries s' = reserveEntries s := by
      unfold reserveEntries
      rw [hk.user, hk.hold]
    exact hsame ▸ .hold hs'
  | @settle _ s payees hs hended hpayees hfree =>
    obtain ⟨s', hs', hk⟩ := hkeeps _ _ hs
    rw [hk.ended hended] at hs'
    exact .settle (s := { s with billingState := s'.billingState }) hs' hended hpayees hfree
  | apart hkey h => exact .apart hkey h

/-- What a posting of a hold, or of its end, moves on the held account of a user. -/
theorem entrySum_reserveEntries (s : Session) (u : UserId) :
    Ledger.entrySum (.held u) (reserveEntries s) = if s.userId = u then s.hold else 0 := by
  simp [reserveEntries]

/-- The entries of a session's end take its hold from the held account of its user. -/
theorem entrySum_settleEntries (s : Session) {payees : List (AccountId × Int)}
    (h : Unheld payees) (u : UserId) :
    Ledger.entrySum (.held u) (holdEntries s s.charged ++ payees) =
      if s.userId = u then -s.hold else 0 := by
  rw [Ledger.entrySum_append, Ledger.entrySum_eq_zero fun e he => h e he u]
  simp [holdEntries]

/-- A step apart from the held accounts keeps the held books. -/
theorem HeldBooks.apart (h : HeldBooks env db) (hc : Change env req tx db db')
    (hbooks : Apart env db.books db'.books) (hsessions : SessionsHold db db') :
    HeldBooks env db' where
  hold id s' hs' := by
    obtain ⟨s, hs, hsame⟩ := hsessions.row id s' hs'
    rw [hsame.hold]
    exact h.hold id s hs
  balance u := by rw [hbooks.balance, h.balance, hsessions.sum]
  released id s' hs' ht hpos hn := by
    obtain ⟨s, hs, hsame⟩ := hsessions.row id s' hs'
    rw [hsame.terminal] at ht
    rw [hsame.hold] at hpos
    exact h.released id s hs ht hpos (hbooks.keys id hn)
  charged id s' hs' ht := by
    obtain ⟨s, hs, hsame⟩ := hsessions.row id s' hs'
    rw [hsame.terminal] at ht
    rw [(hsame.ended ht).1, (hsame.ended ht).2, hsame.hold]
    exact h.charged id s hs ht
  journal j row hj := by
    rcases hbooks.journal j row hj with ⟨hold, hlines⟩ | ⟨entries, hkey, hentries, hlines⟩
    · obtain ⟨entries, hentries, hstored⟩ := h.journal j row hold
      exact ⟨entries, hentries.keeps fun id s hs => hc.sessions.old hs, hlines.trans hstored⟩
    · exact ⟨entries, .apart hkey hentries, hlines⟩

/-- A new session keeps the held books. -/
theorem HeldBooks.created (h : HeldBooks env db) (hb : Booking db) (hc : Change env req tx db db')
    {id : SessionId} {s : Session} (hnew : HoldCreated env db db' id s) : HeldBooks env db' := by
  have hfresh : db.books.findKey (.hold id) = none :=
    hb.fresh fun ⟨s₁, hs₁⟩ => by rw [hnew.fresh] at hs₁; cases hs₁
  have hcases : ∀ {id₁ s₁}, db'.sessions.find? id₁ = some s₁ →
      (id₁ = id ∧ s₁ = s) ∨ db.sessions.find? id₁ = some s₁ := by
    intro id₁ s₁ hs₁
    rw [hnew.sessions] at hs₁
    exact (Table.find?_insert_cases hs₁).imp_right And.right
  refine ⟨fun id₁ s₁ hs₁ => ?_, fun u => ?_, fun id₁ s₁ hs₁ ht hpos hn => ?_,
    fun id₁ s₁ hs₁ ht => ?_, fun j row hj => ?_⟩
  · rcases hcases hs₁ with ⟨rfl, rfl⟩ | hs₁
    · exact hnew.hold
    · exact h.hold id₁ s₁ hs₁
  · have hheld : heldFunds db' u = heldFunds db u + s.heldOf u := by
      rw [heldFunds, heldFunds, hnew.sessions, Table.sum_insert]
    have hmoved := hnew.booked.balance_of_fresh hfresh (a := .held u) fun hzero => by
      have hzero : s.hold = 0 := le_antisymm (not_lt.1 hzero) hnew.hold
      rw [entrySum_reserveEntries, hzero, ite_self]
    rw [hmoved, h.balance, hheld, entrySum_reserveEntries, Session.heldOf, hnew.live]
    simp
  · rcases hcases hs₁ with ⟨rfl, rfl⟩ | hs₁
    · rw [hnew.live] at ht
      cases ht
    · exact h.released id₁ s₁ hs₁ ht hpos ((hnew.booked.findKey_ne (by simp)).1 hn)
  · rcases hcases hs₁ with ⟨rfl, rfl⟩ | hs₁
    · rw [hnew.live] at ht
      cases ht
    · exact h.charged id₁ s₁ hs₁ ht
  · rcases hnew.booked.journal_cases hb.sound hj with ⟨hold, hlines⟩ | ⟨hkey, hlines⟩
    · obtain ⟨entries, hentries, hstored⟩ := h.journal j row hold
      exact ⟨entries, hentries.keeps fun id s hs => hc.sessions.old hs, hlines.trans hstored⟩
    · refine ⟨_, hkey ▸ .hold ?_, hlines⟩
      rw [hnew.sessions, Table.find?_insert_self]

/-- The end of a session keeps the held books.

**Proof sketch.** The key of the end was new, as the session was open. So the hold leaves the held
account together with the share of the session in the sum, and the journal has one more entry, which
is that of the end. -/
theorem HeldBooks.ended (h : HeldBooks env db) (hb : Booking db) (hc : Change env req tx db db')
    {id : SessionId} {s s' : Session} {payees : List (AccountId × Int)}
    (hend : HoldEnded env db db' id s s' payees) : HeldBooks env db' := by
  have hfresh : db.books.findKey (.settle id) = none := hb.fresh fun ⟨s₁, hs₁, ht⟩ => by
    rw [hend.found, Option.some.injEq] at hs₁
    rw [← hs₁, hend.live] at ht
    cases ht
  have hself : db'.sessions.find? id = some s' := by
    rw [hend.sessions, Table.find?_set_self hend.found]
  have hcases : ∀ {id₁ s₁}, db'.sessions.find? id₁ = some s₁ →
      (id₁ = id ∧ s₁ = s') ∨ (id₁ ≠ id ∧ db.sessions.find? id₁ = some s₁) := by
    intro id₁ s₁ hs₁
    by_cases hid : id₁ = id
    · subst hid
      rw [hself, Option.some.injEq] at hs₁
      exact .inl ⟨rfl, hs₁.symm⟩
    · rw [hend.sessions, Table.find?_set_ne hid] at hs₁
      exact .inr ⟨hid, hs₁⟩
  refine ⟨fun id₁ s₁ hs₁ => ?_, fun u => ?_, fun id₁ s₁ hs₁ ht hpos hn => ?_,
    fun id₁ s₁ hs₁ ht => ?_, fun j row hj => ?_⟩
  · rcases hcases hs₁ with ⟨rfl, rfl⟩ | ⟨-, hs₁⟩
    · rw [hend.hold]
      exact h.hold _ _ hend.found
    · exact h.hold id₁ s₁ hs₁
  · -- the share of the session leaves the sum, and its hold leaves the account
    have hheld : heldFunds db' u = heldFunds db u - s.heldOf u := by
      have hzero : s'.heldOf u = 0 := by simp [Session.heldOf, hend.ended]
      rw [heldFunds, heldFunds, hend.sessions, Table.sum_set hend.found, hzero]
      ring
    have hmoved := hend.booked.balance_of_fresh hfresh (a := .held u) fun hfree => by
      have hzero : s.hold = 0 := le_antisymm (not_lt.1 hfree) (h.hold _ _ hend.found)
      rw [entrySum_settleEntries s' hend.unheld, hend.hold, hzero, neg_zero, ite_self]
    rw [hmoved, h.balance, hheld, entrySum_settleEntries s' hend.unheld, hend.user, hend.hold,
      Session.heldOf, hend.live]
    split <;> simp [*]
    ring
  · rcases hcases hs₁ with ⟨rfl, rfl⟩ | ⟨hid, hs₁⟩
    · rw [hend.hold] at hpos
      rcases hend.booked with ⟨-, hbooked⟩ | ⟨hfree, -⟩
      · exact hbooked.findKey_self hn
      · exact hfree hpos
    · exact h.released id₁ s₁ hs₁ ht hpos ((hend.booked.findKey_ne (by simpa using hid)).1 hn)
  · rcases hcases hs₁ with ⟨rfl, rfl⟩ | ⟨-, hs₁⟩
    · exact ⟨hend.charged, hend.completed⟩
    · exact h.charged id₁ s₁ hs₁ ht
  · rcases hend.booked.journal_cases hb.sound hj with ⟨hold, hlines⟩ | ⟨hkey, hlines⟩
    · obtain ⟨entries, hentries, hstored⟩ := h.journal j row hold
      exact ⟨entries, hentries.keeps fun id s hs => hc.sessions.old hs, hlines.trans hstored⟩
    · exact ⟨_, hkey ▸ .settle hself hend.ended hend.unheld hend.free, hlines⟩

/-- **Every change keeps the invariant of held accounts.** -/
theorem Change.heldBooks (hc : Change env req tx db db') (hb : Booking db) (h : HeldBooks env db) :
    HeldBooks env db' := by
  rcases hc.held_cases hb.sound with ⟨hbooks, hsessions⟩ | ⟨id, s, hnew⟩ | ⟨id, s, s', payees, hend⟩
  · exact h.apart hc hbooks hsessions
  · exact h.created hb hc hnew
  · exact h.ended hb hc hend

/-- The held books of an empty database. -/
theorem initial_heldBooks (env : Env) (admin : UserId) : HeldBooks env (Db.initial admin) where
  hold id s hs := by simp [Db.initial] at hs
  balance u := by
    simp only [Db.initial, createAccounts, balance_openAccount]
    rfl
  released id s hs := by simp [Db.initial] at hs
  charged id s hs := by simp [Db.initial] at hs
  journal j row hj := by
    simp [Db.initial, createAccounts] at hj

/-- Every reachable database has its held books in order. -/
theorem reachable_heldBooks (h : Machine.Reachable (controlSystem env) db) : HeldBooks env db :=
  reachable_of_booked_changes (initial_heldBooks env)
    (fun _ _ _ _ hb hp hc => hc.heldBooks hb hp) h

/-! ### How a hold leaves its account -/

/-- How the hold of an ended session left its held account: in the journal entry of its end, whose
line on the held account is the whole hold, and whose other lines are the refund to the user and
payees that share the charge; a session that did not complete is refunded in full. -/
structure HoldReleased (env : Env) (db : Db) (id : SessionId) (s : Session) (j : JournalId) :
    Prop where
  key : db.books.findKey (.settle id) = some j
  line : (db.books.linesOfJournal j).filter (fun l => l.accountId = .held s.userId) =
    [⟨j, .held s.userId, -s.hold⟩]
  charged : 0 ≤ s.charged ∧ s.charged ≤ s.hold
  split : ∃ payees, Unheld payees ∧ (payees.map Prod.snd).sum = s.charged ∧
    db.books.linesOfJournal j = Ledger.storedLines j (Ledger.linesOf env.accountLe
      ([(.held s.userId, -s.hold), (.available s.userId, s.hold - s.charged)] ++ payees))
  whole : s.state ≠ .completed → s.charged = 0
  refund : s.charged = 0 → db.books.linesOfJournal j = Ledger.storedLines j
    (Ledger.linesOf env.accountLe [(.held s.userId, -s.hold), (.available s.userId, s.hold)])

/-- The lines of one account among stored lines. -/
theorem filter_storedLines (j : JournalId) (lines : List (AccountId × Int)) (a : AccountId) :
    (Ledger.storedLines j lines).filter (fun l => l.accountId = a) =
      Ledger.storedLines j (lines.filter fun e => e.1 = a) := by
  simp only [Ledger.storedLines, List.filter_map, Function.comp_def]

/-- **An ended session has released its hold**, in the entry under its settlement key. -/
theorem HeldBooks.holdReleased (h : HeldBooks env db) (hsound : db.books.Sound) {id : SessionId}
    {s : Session} (hs : db.sessions.find? id = some s) (hended : s.state.terminal = true)
    (hpos : 0 < s.hold) : ∃ j, HoldReleased env db id s j := by
  obtain ⟨j, hj⟩ := Option.ne_none_iff_exists'.1 (h.released id s hs hended hpos)
  obtain ⟨row, hrow, hkey⟩ := Ledger.findKey_eq_some hj
  obtain ⟨hcharged, hcompleted⟩ := h.charged id s hs hended
  obtain ⟨entries, hentries, hlines⟩ := h.journal j row hrow
  rw [hkey] at hentries
  cases hentries with
  | apart hmoves => cases hmoves
  | @settle _ s₁ payees hs₁ _ hunheld hfree =>
    obtain rfl : s = s₁ := by
      rw [hs, Option.some.injEq] at hs₁
      exact hs₁
    refine ⟨j, hj, ?_, hcharged, ⟨payees, hunheld, ?_, hlines⟩, fun hstate => ?_, fun hzero => ?_⟩
    · rw [hlines, filter_storedLines, Ledger.filter_linesOf, entrySum_settleEntries s hunheld,
        if_pos rfl, if_neg (by omega)]
      rfl
    · -- the entry is balanced, so the payees share what is not refunded
      have hbalanced := (hsound.balanced j row hrow).2
      rw [hlines] at hbalanced
      simp only [Ledger.storedLines, List.map_map, Function.comp_def] at hbalanced
      have hsum := Ledger.sum_linesOf env.accountLe (holdEntries s s.charged ++ payees)
      rw [show (fun line : AccountId × Int => line.2) = Prod.snd from rfl, hsum] at hbalanced
      simp only [holdEntries, List.map_append, List.map_cons, List.map_nil, List.sum_append,
        List.sum_cons, List.sum_nil] at hbalanced
      omega
    · by_contra hne
      exact hstate (hcompleted (lt_of_le_of_ne hcharged.1 (Ne.symm hne)))
    · rw [hlines, hfree hzero, hzero, List.append_nil]
      simp only [holdEntries, sub_zero]

/-- A line on a held account: the hold of a session of its user, or its release.

**Proof sketch.** The journal of the line has entries of a hold, of an end, or apart from the held
accounts. A line is an entry that is not zero, so that it is not of the last kind, and its amount is
what the entries sum up to on the account. -/
theorem HeldBooks.heldLine (h : HeldBooks env db) (hsound : db.books.Sound)
    {l : JournalLine AccountId} (hl : l ∈ db.books.lines) {u : UserId}
    (hu : l.accountId = .held u) : ∃ id s, db.sessions.find? id = some s ∧ s.userId = u ∧
      ((db.books.findKey (.hold id) = some l.journalId ∧ l.amount = s.hold) ∨
        (db.books.findKey (.settle id) = some l.journalId ∧ l.amount = -s.hold ∧
          s.state.terminal = true)) := by
  obtain ⟨row, hrow⟩ := Option.isSome_iff_exists.1 (hsound.owned l hl).1
  obtain ⟨entries, hentries, hlines⟩ := h.journal l.journalId row hrow
  have hfind := hsound.keys l.journalId row hrow
  have hmem : l ∈ db.books.linesOfJournal l.journalId := by
    simp [Ledger.linesOfJournal, hl]
  rw [hlines] at hmem
  obtain ⟨e, he, hle⟩ := List.mem_map.1 hmem
  have haccount : e.1 = .held u := by rw [← hu, ← hle]
  have hamount : l.amount = Ledger.entrySum (.held u) entries := by
    rw [← haccount, ← Ledger.mem_linesOf_amount env.accountLe he, ← hle]
  have hne : l.amount ≠ 0 := by
    rw [← hle]
    exact (Ledger.mem_linesOf env.accountLe he).1
  generalize hkey : row.businessKey = key at hentries hfind
  cases hentries with
  | @hold id s hs =>
    rw [entrySum_reserveEntries] at hamount
    split at hamount
    · rename_i huser
      exact ⟨id, s, hs, huser, .inl ⟨hfind, hamount⟩⟩
    · exact absurd hamount hne
  | @settle id s payees hs hended hunheld hfree =>
    rw [entrySum_settleEntries s hunheld] at hamount
    split at hamount
    · rename_i huser
      exact ⟨id, s, hs, huser, .inr ⟨hfind, hamount, hended⟩⟩
    · exact absurd hamount hne
  | apart _ hunheld =>
    rw [Ledger.entrySum_eq_zero fun e he => hunheld e he u] at hamount
    exact absurd hamount hne

/-- **Held funds.** In every reachable database, the held account of a user is what the open
sessions of the user hold; an open session has not released its hold; an ended session has
released it in exactly one journal entry; nothing else moves a held account; and along every run
an ended session stays as it ended.

**Proof sketch.** From the invariant of the held books, which every change keeps
(`Change.held_cases`). An open session has no entry of its end, as every key has its owner; an ended
row is only rewritten by a refund, which writes its billing state. -/
theorem held_funds (h : Machine.Reachable (controlSystem env) db) :
    (∀ u, db.books.balance (.held u) = heldFunds db u) ∧
      (∀ id s, db.sessions.find? id = some s → s.state.terminal = false →
        db.books.findKey (.settle id) = none) ∧
      (∀ id s, db.sessions.find? id = some s → s.state.terminal = true → 0 < s.hold →
        ∃ j, HoldReleased env db id s j) ∧
      (∀ l ∈ db.books.lines, ∀ u, l.accountId = .held u →
        ∃ id s, db.sessions.find? id = some s ∧ s.userId = u ∧
          ((db.books.findKey (.hold id) = some l.journalId ∧ l.amount = s.hold) ∨
            (db.books.findKey (.settle id) = some l.journalId ∧ l.amount = -s.hold ∧
              s.state.terminal = true))) ∧
      ∀ id s, db.sessions.find? id = some s → s.state.terminal = true → ∀ is,
        ∃ s', ((controlSystem env).run db is).sessions.find? id = some s' ∧
          s' = { s with billingState := s'.billingState } := by
  have hheld := reachable_heldBooks h
  have hbooking := reachable_booking h
  refine ⟨hheld.balance, fun id s hs hlive => ?_, fun id s hs hended hpos =>
    hheld.holdReleased hbooking.sound hs hended hpos, fun l hl u hu =>
    hheld.heldLine hbooking.sound hl hu, fun id s hs hended is => ?_⟩
  · refine hbooking.fresh fun ⟨s₁, hs₁, ht⟩ => ?_
    rw [hs, Option.some.injEq] at hs₁
    rw [← hs₁, hlive] at ht
    cases ht
  · refine run_of_changes (P := fun db => ∃ s', db.sessions.find? id = some s' ∧
      s' = { s with billingState := s'.billingState }) (fun _ _ a b hp hc => ?_) ⟨s, hs, rfl⟩ is
    obtain ⟨s₁, hs₁, hrow⟩ := hp
    obtain ⟨s₂, hs₂, hkeeps⟩ := hc.sessions.old hs₁
    refine ⟨s₂, hs₂, ?_⟩
    have hrow₂ := hkeeps.ended (by rw [hrow]; exact hended)
    rw [hrow₂, hrow]

/-- One session of the laboratory has been charged 110 of its hold of 256; two others are open and
hold 256 each. -/
theorem held_funds_lab :
    (labDb (labSetup ++ labPlan ++ labWork)).books.balance (.held 1000) = 512 ∧
      heldFunds (labDb (labSetup ++ labPlan ++ labWork)) 1000 = 512 ∧
      ∃ s j, (labDb (labSetup ++ labPlan ++ labWork)).sessions.find? 41000 = some s ∧
        s.charged = 110 ∧ s.hold = 256 ∧
        HoldReleased labEnv (labDb (labSetup ++ labPlan ++ labWork)) 41000 s j := by
  obtain ⟨hbalance, -, hreleased, -⟩ := held_funds (reachable_lab (labSetup ++ labPlan ++ labWork))
  have hheld : (labDb (labSetup ++ labPlan ++ labWork)).books.balance (.held 1000) = 512 := by
    decide +kernel
  have hsession : ((labDb (labSetup ++ labPlan ++ labWork)).sessions.find? 41000).map
      (fun s => (s.state.terminal, s.charged, s.hold)) = some (true, 110, 256) := by
    decide +kernel
  obtain ⟨s, hs, hfacts⟩ := Option.map_eq_some_iff.1 hsession
  simp only [Prod.mk.injEq] at hfacts
  obtain ⟨hended, hcharged, hhold⟩ := hfacts
  obtain ⟨j, hj⟩ := hreleased 41000 s hs hended (by omega)
  exact ⟨hheld, by rw [← hbalance, hheld], s, j, hs, hcharged, hhold, hj⟩

end NetworkAi
