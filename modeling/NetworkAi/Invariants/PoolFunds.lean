import NetworkAi.Invariants.RouteLeaseBooks
import NetworkAi.Invariants.Payouts

set_option relaxedAutoImplicit false
set_option autoImplicit false

/-!
# The funds of pools

A pool has an account of working funds, one of reserve funds and one of burned funds.  Its members
commit credits to the first two, its windows take their budgets out of them and give back what they
do not pay, the consumption that it covers is recycled into all three, and a refund takes the parts
of a settlement out again.  Nothing else moves these accounts.

## Main definitions

* `NetworkAi.AccountId.ofPool` — the accounts of pools.
* `NetworkAi.leasedFrom`, `NetworkAi.committedTo`, `NetworkAi.recycledInto` — what windows took out
  of an account, and what fundings and settlements put into it.
* `NetworkAi.PoolBooks` — the invariant.

## Main results

* `NetworkAi.Change.pool_cases` — the changes that concern the accounts of pools.
* `NetworkAi.reachable_poolBooks` — the accounts of pools in every reachable database.
-/

namespace NetworkAi

open Relational

variable {env : Env} {req : Request} {tx t : Tx} {db db' : Db} {a : AccountId}

/-! ### What moves the accounts of pools -/

/-- The accounts of pools. -/
def AccountId.ofPool : AccountId → Bool
  | .coopWorking _ | .coopReserve _ | .coopBurn _ => true
  | _ => false

/-- What a window has taken out of the account that funds it: its budget while it is open, and what
it paid once it has ended. -/
def RouteLease.taken (l : RouteLease) : Int := if l.state.funded then l.budget else l.paid

/-- The account that funds a window. -/
def RouteLease.payer (l : RouteLease) : AccountId :=
  fundingAccount l.sponsorId l.terms.cooperative

/-- The entries of a settlement on the accounts of its pool. -/
def Settlement.entries (s : Settlement) : List (AccountId × Int) :=
  [(.coopWorking s.poolId, s.working), (.coopReserve s.poolId, s.reserve),
    (.coopBurn s.poolId, s.burned)]

/-- What a settlement moved into an account. -/
def Settlement.into (s : Settlement) (a : AccountId) : Int := Ledger.entrySum a s.entries

/-- What windows took out of an account. -/
def leasedFrom (db : Db) (a : AccountId) : Int :=
  db.routeLeases.sum fun _ l => if l.payer = a then l.taken else 0

/-- What was committed to an account. -/
def committedTo (db : Db) (a : AccountId) : Int :=
  db.fundings.sum fun _ f => if f.destination.account f.poolId = a then f.amount else 0

/-- What a settlement moved into an account, unless it was given back. -/
def Settlement.kept (refunds : Table SessionId CoopRefund) (a : AccountId) (id : SessionId)
    (s : Settlement) : Int :=
  if refunds.find? id = none then s.into a else 0

/-- What was recycled into an account and not given back. -/
def recycledInto (db : Db) (a : AccountId) : Int := db.settlements.sum (Settlement.kept db.refunds a)

/-- **The funds of pools**: an account of a pool has what was committed to it and recycled into it,
less what windows took out. -/
structure PoolBooks (db : Db) : Prop where
  balance : ∀ a, a.ofPool = true →
    db.books.balance a + leasedFrom db a = committedTo db a + recycledInto db a
  parts : ∀ id s, db.settlements.find? id = some s → 0 < s.charge ∧
    s.charge = s.working + s.reserve + s.burned ∧ 0 ≤ s.working ∧ 0 ≤ s.reserve ∧ 0 ≤ s.burned
  settled : ∀ id, db.refunds.find? id ≠ none → db.settlements.find? id ≠ none

/-- What a refund moves on an account of a pool. -/
theorem entrySum_refundEntries (u : UserId) (s : Settlement) (ha : a.ofPool = true) :
    Ledger.entrySum a (refundEntries u s) = -s.into a := by
  have huser : AccountId.available u ≠ a := by
    rintro rfl
    cases ha
  simp only [refundEntries, Settlement.into, Settlement.entries, Ledger.entrySum_cons,
    Ledger.entrySum_nil, if_neg huser]
  split <;> split <;> split <;> omega

/-- Entries that name no account of a pool. -/
def Poolless (entries : List (AccountId × Int)) : Prop := ∀ e ∈ entries, e.1.ofPool = false

/-- Two entries of accounts of no pool. -/
theorem Poolless.pair {b c : AccountId} {m n : Int} (hb : b.ofPool = false)
    (hc : c.ofPool = false) : Poolless [(b, m), (c, n)] := by
  intro e he
  simp only [List.mem_cons, List.not_mem_nil, or_false] at he
  rcases he with rfl | rfl
  · exact hb
  · exact hc

/-- Entries of accounts of no pool name no account of a pool. -/
theorem Poolless.ne {entries : List (AccountId × Int)} (h : Poolless entries)
    (ha : a.ofPool = true) : ∀ e ∈ entries, e.1 ≠ a := by
  rintro e he rfl
  rw [h e he] at ha
  cases ha

/-- The payments of a window name no account of a pool. -/
theorem poolless_paymentLines (id : LeaseId) (before after : List LeaseMember) (delta : Int) :
    Poolless (paymentLines id before after delta) := by
  intro e he
  unfold paymentLines at he
  simp only [List.mem_append, List.mem_filterMap, List.mem_singleton] at he
  rcases he with ⟨p, -, hp⟩ | rfl
  · split at hp
    · simp only [Option.some.injEq] at hp
      rw [← hp]
      rfl
    · cases hp
  · rfl

/-- A charge that is not recycled moves no account of a pool. -/
theorem Split.pool_cases {id : SessionId} {s s' : Session} {charge : Int}
    {entries : List (AccountId × Int)} {settlements : Table SessionId Settlement}
    (h : Split db id s charge entries s' settlements) :
    (settlements = db.settlements ∧ Poolless entries) ∨
      ∃ r : Settlement, ∃ hid : db.settlements.find? id = none,
        settlements = db.settlements.insert id r hid ∧ entries = r.entries ∧ 0 < charge ∧
        r.charge = charge ∧ charge = r.working + r.reserve + r.burned ∧
        0 ≤ r.working ∧ 0 ≤ r.reserve ∧ 0 ≤ r.burned := by
  cases h with
  | free => exact .inl ⟨rfl, fun e he => by simp at he⟩
  | @recycled r h _ _ hcharge hsum hparts hid =>
    exact .inr ⟨r, hid, rfl, rfl, h, hcharge, hsum, hparts⟩
  | route =>
    refine .inl ⟨rfl, fun e he => ?_⟩
    simp only [List.mem_append, List.mem_map, List.mem_singleton] at he
    rcases he with ⟨p, -, rfl⟩ | rfl <;> rfl
  | node => exact .inl ⟨rfl, .pair rfl rfl⟩

/-! ### Windows -/

/-- A window that stays open takes nothing more. -/
theorem leased_set {id : LeaseId} {l l' : RouteLease} (hl : db.routeLeases.find? id = some l)
    (hpayer : l'.payer = l.payer) (hbudget : l'.budget = l.budget)
    (hopen : l.state.funded = true) (hopen' : l'.state.funded = true)
    (hdb' : db'.routeLeases = db.routeLeases.set id l') :
    leasedFrom db' a = leasedFrom db a := by
  rw [leasedFrom, hdb']
  refine Table.sum_set_eq hl ?_
  rw [RouteLease.taken, RouteLease.taken, if_pos hopen, if_pos hopen', hpayer, hbudget]

/-- **A new window** takes its budget out of the account that funds it. -/
theorem RouteOffered.leased {d : RouteOffer} {route : ExecutionRoute} {terms : LeaseTerms}
    (h : RouteOffered env t db d route terms db'.books) (hb : Booking db) (ha : a.ofPool = true)
    (hdb' : db'.routeLeases =
      db.routeLeases.insert terms.leaseId (newRouteLease env t db.xid d terms) h.id) :
    db'.books.balance a + leasedFrom db' a = db.books.balance a + leasedFrom db a := by
  have hfresh : db.books.findKey (.routeFund terms.leaseId) = none :=
    hb.fresh fun ⟨l, hl⟩ => by
      rw [h.id] at hl
      cases hl
  have hbalance := h.booked.balance_of_fresh (by rw [findKey_openAccount]; exact hfresh) a
  have hescrow : AccountId.routeEscrow terms.leaseId ≠ a := by
    rintro rfl
    cases ha
  rw [balance_openAccount, Ledger.entrySum_cons, Ledger.entrySum_cons, if_neg hescrow] at hbalance
  rw [hbalance, leasedFrom, hdb', Table.sum_insert]
  have hnew : (if (newRouteLease env t db.xid d terms).payer = a then
      (newRouteLease env t db.xid d terms).taken else 0) =
        if fundingAccount terms.sponsorId terms.cooperative = a then terms.budget else 0 := rfl
  rw [hnew]
  simp only [Ledger.entrySum_nil, leasedFrom]
  split <;> omega

/-- **A window that ends** gives back what it has not paid.

**Proof sketch.** Before its end the window has taken its budget, after it what it paid, and the
refund, whose key was new, returns the difference to the account that funded it. -/
theorem leased_closed {id : LeaseId} {row : RouteLease} {state : RouteLeaseState} {paid : Int}
    (hb : Booking db) (hbooks : RouteLeaseBooks env db) (ha : a.ofPool = true)
    (hrow : db.routeLeases.find? id = some row)
    (hend : (row.state = .offered ∧ (paid = 0 ∨ paid = row.paid) ∧
        (state = .cancelled ∨ (state = .expired ∧ toMs row.offerExpiresAt ≤ tx.clock 0))) ∨
      (row.state.running = true ∧ paid = row.paid ∧ state = .completed ∧
        ∃ ends, row.endsMs = some ends ∧ ends ≤ tx.clock 0))
    (hrefund : BookedIf (0 < row.budget - paid) env db.xid db.books (.routeRefund id)
      [(.routeEscrow id, -(row.budget - paid)),
        (fundingAccount row.sponsorId row.terms.cooperative, row.budget - paid)] db'.books)
    (hdb' : db'.routeLeases = db.routeLeases.set id (row.closed t state)) :
    db'.books.balance a + leasedFrom db' a = db.books.balance a + leasedFrom db a := by
  have hacc := hbooks.accounted id row hrow
  have hfunded : row.state.funded = true := by
    rcases hend with ⟨hstate, -⟩ | ⟨hstate, -⟩
    · rw [hstate]
      rfl
    · exact RouteLeaseState.funded_of_running hstate
  have hended : state.funded = false := by
    rcases hend with ⟨-, -, rfl | ⟨rfl, -⟩⟩ | ⟨-, -, rfl, -⟩ <;> rfl
  have hpaid : paid = row.paid := by
    rcases hend with ⟨hstate, rfl | hpaid, -⟩ | ⟨-, hpaid, -⟩
    · exact (hacc.sound.paid_eq_zero (hacc.sound.offered hstate)).symm
    · exact hpaid
    · exact hpaid
  subst hpaid
  have hfresh : db.books.findKey (.routeRefund id) = none := by
    refine hb.fresh fun ⟨l, hl, hended⟩ => ?_
    rw [hrow, Option.some.injEq] at hl
    subst hl
    rw [hfunded] at hended
    cases hended
  have hescrow : AccountId.routeEscrow id ≠ a := by
    rintro rfl
    cases ha
  have hleft := hacc.sound.remaining_nonneg.2
  unfold RouteLease.remaining at hleft
  have hbalance := hrefund.balance_of_fresh hfresh (a := a) fun hnone => by
    simp only [Ledger.entrySum_cons, Ledger.entrySum_nil, if_neg hescrow]
    split <;> omega
  rw [Ledger.entrySum_cons, Ledger.entrySum_cons, if_neg hescrow] at hbalance
  rw [hbalance, leasedFrom, hdb', Table.sum_set hrow]
  have hbefore : row.taken = row.budget := if_pos hfunded
  have hafter : (row.closed t state).taken = row.paid := by
    show (if state.funded = true then _ else _) = _
    rw [hended]
    rfl
  rw [hbefore, hafter]
  simp only [Ledger.entrySum_nil, leasedFrom]
  show _ + _ + (_ + ((if row.payer = a then _ else _) - if row.payer = a then _ else _)) = _
  unfold RouteLease.payer
  split <;> omega

/-- No window is funded by what was burned. -/
theorem leasedFrom_burn (db : Db) (pool : PoolId) : leasedFrom db (.coopBurn pool) = 0 := by
  refine Table.sum_eq_zero fun _ l _ => if_neg ?_
  unfold RouteLease.payer fundingAccount
  split
  · rename_i c _
    cases c.source <;> exact AccountId.noConfusion
  · exact AccountId.noConfusion

/-- Nothing is committed to what is burned. -/
theorem committedTo_burn (db : Db) (pool : PoolId) : committedTo db (.coopBurn pool) = 0 := by
  refine Table.sum_eq_zero fun _ f _ => if_neg ?_
  cases f.destination <;> exact AccountId.noConfusion

/-! ### Every change -/

/-- What a change moves on an account of a pool, beside its windows. -/
structure PoolsApart (db db' : Db) : Prop where
  balance : ∀ a, a.ofPool = true →
    db'.books.balance a + leasedFrom db' a = db.books.balance a + leasedFrom db a
  fundings : db'.fundings = db.fundings
  settlements : db'.settlements = db.settlements
  refunds : db'.refunds = db.refunds

/-- **The changes that concern the accounts of pools**, beside windows: credits are committed, a
charge is recycled, a consumption is given back. -/
inductive PoolMove (db db' : Db) : Prop
  | apart (h : PoolsApart db db')
  | funded {id : Nat} {f : Funding} (hid : db.fundings.find? id = none)
      (hbalance : ∀ a, a.ofPool = true → db'.books.balance a = db.books.balance a +
        if f.destination.account f.poolId = a then f.amount else 0)
      (hf : db'.fundings = db.fundings.insert id f hid)
      (hl : db'.routeLeases = db.routeLeases) (hs : db'.settlements = db.settlements)
      (hr : db'.refunds = db.refunds)
  | recycled {id : SessionId} {s : Settlement} (hid : db.settlements.find? id = none)
      (hparts : 0 < s.charge ∧ s.charge = s.working + s.reserve + s.burned ∧
        0 ≤ s.working ∧ 0 ≤ s.reserve ∧ 0 ≤ s.burned)
      (hbalance : ∀ a, a.ofPool = true → db'.books.balance a = db.books.balance a + s.into a)
      (hs : db'.settlements = db.settlements.insert id s hid)
      (hl : db'.routeLeases = db.routeLeases) (hf : db'.fundings = db.fundings)
      (hr : db'.refunds = db.refunds)
  | refunded {id : SessionId} {s : Settlement} {r : CoopRefund}
      (hrow : db.settlements.find? id = some s) (hid : db.refunds.find? id = none)
      (hbalance : ∀ a, a.ofPool = true → db'.books.balance a = db.books.balance a - s.into a)
      (hr : db'.refunds = db.refunds.insert id r hid)
      (hl : db'.routeLeases = db.routeLeases) (hf : db'.fundings = db.fundings)
      (hs : db'.settlements = db.settlements)

/-- A change of the books that names no account of a pool. -/
theorem PoolMove.of_balance (hbalance : ∀ a, a.ofPool = true →
      db'.books.balance a = db.books.balance a)
    (hl : db'.routeLeases = db.routeLeases) (hf : db'.fundings = db.fundings)
    (hs : db'.settlements = db.settlements) (hr : db'.refunds = db.refunds) : PoolMove db db' :=
  .apart ⟨fun a ha => by rw [hbalance a ha, leasedFrom, leasedFrom, hl], hf, hs, hr⟩

/-- A window that stays open. -/
theorem PoolMove.of_set {id : LeaseId} {l l' : RouteLease}
    (hl : db.routeLeases.find? id = some l) (hdb' : db'.routeLeases = db.routeLeases.set id l')
    (hopen : l.state.funded = true) (hopen' : l'.state.funded = true)
    (hpayer : l'.payer = l.payer) (hbudget : l'.budget = l.budget)
    (hbalance : ∀ a, a.ofPool = true → db'.books.balance a = db.books.balance a)
    (hf : db'.fundings = db.fundings) (hs : db'.settlements = db.settlements)
    (hr : db'.refunds = db.refunds) : PoolMove db db' :=
  .apart ⟨fun a ha => by rw [hbalance a ha, leased_set hl hpayer hbudget hopen hopen' hdb'], hf, hs,
    hr⟩

/-- What a change does to the accounts of pools.

**Proof sketch.** By the move. Those of users, sessions without a pool and contracts name no account
of a pool. An offered window takes its budget out of the account, a closed one returns the rest, and
the other writes of a window move nothing. -/
theorem Change.pool_cases (h : Change env req tx db db') (hb : Booking db)
    (hbooks : RouteLeaseBooks env db) : PoolMove db db' := by
  rcases h with h | h
  · cases h with
    | accounts u =>
      refine .of_balance (fun a _ => ?_) rfl rfl rfl rfl
      simp only [createAccounts, balance_openAccount]
    | granted _ hb =>
      exact .of_balance (fun a ha => hb.balance_of_not_named (Poolless.ne (.pair rfl rfl) ha)) rfl
        rfl rfl rfl
    | sessionCreated _ _ _ _ hb | nodeLeaseSampled _ _ _ _ _ _ hb | nodeLeaseClosed _ _ _ hb =>
      exact .of_balance (fun a ha => hb.balance_of_not_named (Poolless.ne (.pair rfl rfl) ha)) rfl
        rfl rfl rfl
    | nodeLeaseOffered _ _ _ _ _ _ _ hb =>
      refine .of_balance (fun a ha => ?_) rfl rfl rfl rfl
      rw [hb.balance_of_not_named (Poolless.ne (.pair rfl rfl) ha), balance_openAccount]
    | @sessionFinalized t id s₀ s s' state charge _ _ entries settlements books hs hreport hlive
        hcharge _ _ hsplit hbook =>
      have hfresh : db.books.findKey (.settle id) = none := by
        refine hb.fresh ?_
        rintro ⟨s₁, hs₁, ht⟩
        rw [hs, Option.some.injEq] at hs₁
        rw [← hs₁, hlive] at ht
        cases ht
      have hhold : Poolless (holdEntries s charge) := .pair rfl rfl
      rcases hsplit.pool_cases with ⟨hsame, hpoolless⟩ |
        ⟨r, hid, hsettled, rfl, hpos, hrcharge, hsum, hparts⟩
      · refine .of_balance (fun a ha => hbook.balance_of_not_named (Poolless.ne ?_ ha)) rfl rfl
          hsame rfl
        intro e he
        rcases List.mem_append.1 he with he | he
        · exact hhold e he
        · exact hpoolless e he
      · refine .recycled hid ⟨hrcharge ▸ hpos, hrcharge.trans hsum, hparts⟩ (fun a ha => ?_)
          hsettled rfl rfl rfl
        have hzero : Ledger.entrySum a (holdEntries s charge) = 0 :=
          Ledger.entrySum_eq_zero (hhold.ne ha)
        rw [hbook.balance_of_fresh hfresh, Ledger.entrySum_append, hzero, zero_add]
        · rfl
        · intro hnone
          omega
    | @consumptionRefunded id s row r books hs hrow hid hbook =>
      have hfresh : db.books.findKey (.coopRefund id) = none := by
        refine hb.fresh ?_
        rintro ⟨r₁, hr₁⟩
        rw [hid] at hr₁
        cases hr₁
      refine .refunded hrow hid (fun a ha => ?_) rfl rfl rfl rfl
      rw [hbook.balance_of_fresh hfresh, entrySum_refundEntries _ _ ha]
      rfl
    | routeOffered h =>
      exact .apart ⟨fun a ha => h.leased hb ha rfl, rfl, rfl, rfl⟩
    | windowOffered h =>
      exact .apart ⟨fun a ha => h.leased hb ha rfl, rfl, rfl, rfl⟩
    | routeAccepted hrow hstate =>
      refine .of_set hrow rfl (by rw [hstate]; rfl) ?_ rfl rfl (fun _ _ => rfl) rfl rfl rfl
      show RouteLeaseState.funded _ = _
      rw [hstate]
      rfl
    | routeActivated hrow hstate =>
      exact .of_set hrow rfl (by rw [hstate]; rfl) rfl rfl rfl (fun _ _ => rfl) rfl rfl rfl
    | routeSampled hrow hstate _ _ _ _ _ hsampled _ hbook =>
      refine .of_set hrow rfl (RouteLeaseState.funded_of_running hstate) ?_ ?_ ?_
        (fun a ha => hbook.balance_of_not_named ((poolless_paymentLines _ _ _ _).ne ha)) rfl rfl rfl
      · rw [hsampled]
        exact RouteLeaseState.funded_of_running (RouteLease.sampled_running hstate _ _ _ _ _)
      · rw [hsampled]
        rfl
      · rw [hsampled]
        rfl
    | routeDrained hrow hstate =>
      exact .of_set hrow rfl (RouteLeaseState.funded_of_running hstate) rfl rfl rfl (fun _ _ => rfl)
        rfl rfl rfl
    | routeClosed hrow hend hbook =>
      exact .apart ⟨fun a ha => leased_closed hb hbooks ha hrow hend hbook rfl, rfl, rfl, rfl⟩
    | poolCreated =>
      refine .of_balance (fun a _ => ?_) rfl rfl rfl rfl
      simp only [balance_openAccount]
    | @funded id f books hid _ hbook =>
      have hfresh : db.books.findKey (.coopFunding id) = none := by
        refine hb.fresh ?_
        rintro ⟨f₁, hf₁⟩
        rw [hid] at hf₁
        cases hf₁
      refine .funded hid (fun a ha => ?_) rfl rfl rfl rfl
      have huser : AccountId.available f.userId ≠ a := by
        rintro rfl
        cases ha
      rw [hbook.balance_of_fresh hfresh, Ledger.entrySum_cons, Ledger.entrySum_cons, if_neg huser,
        Ledger.entrySum_nil, zero_add, add_zero]
    | _ => exact .of_balance (fun _ _ => rfl) rfl rfl rfl rfl
  · cases h <;> exact .of_balance (fun _ _ => rfl) rfl rfl rfl rfl

/-- Only the settlement that is given back leaves the sum of what was recycled. -/
theorem recycled_refunded {id : SessionId} {s : Settlement} {r : CoopRefund}
    (hrow : db.settlements.find? id = some s) (hid : db.refunds.find? id = none) :
    db.settlements.sum (Settlement.kept (db.refunds.insert id r hid) a) =
      db.settlements.sum (Settlement.kept db.refunds a) - s.into a := by
  have hother : ∀ k s, k ≠ id →
      Settlement.kept (db.refunds.insert id r hid) a k s = Settlement.kept db.refunds a k s := by
    intro k s hne
    unfold Settlement.kept
    rw [Table.find?_insert_ne (Ne.symm hne)]
  have hgone : Settlement.kept (db.refunds.insert id r hid) a id s = 0 := by
    unfold Settlement.kept
    rw [Table.find?_insert_self, if_neg (Option.some_ne_none r)]
  have hthere : Settlement.kept db.refunds a id s = s.into a := if_pos hid
  rw [Table.sum_eq_of_ne hrow hother, hgone, hthere]
  omega

/-- **Every change keeps the funds of pools.**

**Proof sketch.** By the move. Each changes the balance and one of the sums by the same amount: a
funding, the parts of a new settlement, which has no refund yet, or the parts of one that is given
back. -/
theorem PoolMove.books (h : PoolMove db db') (hp : PoolBooks db) : PoolBooks db' := by
  cases h with
  | apart h =>
    refine ⟨fun a ha => ?_, ?_, ?_⟩
    · rw [h.balance a ha, hp.balance a ha, committedTo, committedTo, recycledInto, recycledInto,
        h.fundings, h.settlements, h.refunds]
    · rw [h.settlements]
      exact hp.parts
    · rw [h.settlements, h.refunds]
      exact hp.settled
  | funded hid hbalance hf hl hs hr =>
    refine ⟨fun a ha => ?_, ?_, ?_⟩
    · have hold := hp.balance a ha
      rw [hbalance a ha, leasedFrom, hl, committedTo, hf, Table.sum_insert, recycledInto, hs, hr]
      unfold leasedFrom committedTo recycledInto at hold
      omega
    · rw [hs]
      exact hp.parts
    · rw [hs, hr]
      exact hp.settled
  | @recycled id s hid hparts hbalance hs hl hf hr =>
    have hnew : db.refunds.find? id = none := by
      by_contra hsome
      exact hp.settled id hsome hid
    refine ⟨fun a ha => ?_, fun id₁ s₁ hs₁ => ?_, fun id₁ hr₁ => ?_⟩
    · have hold := hp.balance a ha
      have hkept : s.kept db.refunds a id = s.into a := if_pos hnew
      rw [hbalance a ha, leasedFrom, hl, committedTo, hf, recycledInto, hs, hr, Table.sum_insert,
        hkept]
      unfold leasedFrom committedTo recycledInto at hold
      omega
    · rw [hs] at hs₁
      rcases Table.find?_insert_cases hs₁ with ⟨rfl, rfl⟩ | ⟨-, hs₁⟩
      · exact hparts
      · exact hp.parts id₁ s₁ hs₁
    · rw [hr] at hr₁
      obtain ⟨s₁, hs₁⟩ := Option.ne_none_iff_exists'.1 (hp.settled id₁ hr₁)
      rw [hs, Table.find?_insert_of_some hs₁]
      exact Option.some_ne_none _
  | @refunded id s r hrow hid hbalance hr hl hf hs =>
    refine ⟨fun a ha => ?_, ?_, fun id₁ hr₁ => ?_⟩
    · have hold := hp.balance a ha
      have hsum : recycledInto db' a = recycledInto db a - s.into a := by
        rw [recycledInto, recycledInto, hs, hr]
        exact recycled_refunded hrow hid
      rw [hbalance a ha, hsum, leasedFrom, hl, committedTo, hf]
      unfold leasedFrom committedTo at hold
      omega
    · rw [hs]
      exact hp.parts
    · rw [hr] at hr₁
      rw [hs]
      by_cases hne : id₁ = id
      · rw [hne, hrow]
        exact Option.some_ne_none _
      · rw [Table.find?_insert_ne (Ne.symm hne)] at hr₁
        exact hp.settled id₁ hr₁

/-- The pools' books of an empty database. -/
theorem initial_poolBooks (admin : UserId) : PoolBooks (Db.initial admin) where
  balance a ha := by
    simp only [Db.initial, createAccounts, balance_openAccount]
    cases a <;> rfl
  parts _ _ hs := by cases hs
  settled _ hr := by cases hr rfl

/-- **The accounts of pools** in every reachable database. -/
theorem reachable_poolBooks (h : Machine.Reachable (controlSystem env) db) : PoolBooks db :=
  (reachable_of_booked_changes (P := fun db => RouteLeaseBooks env db ∧ PoolBooks db)
    (fun admin => ⟨initial_routeLeaseBooks env admin, initial_poolBooks admin⟩)
    (fun _ _ _ _ hb hp hc => ⟨hc.routeLeaseBooks hb hp.1, (hc.pool_cases hb hp.1).books hp.2⟩) h).2

end NetworkAi
