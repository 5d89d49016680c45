import NetworkAi.Invariants.Caps
import NetworkAi.Invariants.PoolFunds

set_option relaxedAutoImplicit false
set_option autoImplicit false

/-!
# The conservation of the funds of a pool

What a pool has in an account, with the budgets of its open windows and the payments of its ended
ones, is what was committed to the account and recycled into it. The account of burned funds has
exactly what the settlements burned that were not given back.

## Main definitions

* `NetworkAi.WindowLeases` — the windows of pools and the leases with cooperative terms.
* `NetworkAi.openBudgets`, `NetworkAi.closedPaid`, `NetworkAi.fundedInto`, `NetworkAi.recycledParts` —
  the sums of the law.

## Main results

* `NetworkAi.pool_conservation` — the law in every reachable database.
-/

namespace NetworkAi

open Relational

variable {env : Env} {req : Request} {tx : Tx} {db db' : Db} {pool : PoolId} {S : FundSource}

/-! ### Windows and their leases -/

/-- **Windows and leases**: every window of a pool has the lease whose terms name its pool and
source, and every lease with cooperative terms has its window. -/
structure WindowLeases (db : Db) : Prop where
  lease : ∀ id w, db.windows.find? id = some w → ∃ l c, db.routeLeases.find? id = some l ∧
    l.terms.cooperative = some c ∧ c.poolId = w.poolId ∧ c.source = w.source
  window : ∀ id l c, db.routeLeases.find? id = some l → l.terms.cooperative = some c →
    (db.windows.find? id).isSome

/-- A new lease with cooperative terms comes with its window. -/
theorem Change.new_cooperative (h : Change env req tx db db') {id : LeaseId} {l : RouteLease}
    {c : CoopContext} (hl : db'.routeLeases.find? id = some l)
    (hnew : db.routeLeases.find? id = none) (hc : l.terms.cooperative = some c) :
    (db'.windows.find? id).isSome := by
  have hset : ∀ {k : LeaseId} {row : RouteLease}, (db.routeLeases.set k row).find? id = some l →
      (db'.windows.find? id).isSome := by
    intro k row hfound
    rcases Table.find?_set_cases hfound with ⟨rfl, -, hsome⟩ | ⟨-, hold⟩
    · rw [hnew] at hsome
      cases hsome
    · rw [hnew] at hold
      cases hold
  rcases h with h | h
  · cases h with
    | routeOffered hoffered hplain =>
      rcases Table.find?_insert_cases (h := hoffered.id) hl with ⟨rfl, rfl⟩ | ⟨-, hold⟩
      · exact absurd (hplain.symm.trans hc) (Option.some_ne_none c).symm
      · rw [hnew] at hold
        cases hold
    | windowOffered hoffered =>
      rcases Table.find?_insert_cases (h := hoffered.id) hl with ⟨rfl, rfl⟩ | ⟨-, hold⟩
      · rw [Table.find?_insert_self]
        rfl
      · rw [hnew] at hold
        cases hold
    | routeAccepted | routeActivated | routeSampled | routeDrained | routeClosed => exact hset hl
    | _ =>
      rw [hnew] at hl
      cases hl
  · cases h <;>
    · rw [hnew] at hl
      cases hl

/-- **Every change keeps windows and leases.** -/
theorem Change.windowLeases (h : Change env req tx db db') (hw : WindowLeases db) :
    WindowLeases db' where
  lease id w hfound := by
    rcases h.windows.cases hfound with ⟨w, hold, rfl⟩ |
      ⟨-, t, d, route, terms, books, p, c, -, hmatch, rfl, hl, -⟩
    · obtain ⟨l, c, hl, hc, hpool, hsource⟩ := hw.lease id w hold
      obtain ⟨l', hl', hkeeps⟩ := h.routeLeases.old hl
      exact ⟨l', c, hl', by rw [hkeeps.terms, hc], hpool, hsource⟩
    · exact ⟨_, c, hl, hmatch.context, hmatch.poolId, hmatch.source⟩
  window id l' c hl' hc := by
    rcases h.routeLeases.cases hl' with ⟨l, hl, hkeeps⟩ | ⟨hnew, -⟩
    · rw [hkeeps.terms] at hc
      obtain ⟨w, hfound⟩ := Option.isSome_iff_exists.1 (hw.window id l c hl hc)
      obtain ⟨w', hfound', -⟩ := h.windows.old hfound
      rw [hfound']
      rfl
    · exact h.new_cooperative hl' hnew hc

/-- In every reachable database, windows and their leases belong together. -/
theorem reachable_windowLeases (h : Machine.Reachable (controlSystem env) db) : WindowLeases db :=
  reachable_of_changes (P := WindowLeases)
    (fun _ => ⟨fun _ _ hw => (by cases hw), fun _ _ _ hl => (by cases hl)⟩)
    (fun _ _ _ _ hw hc => hc.windowLeases hw) h

/-! ### The sums -/

/-- The windows of a pool that a source funds. -/
def fundedBy (db : Db) (pool : PoolId) (S : FundSource) :
    List (LeaseId × CoopWindow × RouteLease) :=
  (poolWindows db pool).filter fun w => w.2.1.source = S

/-- The budgets of the open windows of a pool that a source funds. -/
def openBudgets (db : Db) (pool : PoolId) (S : FundSource) : Int :=
  (((fundedBy db pool S).filter fun w => w.2.2.state.funded).map (·.2.2.budget)).sum

/-- What the ended windows of a pool that a source funds have paid. -/
def closedPaid (db : Db) (pool : PoolId) (S : FundSource) : Int :=
  (((fundedBy db pool S).filter fun w => !w.2.2.state.funded).map (·.2.2.paid)).sum

/-- What was committed to a source of a pool. -/
def fundedInto (db : Db) (pool : PoolId) (S : FundSource) : Int :=
  db.fundings.sum fun _ f => if f.poolId = pool ∧ f.destination = S then f.amount else 0

/-- The part of a settlement that was recycled into a source. -/
def Settlement.part (s : Settlement) : FundSource → Int
  | .working => s.working
  | .reserve => s.reserve

/-- A sum over the settlements of a pool that were not given back. -/
def recycledParts (db : Db) (pool : PoolId) (part : Settlement → Int) : Int :=
  db.settlements.sum fun id s =>
    if s.poolId = pool ∧ db.refunds.find? id = none then part s else 0

/-- Each source of each pool has an account of its own. -/
theorem FundSource.account_injective {S S' : FundSource} {pool pool' : PoolId} :
    S.account pool = S'.account pool' ↔ pool = pool' ∧ S = S' := by
  cases S <;> cases S' <;> simp [FundSource.account]

/-- What windows have taken, by those that are open and those that ended. -/
theorem sum_taken (windows : List (LeaseId × CoopWindow × RouteLease)) :
    (windows.map fun w => w.2.2.taken).sum =
      ((windows.filter fun w => w.2.2.state.funded).map (·.2.2.budget)).sum +
        ((windows.filter fun w => !w.2.2.state.funded).map (·.2.2.paid)).sum := by
  induction windows with
  | nil => rfl
  | cons w windows ih =>
    rw [List.map_cons, List.sum_cons, ih, RouteLease.taken]
    by_cases hopen : w.2.2.state.funded = true
    · simp only [List.filter_cons, hopen, if_true, Bool.not_true, Bool.false_eq_true, if_false,
        List.map_cons, List.sum_cons]
      ring
    · simp only [List.filter_cons, hopen, if_false, Bool.not_false, if_true, Bool.false_eq_true,
        List.map_cons, List.sum_cons]
      ring

/-- What windows took out of a source: the budgets of the open ones, and what the ended ones
paid.

**Proof sketch.** A lease is paid by the source exactly when its window is funded by it, by the
terms that both have. So the sum over the leases is one over the windows (`Table.sum_join`), whose
open ones take their budgets and whose ended ones what they paid. -/
theorem leasedFrom_source (hw : WindowLeases db) :
    leasedFrom db (S.account pool) = openBudgets db pool S + closedPaid db pool S := by
  have hmem : ∀ {id : LeaseId} {w : CoopWindow} {l : RouteLease},
      (id, w, l) ∈ fundedBy db pool S ↔ db.windows.find? id = some w ∧ w.poolId = pool ∧
        db.routeLeases.find? id = some l ∧ w.source = S := by
    intro id w l
    simp only [fundedBy, List.mem_filter, mem_poolWindows, decide_eq_true_eq, and_assoc]
  have hnodup : ((fundedBy db pool S).map Prod.fst).Nodup :=
    ((List.filter_sublist).map Prod.fst).nodup (nodup_poolWindows db pool)
  -- a lease is funded by the source exactly when its window is
  have hjoin : leasedFrom db (S.account pool) =
      ((fundedBy db pool S).map fun w => w.2.2.taken).sum := by
    refine Table.sum_join (h := fun _ w => w.2.taken) hnodup (fun r hr => ?_)
      fun id l hl hnone => if_neg fun hpays => hnone ?_
    · obtain ⟨id, w, l⟩ := r
      obtain ⟨hwindow, rfl, hl, rfl⟩ := hmem.1 hr
      obtain ⟨l', c, hl', hc, hpool, hsource⟩ := hw.lease id w hwindow
      rw [hl, Option.some.injEq] at hl'
      subst hl'
      have hpayer : l.payer = w.source.account w.poolId := by
        rw [RouteLease.payer, hc, fundingAccount, hpool, hsource]
      exact ⟨l, hl, if_pos hpayer⟩
    · -- a lease that the source pays has cooperative terms, so a window of the pool
      cases hc : l.terms.cooperative with
      | none =>
        rw [RouteLease.payer, hc, fundingAccount] at hpays
        cases S <;> cases hpays
      | some c =>
        obtain ⟨w, hwindow⟩ := Option.isSome_iff_exists.1 (hw.window id l c hl hc)
        obtain ⟨l', c', hl', hc', hpool, hsource⟩ := hw.lease id w hwindow
        rw [hl, Option.some.injEq] at hl'
        subst hl'
        rw [hc, Option.some.injEq] at hc'
        subst hc'
        rw [RouteLease.payer, hc, fundingAccount, FundSource.account_injective] at hpays
        refine List.mem_map.2 ⟨(id, w, l), hmem.2 ⟨hwindow, ?_, hl, ?_⟩, rfl⟩
        · rw [← hpool, hpays.1]
        · rw [← hsource, hpays.2]
  rw [hjoin, sum_taken]
  rfl

/-- What was committed to a source. -/
theorem committedTo_source : committedTo db (S.account pool) = fundedInto db pool S := by
  refine Table.sum_congr fun _ f _ => ?_
  simp only [FundSource.account_injective]

/-- What was recycled into a source. -/
theorem recycledInto_source :
    recycledInto db (S.account pool) = recycledParts db pool fun s => s.part S := by
  refine Table.sum_congr fun id s _ => ?_
  unfold Settlement.kept Settlement.into Settlement.entries
  simp only [Ledger.entrySum_cons, Ledger.entrySum_nil]
  cases S <;> by_cases hpool : s.poolId = pool <;> by_cases hr : db.refunds.find? id = none <;>
    simp [FundSource.account, Settlement.part, hpool, hr]

/-- What was recycled into the account of burned funds. -/
theorem recycledInto_burn :
    recycledInto db (.coopBurn pool) = recycledParts db pool (·.burned) := by
  refine Table.sum_congr fun id s _ => ?_
  unfold Settlement.kept Settlement.into Settlement.entries
  simp only [Ledger.entrySum_cons, Ledger.entrySum_nil]
  by_cases hpool : s.poolId = pool <;> by_cases hr : db.refunds.find? id = none <;>
    simp [hpool, hr]

/-! ### The law -/

/-- **The conservation of the funds of a pool.** In every reachable database, what a pool has in its
working and in its reserve account, with the budgets of the open windows that the account funds and
what its ended windows have paid, is what was committed to the account and the parts of the
settlements that were recycled into it and not given back; and the account of burned funds has the
burned parts of those settlements.

**Proof sketch.** The balance of an account of the pool is what was committed and recycled to it,
less what its leases took (`PoolBooks`). For the two sources the three sums are those of the
statement; the burn account has no fundings and no leases. -/
theorem pool_conservation (h : Machine.Reachable (controlSystem env) db) (pool : PoolId) :
    (∀ S : FundSource,
      db.books.balance (S.account pool) + openBudgets db pool S + closedPaid db pool S =
        fundedInto db pool S + recycledParts db pool fun s => s.part S) ∧
      db.books.balance (.coopBurn pool) = recycledParts db pool (·.burned) := by
  have hbooks := reachable_poolBooks h
  have hwindows := reachable_windowLeases h
  refine ⟨fun S => ?_, ?_⟩
  · have hbalance := hbooks.balance (S.account pool) (by cases S <;> rfl)
    rw [leasedFrom_source hwindows, committedTo_source, recycledInto_source] at hbalance
    omega
  · have hbalance := hbooks.balance (.coopBurn pool) rfl
    rw [leasedFrom_burn, committedTo_burn, recycledInto_burn] at hbalance
    omega

/-- The pool of the laboratory, after the settlement of the session `41000`. -/
theorem pool_conservation_lab :
    (∀ S : FundSource,
      (labDb (labSetup ++ labPlan ++ labWork)).books.balance (S.account 29000) +
          openBudgets (labDb (labSetup ++ labPlan ++ labWork)) 29000 S +
          closedPaid (labDb (labSetup ++ labPlan ++ labWork)) 29000 S =
        fundedInto (labDb (labSetup ++ labPlan ++ labWork)) 29000 S +
          recycledParts (labDb (labSetup ++ labPlan ++ labWork)) 29000 fun s => s.part S) ∧
      (labDb (labSetup ++ labPlan ++ labWork)).books.balance (.coopBurn 29000) =
        recycledParts (labDb (labSetup ++ labPlan ++ labWork)) 29000 (·.burned) :=
  pool_conservation (reachable_lab _) 29000

end NetworkAi
