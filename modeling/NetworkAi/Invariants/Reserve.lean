import NetworkAi.Invariants.EffectOnce
import NetworkAi.Invariants.Expansion

set_option relaxedAutoImplicit false
set_option autoImplicit false

/-!
# The protected reserve

A window is paid whole by one account of its pool. The reserve pays only for an essential window
that the working funds do not pay, under an incident of its own; a renewal takes no more than its
authorization leaves.

## Main definitions

* `NetworkAi.WindowOpened` — a new window and its funds.
* `NetworkAi.Authorization.Leaves` — an authorization leaves a budget to a source.

## Main results

* `NetworkAi.offer_opened`, `NetworkAi.attempt_opened` — the windows that requests open.
* `NetworkAi.reserve_protected` — new windows and incidents, at every step.
-/

namespace NetworkAi

open Relational

variable {env : Env} {req : Request} {tx t : Tx} {db db₁ db' : Db} {id lease : LeaseId}
  {w : CoopWindow} {l : RouteLease}

/-- A change of a request that opens no window keeps the windows and the incidents. -/
theorem Change.windows_same (h : Change env req tx db db') (hreq : req.opensWindows = false) :
    db'.windows = db.windows ∧ db'.incidents = db.incidents := by
  rcases h with h | h
  · cases h with
    | windowOffered _ _ _ _ hopens =>
      rw [hreq] at hopens
      cases hopens
    | _ => exact ⟨rfl, rfl⟩
  · cases h <;> exact ⟨rfl, rfl⟩

/-- A step of a request that opens no window keeps the windows and the incidents. -/
theorem step_windows_same {i : Tx × Request} (hreq : i.2.opensWindows = false) :
    ((controlSystem env).step i db).windows = db.windows ∧
      ((controlSystem env).step i db).incidents = db.incidents := by
  refine (step_changes i db).preserves
    (P := fun db' => db'.windows = db.windows ∧ db'.incidents = db.incidents) ?_ ⟨rfl, rfl⟩
  rintro a b hchange ⟨hwindows, hincidents⟩
  obtain ⟨hw, hi⟩ := hchange.windows_same hreq
  exact ⟨hw.trans hwindows, hi.trans hincidents⟩

/-! ### A new window -/

/-- **A new window**: its budget is the cost of its group, and leaves one account of the pool for
its escrow. Funds of the reserve pay an essential window that the working funds do not pay, and one
incident records it. -/
structure WindowOpened (db db' : Db) (id : LeaseId) (w : CoopWindow) (l : RouteLease) : Prop where
  lease : db'.routeLeases.find? id = some l
  cost : ∃ p g, db.pools.find? w.poolId = some p ∧ g ∈ p.groups ∧ g.key = w.groupKey ∧
    l.budget = g.cost
  posted : ∀ a, db'.books.balance a = db.books.balance a + Ledger.entrySum a
    [(w.source.account w.poolId, -l.budget), (.routeEscrow id, l.budget)]
  working : w.source = .working → w.incidentId = none ∧ db'.incidents = db.incidents
  reserve : w.source = .reserve → w.kind = .essential ∧
    db.books.balance (.coopWorking w.poolId) < l.budget ∧
    l.budget ≤ db.books.balance (.coopReserve w.poolId) ∧
    ∃ j i, ∃ hj : db.incidents.find? j = none, w.incidentId = some j ∧
      db'.incidents = db.incidents.insert j i hj ∧
      i.poolId = w.poolId ∧ i.groupKey = w.groupKey ∧ i.routeId = l.routeId ∧ i.budget = l.budget

/-- The number of the next transaction is no part of a new window. -/
theorem WindowOpened.committed (h : WindowOpened db db' id w l) (xid : Nat) :
    WindowOpened db { db' with xid } id w l :=
  ⟨h.lease, h.cost, h.posted, h.working, h.reserve⟩

/-- The offer of a window opens one window, and nothing that follows touches its funds. -/
theorem offer_opened {user : Actor} {pool : PoolId} {d : WindowRequest} {o : WindowOptions}
    (hbooking : Booking db)
    (h : offerWindowTransaction env t db user pool d o = .ok (lease, db₁))
    (helse : Elsewhere lease db₁ db') :
    (db'.windows = db.windows ∧ db'.incidents = db.incidents) ∨
      ∃ w l, ∃ hid : db.windows.find? lease = none,
        db'.windows = db.windows.insert lease w hid ∧ WindowOpened db db' lease w l := by
  rcases offerWindowTransaction_cases h with rfl | ⟨p, hp, hnone, hoffer⟩
  · exact .inl ⟨helse.windows, helse.incidents⟩
  · obtain ⟨rd, route, terms, books, incidents, w, c, hoffered, hid, rfl, hmatch, -, -, -, -,
      hfunded, rfl⟩ := offerNewWindow_ok hp hnone hoffer
    obtain ⟨l, hl, -, hroute, hbudget⟩ :=
      helse.lease _ (Table.find?_insert_self (h := hoffered.id))
    have hroute : l.routeId = terms.routeId := hroute
    have hbudget : l.budget = terms.budget := hbudget
    refine .inr ⟨w, l, hid, helse.windows, hl, ?_, fun a => ?_, fun hsource => ?_,
      fun hsource => ?_⟩
    · obtain ⟨g, hg, hkey, hrate, hduration⟩ := hmatch.group
      refine ⟨p, g, hmatch.pool, hg, hkey, ?_⟩
      rw [hbudget, hoffered.budget, hrate, hduration]
      rfl
    · rw [hbudget, helse.books]
      exact hoffered.balance_of_source hbooking hmatch a
    · rw [helse.incidents]
      exact hfunded.working hsource
    · rw [helse.incidents, hbudget, hroute]
      exact hfunded.reserve hsource

/-! ### Renewals -/

/-- An authorization leaves a budget to a source. -/
def Authorization.Leaves (a : Authorization) (budget : Int) : FundSource → Prop
  | .working => budget ≤ a.maximumWorking - a.workingCommitted
  | .reserve => budget ≤ a.maximumReserve - a.reserveCommitted

/-- The source of a renewal is one whose limit leaves the cost. -/
theorem leaves_of_renewalSource {s : Snapshot} {cost : Int} {a : Authorization}
    {source : FundSource}
    (h : renewalSource s cost (a.maximumWorking - a.workingCommitted)
      (a.maximumReserve - a.reserveCommitted) = some source) : a.Leaves cost source := by
  unfold renewalSource at h
  split at h
  · rename_i hworking
    obtain rfl := Option.some.inj h
    exact hworking.2
  · split at h
    · rename_i hreserve
      obtain rfl := Option.some.inj h
      exact hreserve.2.2
    · cases h

/-- **An attempt** opens no window, or one that its authorization leaves the budget of. -/
theorem attempt_opened {auth : AuthorizationId} (hbooking : Booking db)
    (h : attempt env t db auth = .ok db') :
    (db'.windows = db.windows ∧ db'.incidents = db.incidents) ∨
      ∃ lease w l, ∃ hid : db.windows.find? lease = none,
        db'.windows = db.windows.insert lease w hid ∧ WindowOpened db db' lease w l ∧
        ∃ a, db.authorizations.find? auth = some a ∧ a.Leaves l.budget w.source := by
  cases attempt_ok h with
  | unchanged | noted | closed => exact .inl ⟨rfl, rfl⟩
  | @renewed _ a p g source r mandates evidence ha _ _ _ hsource _ h =>
    obtain ⟨lease, user, d, o, db₁, db₄, db₅, -, hoffer, h₁₄, ⟨l₄, w₄, hl₄, hw₄, hcost, hpays⟩,
      hdemand, rfl⟩ := openRenewal_opened h
    have h₄ : Elsewhere lease db₄ (note t db₅ auth .renewed) :=
      (recordDemand_elsewhere hdemand).trans (note_elsewhere auth .renewed)
    rcases offer_opened hbooking hoffer (h₁₄.trans h₄) with hsame | ⟨w, l, hid, hwindows, hopened⟩
    · exact .inl hsame
    · -- the window that the authorization pays for is the one that was offered
      have hw : w₄ = w := by
        have hfound := hw₄
        rw [← h₄.windows, hwindows, Table.find?_insert_self, Option.some.injEq] at hfound
        exact hfound.symm
      obtain ⟨l', hl', -, -, hbudget⟩ := h₄.lease l₄ hl₄
      have hl : l' = l := by
        rw [hopened.lease, Option.some.injEq] at hl'
        exact hl'.symm
      subst hw hl
      refine .inr ⟨lease, w₄, l', hid, hwindows, hopened, a, ha, ?_⟩
      rw [hbudget, hcost, hpays]
      exact leaves_of_renewalSource hsource

/-! ### Every step -/

/-- **A step** opens no window, or one, for a manager's request or for an attempt whose
authorization leaves its budget.

**Proof sketch.** By the request. Only a manager's offer and an attempt can open a window; a step of
any other request, or one that fails, leaves the windows and the incidents. What the two open is
said by the lemmas of the offer and of the attempt, and the end of the transaction changes nothing
of it. -/
theorem step_opened (h : Machine.Reachable (controlSystem env) db) (i : Tx × Request)
    (hdb' : db' = (controlSystem env).step i db) :
    (db'.windows = db.windows ∧ db'.incidents = db.incidents) ∨
      ∃ lease w l, ∃ hid : db.windows.find? lease = none,
        db'.windows = db.windows.insert lease w hid ∧ WindowOpened db db' lease w l ∧
        ((∃ user pool d, i.2 = .user user (.offerWindow pool d)) ∨
          ∃ auth a, i.2 = .background (.attempt auth) ∧
            db.authorizations.find? auth = some a ∧ a.Leaves l.budget w.source) := by
  have hbooking := reachable_booking h
  by_cases hreq : i.2.opensWindows = false
  · exact .inl (hdb' ▸ step_windows_same hreq)
  rcases perform_step env db i with hquiet | ⟨db₁, hrun, hstep⟩
  · rw [← hdb'] at hquiet
    have hwindows := congrArg Db.windows hquiet
    have hincidents := congrArg Db.incidents hquiet
    exact .inl ⟨hwindows, hincidents⟩
  rw [hstep] at hdb'
  subst hdb'
  obtain ⟨tx, req⟩ := i
  cases req with
  | node | gateway => exact absurd rfl hreq
  | user user r =>
    cases r with
    | offerWindow pool d =>
      simp only [perform, performUser, Checked.bind_ok, need_ok, exists_const] at hrun
      rw [Checked.map_ok] at hrun
      obtain ⟨-, ⟨lease, db₂⟩, hoffer, rfl⟩ := hrun
      have helse : Elsewhere lease db₂ { db₂ with xid := db.xid + 1 } :=
        ⟨rfl, rfl, rfl, rfl, rfl, rfl, rfl, rfl, rfl, fun l hl => ⟨l, hl, rfl, rfl, rfl⟩⟩
      rcases offer_opened hbooking hoffer helse with hsame | ⟨w, l, hid, hwindows, hopened⟩
      · exact .inl hsame
      · exact .inr ⟨lease, w, l, hid, hwindows, hopened, .inl ⟨user, pool, d, rfl⟩⟩
    | _ => exact absurd rfl hreq
  | background r =>
    cases r with
    | attempt auth =>
      rcases attempt_opened hbooking hrun with hsame |
        ⟨lease, w, l, hid, hwindows, hopened, a, ha, hleaves⟩
      · exact .inl hsame
      · exact .inr ⟨lease, w, l, hid, hwindows, hopened.committed _,
          .inr ⟨auth, a, rfl, ha, hleaves⟩⟩
    | _ => exact absurd rfl hreq

/-- **The reserve is protected.** At every step from a reachable database, a new window is opened by
a manager's request or by an attempt whose authorization leaves its budget to its source. Its budget
is the cost of its group, and one account of its pool pays it whole and is left no debt. The reserve
pays only for an essential window whose cost the working funds do not cover and the reserve covers,
and then one incident records its pool, group, route and cost; no other window has an incident, and
no step records one without such a window.

**Proof sketch.** A step opens no window, or one whose opening says everything (`step_opened`); its
source is in a reachable database, and so without a debt. An incident is new only with a window out
of the reserve, which has its number. -/
theorem reserve_protected (h : Machine.Reachable (controlSystem env) db) (i : Tx × Request)
    (hdb' : db' = (controlSystem env).step i db) :
    (∀ id w, db.windows.find? id = none → db'.windows.find? id = some w →
      ∃ l, WindowOpened db db' id w l ∧
        0 ≤ db'.books.balance (w.source.account w.poolId) ∧
        ((∃ user pool d, i.2 = .user user (.offerWindow pool d)) ∨
          ∃ auth a, i.2 = .background (.attempt auth) ∧
            db.authorizations.find? auth = some a ∧ a.Leaves l.budget w.source)) ∧
    (∀ j, db.incidents.find? j = none → db'.incidents.find? j ≠ none →
      ∃ id w, db.windows.find? id = none ∧ db'.windows.find? id = some w ∧
        w.source = .reserve ∧ w.incidentId = some j) := by
  have hreach : Machine.Reachable (controlSystem env) db' := hdb' ▸ h.step i
  rcases step_opened h i hdb' with ⟨hwindows, hincidents⟩ |
    ⟨lease, w, l, hid, hwindows, hopened, hopener⟩
  · refine ⟨fun id w hnone hsome => ?_, fun j hnone hsome => ?_⟩
    · rw [hwindows, hnone] at hsome
      cases hsome
    · rw [hincidents] at hsome
      exact absurd hnone hsome
  refine ⟨fun id w₁ hnone hsome => ?_, fun j hnone hsome => ?_⟩
  · rw [hwindows] at hsome
    rcases Table.find?_insert_cases (h := hid) hsome with ⟨rfl, rfl⟩ | ⟨-, hold⟩
    · refine ⟨l, hopened, (reachable_balance hreach ?_).1, hopener⟩
      cases w₁.source <;> exact AccountId.noConfusion
    · rw [hnone] at hold
      cases hold
  · refine ⟨lease, w, hid, by rw [hwindows, Table.find?_insert_self], ?_⟩
    cases hsource : w.source with
    | working =>
      rw [(hopened.working hsource).2] at hsome
      exact absurd hnone hsome
    | reserve =>
      obtain ⟨-, -, -, j', i', hj', hincident, hincidents, -⟩ := hopened.reserve hsource
      refine ⟨rfl, ?_⟩
      by_cases hne : j = j'
      · rw [hne]
        exact hincident
      · rw [hincidents, Table.find?_insert_ne (Ne.symm hne)] at hsome
        exact absurd hnone hsome

/-- The pool `29000` of the laboratory, of which only the reserve is funded. -/
def labReserve : List (Tx × Request) := labSetup ++ [
    (labTx 27 0, .background (.bootstrap 0)),
    (labTx 29 0, .user labAdmin (.createPool ⟨"p", "2h", 1, [⟨"g", [19000, 20000], 1, 60⟩]⟩)),
    (labTx 31 0, .user labAdmin (.fund 29000 ⟨.reserve, 300000, "h", 2⟩))]

/-- The administrator of the laboratory offers a window out of the reserve. -/
def labReserveOffer : Tx × Request :=
  (labTx 36 0, .user labAdmin (.offerWindow 29000 ⟨"g", .reserve, "r", 1⟩))

/-- The laboratory's window out of the reserve is opened. -/
theorem reserve_protected_lab :
    ∃ w l, w.source = .reserve ∧ WindowOpened (labDb labReserve)
      ((controlSystem labEnv).step labReserveOffer (labDb labReserve)) 36006 w l := by
  have hlab : (labDb labReserve).windows.find? 36006 = none ∧
      (((controlSystem labEnv).step labReserveOffer (labDb labReserve)).windows.find? 36006).map
        (·.source) = some .reserve := by decide +kernel
  obtain ⟨hnone, hsource⟩ := hlab
  obtain ⟨w, hw, hreserve⟩ := Option.map_eq_some_iff.1 hsource
  obtain ⟨l, hopened, -⟩ :=
    (reserve_protected (reachable_lab labReserve) labReserveOffer rfl).1 36006 w hnone hw
  exact ⟨w, l, hreserve, hopened⟩

end NetworkAi
