import NetworkAi.Control.LeaseMoves

set_option relaxedAutoImplicit false
set_option autoImplicit false

/-!
# The moves of accounts, pools and declarations

The operations of `auth.ts`, `market.ts`, `cooperative.ts` and `economics.ts` that commit are
sequences of moves: accounts and pools are created, credits granted and committed, windows offered
and consumptions refunded.

## Main results

* `NetworkAi.offerNewWindow_ok` — a pool's window, with the incident that it may need.
* `NetworkAi.fundPool_moves`, `NetworkAi.refundConsumption_moves`, … — the operations.
-/

namespace NetworkAi

open Relational

variable {env : Env} {req : Request} {tx t : Tx} {db db' : Db}

/-! ### Accounts, quotes and grants -/

/-- A new user is one change. -/
theorem createUser_moves {user : Actor} {role : Role} (h : createUser t db user role = .ok db') :
    Moves env req tx db db' := by
  unfold createUser at h
  simp only [Checked.bind_ok, Checked.pure_ok] at h
  obtain ⟨registry, hregistry, rfl⟩ := h
  have hr : Move env req tx db { db with registry } :=
    .registry (Registry.createUser_operates hregistry).toEvolves
      fun _ => (@Registry.createUser_operates env _ _ _ _ _ hregistry).turns
  exact (Moves.single hr).trans (.single (.accounts (t.uuid 0)))

/-- A quote is one change. -/
theorem quote_moves {user : Actor} {d : QuoteRequest} {id : QuoteId}
    (h : quote t db user d = .ok (id, db')) : Moves env req tx db db' := by
  unfold quote at h
  simp only [Checked.bind_ok, parse_ok, need_ok, needRow_ok, reference_ok, Checked.pure_ok,
    exists_const, Table.insert?_eq_some, Prod.mk.injEq] at h
  obtain ⟨-, row, hrow, -, -, maximum, hmax, -, _, ⟨hid, rfl⟩, -, rfl⟩ := h
  exact .single (.quoted hid hrow rfl hmax)

/-- A grant is one change. -/
theorem grant_moves {user : Actor} {d : GrantRequest} {j : JournalId}
    (h : grant env t db user d = .ok (j, db')) : Moves env req tx db db' := by
  unfold grant Actor.admin at h
  simp only [Checked.bind_ok, parse_ok, need_ok, exists_const] at h
  obtain ⟨-, -, -, -, h⟩ := h
  obtain ⟨books, hb, rfl⟩ := Db.post_ok h
  exact .single (.granted (.inr ⟨_, rfl⟩) hb)

/-- The administrator's first grant is one change. -/
theorem bootstrap_moves {user : UserId} (h : bootstrap env t db user = .ok db') :
    Moves env req tx db db' := by
  unfold bootstrap at h
  simp only [Checked.map_ok, Prod.exists] at h
  obtain ⟨j, db₁, hpost, rfl⟩ := h
  obtain ⟨books, hb, rfl⟩ := Db.post_ok hpost
  exact .single (.granted (.inl rfl) hb)

/-- An operation of the registry alone. -/
theorem withRegistry_moves {x : Except Failure Registry}
    (hx : ∀ r, x = .ok r → db.registry.Operates env r) (h : db.withRegistry x = .ok db') :
    Moves env req tx db db' := by
  unfold Db.withRegistry at h
  simp only [Checked.bind_ok, Checked.pure_ok] at h
  obtain ⟨registry, hregistry, rfl⟩ := h
  have hoperates := hx registry hregistry
  exact .single (.registry hoperates.toEvolves fun _ => hoperates.turns)

/-! ### Pools -/

/-- The groups of a plan are frozen under the keys that it proposes. -/
theorem scanGroups_keys {acc acc' : PlanScan × List CoopGroup} :
    ∀ {gs : List PlanGroup}, gs.foldlM (scanGroup t db) acc = .ok acc' →
      acc'.2.map (·.key) = acc.2.map (·.key) ++ gs.map (·.key)
  | [], h => by
    simp only [List.foldlM_nil, Checked.pure_ok] at h
    simp [h]
  | g :: gs, h => by
    simp only [List.foldlM_cons, Checked.bind_ok] at h
    obtain ⟨acc₁, hg, h⟩ := h
    unfold scanGroup at hg
    simp only [Checked.bind_ok, reference_ok, Checked.pure_ok, Prod.exists] at hg
    obtain ⟨scan, options, -, last, model, -, rfl⟩ := hg
    rw [scanGroups_keys h]
    simp

/-- The routes of a group are frozen from routes that exist. -/
theorem scanRoutes_exist {key : String} {acc acc' : PlanScan × List (CoopRoute × String)} :
    ∀ {ids : List RouteId}, ids.foldlM (scanRoute t db key) acc = .ok acc' →
      (∀ o ∈ acc.2, (db.registry.routes.find? o.1.routeId).isSome) →
      ∀ o ∈ acc'.2, (db.registry.routes.find? o.1.routeId).isSome
  | [], h, hacc => by
    simp only [List.foldlM_nil, Checked.pure_ok] at h
    exact h ▸ hacc
  | id :: ids, h, hacc => by
    simp only [List.foldlM_cons, Checked.bind_ok] at h
    obtain ⟨acc₁, hid, h⟩ := h
    unfold scanRoute at hid
    simp only [Checked.bind_ok, need_ok, needRow_ok, Checked.pure_ok, exists_const] at hid
    obtain ⟨-, r, hr, offer, -, -, -, rfl⟩ := hid
    refine scanRoutes_exist h fun o ho => ?_
    rcases List.mem_append.1 ho with ho | ho
    · exact hacc o ho
    · rw [List.mem_singleton.1 ho]
      simp [hr]

/-- The groups of a plan have routes that exist. -/
theorem scanGroups_exist {acc acc' : PlanScan × List CoopGroup} :
    ∀ {gs : List PlanGroup}, gs.foldlM (scanGroup t db) acc = .ok acc' →
      (∀ g ∈ acc.2, ∀ r ∈ g.routes, (db.registry.routes.find? r.routeId).isSome) →
      ∀ g ∈ acc'.2, ∀ r ∈ g.routes, (db.registry.routes.find? r.routeId).isSome
  | [], h, hacc => by
    simp only [List.foldlM_nil, Checked.pure_ok] at h
    exact h ▸ hacc
  | g :: gs, h, hacc => by
    simp only [List.foldlM_cons, Checked.bind_ok] at h
    obtain ⟨acc₁, hg, h⟩ := h
    unfold scanGroup at hg
    simp only [Checked.bind_ok, reference_ok, Checked.pure_ok, Prod.exists] at hg
    obtain ⟨scan, options, hoptions, last, model, -, rfl⟩ := hg
    refine scanGroups_exist h fun g' hg' r hr => ?_
    rcases List.mem_append.1 hg' with hg' | hg'
    · exact hacc g' hg' r hr
    · rw [List.mem_singleton.1 hg'] at hr
      obtain ⟨o, ho, rfl⟩ := List.mem_map.1 hr
      exact scanRoutes_exist hoptions (fun _ ho => by cases ho) o ho

/-- A new pool is a pool and its accounts. -/
theorem createNewPool_moves {user : Actor} {d : PlanRequest} {id : PoolId}
    (h : createNewPool env t db user d = .ok (id, db')) : Moves env req tx db db' := by
  unfold createNewPool at h
  simp only [Checked.bind_ok, need_ok, constraint_ok, reference_ok, Checked.pure_ok, exists_const,
    Table.insert?_eq_some, Prod.mk.injEq, Prod.exists] at h
  obtain ⟨-, -, hkeys, scan, groups, hgroups, -, books, hbooks, -, _, ⟨hid, rfl⟩, -, rfl⟩ := h
  have hgroupKeys : groups.map (·.key) = d.groups.map (·.key) := by
    simpa using scanGroups_keys hgroups
  unfold openPoolAccounts Ledger.openFresh at hbooks
  simp only [Checked.bind_ok, constraint_ok, Checked.pure_ok, exists_const] at hbooks
  obtain ⟨_, ⟨hw, rfl⟩, _, ⟨hr, rfl⟩, hb, rfl⟩ := hbooks
  refine .single (.poolCreated hid (by rw [hgroupKeys]; exact hkeys) rfl ⟨hw, ?_, ?_⟩ ⟨rfl, rfl⟩
    (scanGroups_exist hgroups fun _ hg => by cases hg))
  · exact accounts_none_of_openAccount hr
  · exact accounts_none_of_openAccount (accounts_none_of_openAccount hb)

/-- A plan that was sent before changes nothing; a new one creates its pool. -/
theorem createPool_moves {user : Actor} {d : PlanRequest} {id : PoolId}
    (h : createPool env t db user d = .ok (id, db')) : Moves env req tx db db' := by
  unfold createPool at h
  simp only [Checked.bind_ok, parse_ok, exists_const] at h
  obtain ⟨-, h⟩ := h
  split at h
  · simp only [Checked.bind_ok, need_ok, Checked.pure_ok, exists_const, Prod.mk.injEq] at h
    exact h.2.2 ▸ .refl db
  · exact createNewPool_moves h

/-- A managed pool is one change of its row. -/
theorem managePool_moves {user : Actor} {id : PoolId} {d : ManageRequest}
    (hreq : req.samples = true) (h : managePool env t db user id d = .ok db') :
    Moves env req tx db db' := by
  unfold managePool at h
  simp only [Checked.bind_ok, needRow_ok, need_ok, Checked.pure_ok, exists_const] at h
  obtain ⟨p, hp, -, -, rfl⟩ := h
  exact .single (.poolsUpdated (.set Pool.Same.refl hp ⟨rfl, rfl, rfl, rfl⟩) hreq
    (.set Pool.Updates.refl hp ⟨rfl⟩))

/-- A reconciled pool is one change of its row. -/
theorem reconcilePool_moves {id : PoolId} (hreq : req.samples = true)
    (h : reconcilePool t db id = .ok db') : Moves env req tx db db' := by
  unfold reconcilePool at h
  simp only [Checked.bind_ok, needRow_ok, Checked.pure_ok] at h
  obtain ⟨p, hp, rfl⟩ := h
  exact .single (.poolsUpdated (.set Pool.Same.refl hp ⟨rfl, rfl, rfl, rfl⟩) hreq
    (.set Pool.Updates.refl hp ⟨rfl⟩))

/-- A funding posts its journal and records its row. -/
theorem fundPool_moves {user : Actor} {pool : PoolId} {d : FundRequest} {id : Nat}
    (h : fundPool env t db user pool d = .ok (id, db')) : Moves env req tx db db' := by
  unfold fundPool at h
  simp only [Checked.bind_ok, parse_ok, exists_const] at h
  obtain ⟨-, h⟩ := h
  split at h
  · simp only [Checked.bind_ok, need_ok, Checked.pure_ok, exists_const, Prod.mk.injEq] at h
    exact h.2.2 ▸ .refl db
  unfold fundNew at h
  simp only [Checked.bind_ok, needRow_ok, need_ok, constraint_ok, reference_ok, Checked.pure_ok,
    exists_const, Table.insert?_eq_some, Prod.mk.injEq, Prod.exists] at h
  obtain ⟨p, hp, -, -, j, db₁, hpost, -, _, ⟨hid, rfl⟩, -, rfl⟩ := h
  obtain ⟨books, hb, rfl⟩ := Db.post_ok hpost
  have hfresh : db.fundings.find? (t.uuid 0) = none := hid
  exact .single (.funded (f := { poolId := pool, userId := user.id, .. }) hfresh (by simp [hp]) hb)

/-! ### Windows of pools -/

/-- **How a window is funded**: from the working funds, without an incident; or from the reserve, for
an essential window that the working funds do not pay and the reserve pays whole, with one incident
that records its pool, group, route and budget. -/
structure CoopWindow.Funded (w : CoopWindow) (db : Db) (route : RouteId) (budget : Int)
    (incidents : Table Nat Incident) : Prop where
  working : w.source = .working → w.incidentId = none ∧ incidents = db.incidents
  reserve : w.source = .reserve → w.kind = .essential ∧
    db.books.balance (.coopWorking w.poolId) < budget ∧
    budget ≤ db.books.balance (.coopReserve w.poolId) ∧
    ∃ j i, ∃ hj : db.incidents.find? j = none, w.incidentId = some j ∧
      incidents = db.incidents.insert j i hj ∧
      i.poolId = w.poolId ∧ i.groupKey = w.groupKey ∧ i.routeId = route ∧ i.budget = budget

/-- **The incident of a window** is recorded when its funds are those of the reserve, which working
funds do not pay, and nothing else changes. -/
theorem reserveIncident_ok {id : PoolId} {p : Pool} {s : Snapshot} {g : CoopGroup} {r : CoopRoute}
    {d : WindowRequest} {incident : Option Nat}
    (h : reserveIncident t db id p s g r d = .ok (incident, db')) :
    ∃ incidents, db' = { db with incidents } ∧
      (d.source = .working → incident = none ∧ incidents = db.incidents) ∧
      (d.source = .reserve → s.working < g.cost ∧ g.cost ≤ s.reserve ∧
        ∃ j i, ∃ hj : db.incidents.find? j = none, incident = some j ∧
          incidents = db.incidents.insert j i hj ∧
          i.poolId = id ∧ i.groupKey = g.key ∧ i.routeId = r.routeId ∧ i.budget = g.cost) := by
  unfold reserveIncident at h
  split at h
  · rename_i hsource
    simp only [Checked.bind_ok, need_ok, reference_ok, Checked.pure_ok, exists_const,
      Table.insert?_eq_some, Prod.mk.injEq] at h
    obtain ⟨hworking, hreserve, _, ⟨hj, rfl⟩, rfl, rfl⟩ := h
    refine ⟨_, rfl, fun hw => ?_, fun _ => ⟨hworking, hreserve, _, _, hj, rfl, rfl, rfl, rfl, rfl,
      rfl⟩⟩
    rw [hsource] at hw
    cases hw
  · rename_i hsource
    simp only [Checked.pure_ok, Prod.mk.injEq] at h
    obtain ⟨rfl, rfl⟩ := h
    exact ⟨db.incidents, rfl, fun _ => ⟨rfl, rfl⟩, fun hr => absurd hr hsource⟩

/-- What the insertion of a window writes. -/
theorem insertWindow_ok {lease : LeaseId} {w : CoopWindow} (h : insertWindow db lease w = .ok db') :
    ∃ hid : db.windows.find? lease = none,
      db' = { db with windows := db.windows.insert lease w hid } := by
  unfold insertWindow at h
  simp only [Checked.bind_ok, constraint_ok, reference_ok, Checked.pure_ok, exists_const,
    Table.insert?_eq_some] at h
  obtain ⟨-, -, -, _, ⟨hid, rfl⟩, rfl⟩ := h
  exact ⟨hid, rfl⟩

/-- **A new window of a pool**: what its offer has checked, and what it writes.

**Proof sketch.** The checks of the source are read off in its order: the group, the liquidity of an
expansion, the incident of a reserve window, the offer of the route and the row of the window. The
incident is recorded before the offer and not read by it. A window out of the reserve is essential,
as an expansion asks for the working fund. -/
theorem offerNewWindow_ok {pool : PoolId} {p : Pool} {d : WindowRequest} {o : WindowOptions}
    {id : LeaseId} (hp : db.pools.find? pool = some p)
    (hnone : db.routeLeases.rows.find? (fun l =>
      l.2.sponsorId = p.creatorId ∧ l.2.idempotencyKey = d.idempotencyKey) = none)
    (h : offerNewWindow env t db pool p d o = .ok (id, db')) :
    ∃ rd route terms books incidents w c, ∃ hnew : RouteOffered env (t.call 1) db rd route terms books,
      ∃ hid : db.windows.find? terms.leaseId = none,
        terms.leaseId = id ∧ WindowMatches db terms w p c ∧ w.poolId = pool ∧ w.kind = o.kind ∧
        (rd.idempotencyKey = d.idempotencyKey ∧ c.requestSha256 = env.digest (d.toJs pool o)) ∧
        (o.kind = .expansion → w.source = .working ∧
          (cooperativeSnapshot (t.call 0) db pool p).floor + terms.budget ≤
            (cooperativeSnapshot (t.call 0) db pool p).working ∧
          (cooperativeSnapshot (t.call 0) db pool p).reserveTarget ≤
            (cooperativeSnapshot (t.call 0) db pool p).reserve) ∧
        w.Funded db terms.routeId terms.budget incidents ∧
        db' = { db with
          books, incidents
          routeLeases := db.routeLeases.insert terms.leaseId
            (newRouteLease env (t.call 1) db.xid rd terms) hnew.id
          windows := db.windows.insert terms.leaseId w hid } := by
  unfold offerNewWindow at h
  simp only [Checked.bind_ok, needRow_ok, need_ok, Checked.pure_ok, exists_const, Prod.mk.injEq,
    Prod.exists] at h
  obtain ⟨-, g, hg, -, hsingle, r, -, hliquid, incident, db₁, hincident, lease, db₂, hoffer, db₃,
    hwindow, rfl, rfl⟩ := h
  obtain ⟨incidents, rfl, hfromWorking, hfromReserve⟩ := reserveIncident_ok hincident
  unfold offerRouteTransaction at hoffer
  simp only [Checked.bind_ok, need_ok, exists_const] at hoffer
  obtain ⟨-, hoffer⟩ := hoffer
  split at hoffer
  · rename_i hsome
    rw [hnone] at hsome
    cases hsome
  obtain ⟨route, terms, books, hnew, rfl, hroute, hsponsor, hrate, hduration, hcontext, rfl⟩ :=
    offerNewRoute_ok hoffer
  obtain ⟨hid, rfl⟩ := insertWindow_ok hwindow
  have hgmem : g ∈ p.groups := by
    have := List.mem_of_find?_eq_some hg
    exact (List.perm_insertionSort _ _).mem_iff.1 this
  have hgkey : g.key = d.groupKey := by simpa using List.find?_some hg
  have hcost : terms.budget = g.cost := by
    rw [hnew.budget, hrate, hduration]
    rfl
  -- the incident is not read by the offer
  have hnew' : RouteOffered env (t.call 1) db _ route terms books :=
    ⟨hnew.id, hnew.found, hnew.ready, hnew.contracts, hnew.duration, hnew.rate, hnew.budget,
      hnew.sha, hnew.members, hnew.check, hnew.escrow, hnew.booked⟩
  have hfresh : db.windows.find? terms.leaseId = none := hid
  refine ⟨_, route, terms, books, incidents, _, _, hnew', hfresh, rfl,
    ⟨hp, hsponsor, hcontext, rfl, rfl, rfl, rfl, rfl, ⟨g, hgmem, rfl, hrate, hduration⟩, hsingle⟩,
    rfl, rfl, ⟨rfl, rfl⟩, fun hkind => ?_, ⟨hfromWorking, fun hsource => ?_⟩, rfl⟩
  · obtain ⟨hsource, hfloor, hreserve, -⟩ := hliquid hkind
    rw [hcost]
    exact ⟨hsource, hfloor, hreserve⟩
  · obtain ⟨hworking, hreserve, hrecorded⟩ := hfromReserve hsource
    have hessential : o.kind = .essential := by
      cases hkind : o.kind with
      | essential => rfl
      | expansion =>
        have hworkingSource := (hliquid hkind).1
        rw [hworkingSource] at hsource
        cases hsource
    rw [hcost, hroute]
    exact ⟨hessential, hworking, hreserve, hrecorded⟩

/-- An offer of a window is a replay, or the offer of a new window of its pool. -/
theorem offerWindowTransaction_cases {user : Actor} {pool : PoolId} {d : WindowRequest}
    {o : WindowOptions} {id : LeaseId}
    (h : offerWindowTransaction env t db user pool d o = .ok (id, db')) :
    db' = db ∨ ∃ p, db.pools.find? pool = some p ∧
      db.routeLeases.rows.find? (fun l =>
        l.2.sponsorId = p.creatorId ∧ l.2.idempotencyKey = d.idempotencyKey) = none ∧
      offerNewWindow env t db pool p d o = .ok (id, db') := by
  unfold offerWindowTransaction at h
  simp only [Checked.bind_ok, needRow_ok, need_ok, exists_const] at h
  obtain ⟨p, hp, -, h⟩ := h
  split at h
  · simp only [Checked.bind_ok, need_ok, Checked.pure_ok, exists_const, Prod.mk.injEq] at h
    exact .inl h.2.2.symm
  · rename_i hnone
    exact .inr ⟨p, hp, hnone, h⟩

/-- A window of a pool is its offer, its journal and its link to the pool. -/
theorem offerWindowTransaction_moves {user : Actor} {pool : PoolId} {d : WindowRequest}
    {o : WindowOptions} {id : LeaseId}
    (hreq : o.kind = .expansion → ∃ a, req = .background (.attempt a))
    (hopens : req.opensWindows = true)
    (h : offerWindowTransaction env t db user pool d o = .ok (id, db')) :
    Moves env req tx db db' := by
  rcases offerWindowTransaction_cases h with rfl | ⟨p, hp, hnone, h⟩
  · exact .refl _
  · obtain ⟨rd, route, terms, books, incidents, w, c, hnew, hid, -, hmatch, -, hkind, -, -, -, rfl⟩ :=
      offerNewWindow_ok hp hnone h
    exact .single (.windowOffered hnew hmatch hid (fun hw => hreq (hkind ▸ hw)) hopens)

/-! ### Refunds and declarations -/

/-- **What a refund that succeeds did**: nothing, when the consumption had been given back; else it
booked its entries and recorded itself. -/
theorem refundConsumption_ok {user : Actor} {id : SessionId} {reason : String}
    (h : refundConsumption env t db user id reason = .ok db') :
    user.role = .admin ∧ ∃ session s, db.sessions.find? id = some session ∧
      db.settlements.find? id = some s ∧
      ((db.refunds.find? id ≠ none ∧ db' = db) ∨
        ∃ (hid : db.refunds.find? id = none) (r : CoopRefund) (books : Books),
          Booked env db.xid db.books (.coopRefund id) (refundEntries session.userId s) books ∧
          db' = { db with
            books
            refunds := db.refunds.insert id r hid
            sessions := db.sessions.set id { session with billingState := .refunded } }) := by
  unfold refundConsumption at h
  simp only [Checked.bind_ok, needRow_ok, need_ok, exists_const] at h
  obtain ⟨hadmin, session, hsession, s, hs, h⟩ := h
  refine ⟨hadmin, session, s, hsession, hs, ?_⟩
  split at h
  · rename_i old hold
    simp only [Checked.pure_ok] at h
    exact .inl ⟨by rw [hold]; exact Option.some_ne_none _, h.symm⟩
  simp only [Checked.bind_ok, needRow_ok, constraint_ok, reference_ok, Checked.pure_ok,
    exists_const, Table.insert?_eq_some, Prod.exists] at h
  obtain ⟨_, -, j, db₁, hpost, -, _, ⟨hid, rfl⟩, rfl⟩ := h
  obtain ⟨books, hb, rfl⟩ := Db.post_ok hpost
  exact .inr ⟨hid, _, books, hb, rfl⟩

/-- A consumption's refund posts the whole charge back once. -/
theorem refundConsumption_moves {user : Actor} {id : SessionId} {reason : String}
    (h : refundConsumption env t db user id reason = .ok db') : Moves env req tx db db' := by
  obtain ⟨-, session, s, hsession, hs, ⟨-, rfl⟩ | ⟨hid, r, books, hb, rfl⟩⟩ :=
    refundConsumption_ok h
  · exact .refl _
  · exact .single (.consumptionRefunded hsession hs hid hb)

/-- Parties and affiliations are declared or revoked, and no operating support. -/
theorem economy_moves {parties : Table PartyId Party}
    {affiliations : Table AffiliationId Affiliation} (hreq : req.classifies = true)
    (hone : db.affiliations.Grows Affiliation.Revokes (fun id a => a.OnlyOne id affiliations)
      affiliations) (hdated : AffiliationsDated tx db.affiliations affiliations)
    (hparties : db.parties.Extends Eq parties)
    (hrows : db.affiliations.Extends Affiliation.Revokes affiliations) :
    Moves env req tx db { db with parties, affiliations } :=
  .single (.economy (.refl OperatingSupport.Same.refl db.supports) hone (.inr ⟨hreq, hdated⟩)
    ⟨hparties, hrows, .refl OperatingSupport.Revokes.refl db.supports⟩)

/-- Operating supports are declared or revoked, and nothing else. -/
theorem supports_moves {supports : Table SupportId OperatingSupport}
    (h : db.supports.Grows OperatingSupport.Same
      (fun _ s => s.termsSha256 = env.digest s.terms.toJs) supports)
    (hrows : db.supports.Extends OperatingSupport.Revokes supports) :
    Moves env req tx db { db with supports } :=
  .single (.economy h (.refl Affiliation.Revokes.refl db.affiliations) (.inl rfl)
    ⟨.refl (fun _ => rfl) db.parties, .refl Affiliation.Revokes.refl db.affiliations, hrows⟩)

/-- A declared party is one new row. -/
theorem declareParty_moves {user : Actor} {d : PartyRequest} {id : PartyId}
    (hreq : req.classifies = true) (h : declareParty env tx db user d = .ok (id, db')) :
    Moves env req tx db db' := by
  unfold declareParty Actor.economicAdmin at h
  simp only [Checked.bind_ok, need_ok, exists_const] at h
  obtain ⟨-, h⟩ := h
  split at h
  · simp only [Checked.bind_ok, need_ok, Checked.pure_ok, exists_const, Prod.mk.injEq] at h
    exact h.2.2 ▸ .refl db
  · simp only [Checked.bind_ok, reference_ok, Checked.pure_ok, Prod.mk.injEq,
      Table.insert?_eq_some] at h
    obtain ⟨_, ⟨hid, rfl⟩, -, rfl⟩ := h
    exact economy_moves hreq (.refl Affiliation.Revokes.refl db.affiliations)
      (.refl (fun _ => .inl rfl) db.affiliations) (.insert (fun _ => rfl) hid)
      (.refl Affiliation.Revokes.refl db.affiliations)

/-- An affiliation is one new row, where the user's expired ones are revoked. -/
theorem affiliate_moves {user : Actor} {d : AffiliationRequest} {id : AffiliationId}
    (hreq : req.classifies = true) (h : affiliate env tx db user d = .ok (id, db')) :
    Moves env req tx db db' := by
  unfold affiliate Actor.economicAdmin at h
  simp only [Checked.bind_ok, need_ok, exists_const] at h
  obtain ⟨-, h⟩ := h
  split at h
  · simp only [Checked.bind_ok, need_ok, Checked.pure_ok, exists_const, Prod.mk.injEq] at h
    exact h.2.2 ▸ .refl db
  unfold affiliateNew at h
  simp only [Checked.bind_ok, need_ok, constraint_ok, reference_ok, Checked.pure_ok,
    exists_const, Table.insert?_eq_some, Prod.mk.injEq] at h
  obtain ⟨-, -, hrevoked, -, -, -, _, ⟨hid, rfl⟩, -, rfl⟩ := h
  -- what the expiry of an old affiliation writes
  let expire : Affiliation → Affiliation := fun a =>
    if a.userId = d.userId ∧ a.revokedAt = none ∧ a.expiresAt ≤ tx.now then
      { a with revokedAt := some (tx.wall 0) }
    else a
  have hdates : ∀ a : Affiliation, expire a = a ∨
      a.revokedAt = none ∧ ∃ k, expire a = { a with revokedAt := some (tx.wall k) } := by
    intro a
    by_cases hexpired : a.userId = d.userId ∧ a.revokedAt = none ∧ a.expiresAt ≤ tx.now
    · exact .inr ⟨hexpired.2.1, 0, if_pos hexpired⟩
    · exact .inl (if_neg hexpired)
  have hrevokes : ∀ a : Affiliation, a.Revokes (expire a) := by
    intro a
    rcases hdates a with hsame | ⟨-, k, hexpired⟩
    · rw [hsame]
      exact .refl a
    · rw [hexpired]
      exact ⟨rfl, fun h => by cases h⟩
  have hold : ∀ id a, db.affiliations.find? id = some a →
      (db.affiliations.mapRows fun _ a => expire a).find? id = some (expire a) := by
    intro id a ha
    rw [Table.find?_mapRows, ha]
    rfl
  refine economy_moves hreq ⟨fun id a ha => ?_, fun id a ha hnew => ?_⟩
    ⟨fun id a ha => ?_, fun id a ha hnew => ?_⟩ (.refl (fun _ => rfl) db.parties)
    (.insert_after (.mapRows fun _ a _ => hrevokes a) hid)
  · exact ⟨expire a, Table.find?_insert_of_some (hold id a ha), hrevokes a⟩
  · rcases Table.find?_insert_cases ha with ⟨rfl, rfl⟩ | ⟨-, hold⟩
    · intro id' a' ha' huser hcurrent
      rcases Table.find?_insert_cases ha' with ⟨rfl, -⟩ | ⟨-, hold⟩
      · rfl
      · exact absurd hcurrent (hrevoked (id', a') (Table.find?_eq_some.1 hold) huser)
    · rw [Table.find?_mapRows, hnew] at hold
      cases hold
  · exact ⟨expire a, Table.find?_insert_of_some (hold id a ha), hdates a⟩
  · rcases Table.find?_insert_cases ha with ⟨rfl, rfl⟩ | ⟨-, hold⟩
    · exact ⟨1, rfl⟩
    · rw [Table.find?_mapRows, hnew] at hold
      cases hold

/-- A revoked affiliation is one change of its row. -/
theorem revokeAffiliation_moves {user : Actor} {id : AffiliationId}
    (hreq : req.classifies = true) (h : revokeAffiliation tx db user id = .ok db') :
    Moves env req tx db db' := by
  unfold revokeAffiliation Actor.economicAdmin at h
  simp only [Checked.bind_ok, need_ok, needRow_ok, exists_const] at h
  obtain ⟨-, row, hrow, h⟩ := h
  split at h <;> simp only [Checked.pure_ok] at h <;> subst h
  · exact .refl db
  · rename_i hcurrent
    have hnone : row.revokedAt = none := by simpa using hcurrent
    have hrevokes : row.Revokes { row with revokedAt := some (tx.wall 0) } :=
      ⟨rfl, fun h => by cases h⟩
    exact economy_moves hreq (.set Affiliation.Revokes.refl hrow hrevokes)
      (.set (fun _ => .inl rfl) hrow (.inr ⟨hnone, 0, rfl⟩)) (.refl (fun _ => rfl) db.parties)
      (.set Affiliation.Revokes.refl hrow hrevokes)

/-- A declared support is one new row. -/
theorem declareSupport_moves {user : Actor} {pool : PoolId} {d : SupportRequest} {id : SupportId}
    (h : declareSupport env t db user pool d = .ok (id, db')) : Moves env req tx db db' := by
  unfold declareSupport Actor.economicAdmin at h
  simp only [Checked.bind_ok, need_ok, needRow_ok, exists_const] at h
  obtain ⟨-, p, -, h⟩ := h
  split at h
  · simp only [Checked.bind_ok, need_ok, Checked.pure_ok, exists_const, Prod.mk.injEq] at h
    exact h.2.2 ▸ .refl db
  · unfold declareNewSupport at h
    simp only [Checked.bind_ok, need_ok, constraint_ok, reference_ok, Checked.pure_ok,
      exists_const, Table.insert?_eq_some, Prod.mk.injEq] at h
    obtain ⟨-, _, -, -, -, _, ⟨hid, rfl⟩, -, rfl⟩ := h
    exact supports_moves (.insert OperatingSupport.Same.refl hid rfl)
      (.insert OperatingSupport.Revokes.refl hid)

/-- A revoked support is one change of its row. -/
theorem revokeSupport_moves {user : Actor} {id : SupportId}
    (h : revokeSupport t db user id = .ok db') : Moves env req tx db db' := by
  unfold revokeSupport Actor.economicAdmin at h
  simp only [Checked.bind_ok, need_ok, needRow_ok, exists_const] at h
  obtain ⟨-, row, hrow, h⟩ := h
  split at h <;> simp only [Checked.pure_ok] at h <;> subst h
  · exact .refl db
  · exact supports_moves (.set OperatingSupport.Same.refl hrow ⟨rfl, rfl⟩)
      (.set OperatingSupport.Revokes.refl hrow ⟨rfl⟩)

end NetworkAi
