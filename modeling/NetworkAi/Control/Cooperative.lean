import NetworkAi.Control.RouteAvailability

set_option relaxedAutoImplicit false
set_option autoImplicit false

/-!
# Cooperative funding pools

The operations of `cooperative.ts` with the triggers of `007_cooperative_funds.sql` and
`009_demand_backed_expansion.sql` on the rows they insert: plans and their snapshot, committed
funding, readiness windows paid by a pool, the recycling of consumption back into the pool, and
the refund of a settled consumption.

## Main definitions

* `NetworkAi.recycle` — the waterfall that splits a charge over floor, reserve, working and burn.
* `NetworkAi.cooperativeSnapshot` — balances, targets and state of a pool.
* `NetworkAi.createPool`, `NetworkAi.fundPool`, `NetworkAi.managePool`,
  `NetworkAi.offerWindow`, `NetworkAi.reconcilePool`, `NetworkAi.refundConsumption`.
* `NetworkAi.recycleSettlement`, `NetworkAi.cooperativeEligible` — what sessions use.

## Implementation notes

`extract(epoch FROM now())*1000` keeps the fraction of a millisecond, so an instant in
milliseconds is compared with `now()` in microseconds.
-/

namespace NetworkAi

open Relational

/-! ### The waterfall -/

/-- `gap`: what a balance lacks to a target. -/
def gap (target balance : Int) : Int := if balance < target then target - balance else 0

/-- The parts of a recycled amount. -/
structure Recycled where
  floor : Int
  reserve : Int
  working : Int
  burned : Int
  deriving DecidableEq, Repr

/-- `recycle`: a charge `q` fills the working floor first, then the reserve, then the working
target, and the rest is burned. -/
def recycle (q w r f wt rt : Int) : Recycled :=
  let floor := min q (gap f w)
  let reserve := min (q - floor) (gap rt r)
  let working := min (q - floor - reserve) (gap wt (w + floor))
  { floor, reserve, working, burned := q - floor - reserve - working }

/-! ### The snapshot of a pool -/

/-- The windows of a pool with their leases. -/
def poolWindows (db : Db) (pool : PoolId) : List (LeaseId × CoopWindow × RouteLease) :=
  db.windows.rows.filterMap fun w =>
    if w.2.poolId = pool then (db.routeLeases.find? w.1).map fun l => (w.1, w.2, l) else none

/-- A route of a group is ready. -/
def groupReady (tx : Tx) (db : Db) (g : CoopGroup) : Bool :=
  g.routes.any fun r => db.registry.routeReady tx.now r.routeId

/-- What the open essential windows of a group still hold. -/
def essentialHeld (tx : Tx) (db : Db) (pool : PoolId) (g : CoopGroup) : Int :=
  ((poolWindows db pool).map fun w =>
    if w.2.1.groupKey = g.key ∧ w.2.1.kind = .essential ∧ w.2.2.state.funded ∧
        ((∃ ends ∈ w.2.2.endsMs, tx.now < ofMs ends) ∨
          (w.2.2.state = .offered ∧ tx.now < w.2.2.offerExpiresAt)) then
      w.2.2.budget - w.2.2.paid
    else 0).sum

/-- What the open expansion windows of a group still hold. -/
def expansionHeld (db : Db) (pool : PoolId) (g : CoopGroup) : Int :=
  ((poolWindows db pool).map fun w =>
    if w.2.1.groupKey = g.key ∧ w.2.1.kind = .expansion ∧ w.2.2.state.funded then
      w.2.2.budget - w.2.2.paid
    else 0).sum

/-- `cooperativeSnapshot`. -/
structure Snapshot where
  groups : List CoopGroup
  working : Int
  reserve : Int
  burned : Int
  floor : Int
  workingTarget : Int
  reserveTarget : Int
  held : Int
  essentialHeld : Int
  expansionHeld : Int
  minimum : Int
  state : PoolState
  healthySince : Option Micros
  deriving DecidableEq, Repr

/-- The state of a pool from its figures. -/
def poolState (supported allReady anyAffordable : Bool) (working minimum : Int)
    (healthySince : Option Micros) (now : Int) : PoolState :=
  if supported ∧ anyAffordable then
    if ¬ allReady ∨ working < minimum then .defense
    else if ∃ since ∈ healthySince, 86400000 ≤ now - toMs since then .normal
    else .recovery
  else .hibernating

/-- `cooperativeSnapshot`. -/
def cooperativeSnapshot (tx : Tx) (db : Db) (id : PoolId) (p : Pool) : Snapshot :=
  let groups := p.groups.insertionSort fun a b => keyLe a.key b.key
  let rate := (groups.map (·.rate)).sum
  let held := (groups.map (essentialHeld tx db id)).sum
  let expansion := (groups.map (expansionHeld db id)).sum
  let floor := gap (rate * 21600) held
  let workingTarget := gap (rate * 86400) held
  let reserveTarget := rate * 259200
  let working := db.books.balance (.coopWorking id)
  let reserve := db.books.balance (.coopReserve id)
  let minimum := (groups.map fun g => if 0 < essentialHeld tx db id g then 0 else g.cost).sum
  let supported : Bool := p.paused = false ∧ tx.date 0 < toMs p.supportUntil
  let allReady : Bool := ∀ g ∈ groups, groupReady tx db g
  let continuous : Bool := supported ∧ allReady ∧ floor ≤ working ∧ reserveTarget ≤ reserve
  let oldSample := (p.sampleAt.map toMs).getD 0
  let healthySince : Option Micros :=
    if continuous then
      if p.healthySince.isSome ∧ tx.date 1 - oldSample ≤ 6000 then p.healthySince
      else some (ofMs (tx.date 2))
    else none
  let anyAffordable : Bool := ∃ g ∈ groups, groupReady tx db g ∧
    (0 < essentialHeld tx db id g ∨ g.cost ≤ working ∨ g.cost ≤ reserve)
  { groups, working, reserve, burned := db.books.balance (.coopBurn id), floor, workingTarget
    reserveTarget, held := held + expansion, essentialHeld := held, expansionHeld := expansion
    minimum
    state := poolState supported allReady anyAffordable working minimum healthySince (tx.date 3)
    healthySince }

/-! ### Plans -/

/-- A group of a proposed plan. -/
structure PlanGroup where
  key : String
  routeIds : List RouteId
  rate : Int
  durationSeconds : Nat
  deriving DecidableEq, Repr

/-- The request of `Cooperative.create`. -/
structure PlanRequest where
  name : String
  supportUntil : String
  idempotencyKey : Nat
  groups : List PlanGroup
  deriving DecidableEq, Repr

/-- The bounds of the request's schema. -/
def PlanRequest.Valid (d : PlanRequest) : Prop :=
  (1 ≤ d.groups.length ∧ d.groups.length ≤ 4) ∧
    ∀ g ∈ d.groups, (1 ≤ g.routeIds.length ∧ g.routeIds.length ≤ 8) ∧
      (isAmount g.rate ∧ 0 < g.rate) ∧ (30 ≤ g.durationSeconds ∧ g.durationSeconds ≤ 3600)

instance PlanRequest.decidableValid (d : PlanRequest) : Decidable d.Valid :=
  inferInstanceAs (Decidable (_ ∧ _))

/-- The request as a value. -/
def PlanRequest.toJs (d : PlanRequest) : Js :=
  .obj [("name", .str d.name), ("support_until", .str d.supportUntil),
    ("idempotency_key", .uuid d.idempotencyKey),
    ("groups", .arr (d.groups.map fun g => .obj [("key", .str g.key),
      ("route_ids", .arr (g.routeIds.map .uuid)), ("rate_microtu_per_second", .amount g.rate),
      ("duration_seconds", .nat g.durationSeconds)]))]

/-- What the loop over a plan's groups remembers: the group that each domain belongs to, and the
routes it has seen. -/
structure PlanScan where
  domainGroup : List (DomainId × String)
  routeIds : List RouteId
  deriving DecidableEq, Repr

/-- One route of a group: it must be new, ready, serve the model of the group, and share no
domain with another group. -/
def scanRoute (tx : Tx) (db : Db) (key : String) (acc : PlanScan × List (CoopRoute × String))
    (id : RouteId) : Except Failure (PlanScan × List (CoopRoute × String)) := do
  let (scan, options) := acc
  need (id ∉ scan.routeIds) 400 "duplicate_route"
    "Uma rota não pode duplicar o orçamento do plano."
  let r ← needRow (db.registry.routes.find? id) 409 "route_not_ready"
    "O plano exige rotas completas, aceitas e qualificadas."
  let offer ← needRow ((db.registry.readyOffers tx.now).find? fun o => o.routeId = some id) 409
    "route_not_ready" "O plano exige rotas completas, aceitas e qualificadas."
  need (∀ o ∈ options.getLast?, o.2 = r.modelId) 400 "group_model"
    "Alternativas do mesmo grupo precisam servir o mesmo modelo."
  need (∀ d ∈ offer.domainIds, ∀ e ∈ scan.domainGroup, e.1 = d → e.2 = key) 409
    "overlapping_coverage" "Grupos simultâneos não podem contar a mesma capacidade física."
  return ({ domainGroup := scan.domainGroup ++ offer.domainIds.map fun d => (d, key)
            routeIds := scan.routeIds ++ [id] },
    options ++ [(⟨id, r.routeSha256⟩, r.modelId)])

/-- One group of a plan, frozen with the hashes of its routes. -/
def scanGroup (tx : Tx) (db : Db) (acc : PlanScan × List CoopGroup) (g : PlanGroup) :
    Except Failure (PlanScan × List CoopGroup) := do
  let (scan, options) ← g.routeIds.foldlM (scanRoute tx db g.key) (acc.1, [])
  let last ← reference options.getLast? "cooperative_groups_model_id"
  return (scan, acc.2 ++ [{ key := g.key, modelId := last.2, rate := g.rate
                            durationSeconds := g.durationSeconds
                            routes := options.map Prod.fst }])

/-- The support window of a plan: from one minute to thirty days. -/
def supportWindow (env : Env) (tx : Tx) (k : Nat) (supportUntil : String) : Prop :=
  tx.date k + 60000 < toMs (env.instant supportUntil) ∧
    toMs (env.instant supportUntil) ≤ tx.date (k + 1) + 30 * 86400000

instance (env : Env) (tx : Tx) (k : Nat) (supportUntil : String) :
    Decidable (supportWindow env tx k supportUntil) := inferInstanceAs (Decidable (_ ∧ _))

/-- Open the three accounts of a pool. -/
def openPoolAccounts (books : Books) (id : PoolId) : Except Failure Books := do
  let books ← books.openFresh (.coopWorking id) .coopWorking
  let books ← books.openFresh (.coopReserve id) .coopCoreReserve
  books.openFresh (.coopBurn id) .coopBurn

/-- The part of `create` past the idempotency check. -/
def createNewPool (env : Env) (tx : Tx) (db : Db) (user : Actor) (d : PlanRequest) :
    Except Failure (PoolId × Db) := do
  need (supportWindow env tx 0 d.supportUntil) 400 "support_window"
    "Confirme apoio operacional entre um minuto e 30 dias."
  need ((db.pools.rows.filter fun p => p.2.creatorId = user.id ∧ p.2.paused = false ∧
      tx.now < p.2.supportUntil).length < 4) 429 "pool_limit"
    "Pause um plano antes de abrir outro."
  need ((d.groups.map (·.key)).Nodup) 400 "duplicate_group"
    "Cada grupo precisa de um nome único."
  let (_, groups) ← d.groups.foldlM (scanGroup tx db) (⟨[], []⟩, [])
  need ((groups.map (·.rate)).sum * 367200 ≤ maxAmount) 400 "amount_overflow"
    "Os horizontes do plano excedem o limite contábil."
  let id := tx.uuid 0
  let policy : CoopPolicy := { poolId := id, groups, expansion := expansionPermission }
  let books ← openPoolAccounts db.books id
  constraint (∀ p ∈ db.pools.rows, p.2.policySha256 ≠ env.digest policy.toJs)
    "cooperative_pools_policy_sha256_key"
  let pools ← reference (db.pools.insert? id
    { creatorId := user.id, name := d.name, policy, policySha256 := env.digest policy.toJs
      idempotencyKey := d.idempotencyKey, requestSha256 := env.digest d.toJs
      supportUntil := env.instant d.supportUntil, paused := false, state := .hibernating
      healthySince := none, sampleAt := none, createdAt := tx.now, groups })
    "cooperative_pools_pkey"
  return (id, { db with books, pools })

/-- `Cooperative.create`, with the identifier of the pool. -/
def createPool (env : Env) (tx : Tx) (db : Db) (user : Actor) (d : PlanRequest) :
    Except Failure (PoolId × Db) := do
  parse d.Valid
  match db.pools.rows.find? fun p =>
      p.2.creatorId = user.id ∧ p.2.idempotencyKey = d.idempotencyKey with
  | some old =>
    need (old.2.requestSha256 = env.digest d.toJs) 409 "idempotency_conflict"
      "Identificador usado com outro plano."
    return (old.1, db)
  | none => createNewPool env tx db user d

/-- The request of `Cooperative.manage`. -/
structure ManageRequest where
  paused : Bool
  supportUntil : Option String
  deriving DecidableEq, Repr

/-- `Cooperative.manage`. -/
def managePool (env : Env) (tx : Tx) (db : Db) (user : Actor) (id : PoolId) (d : ManageRequest) :
    Except Failure Db := do
  let p ← needRow (db.pools.find? id) 404 "pool_missing" "Fundo cooperativo não encontrado."
  need (p.creatorId = user.id ∨ user.role = .admin) 403 "pool_manager"
    "Somente o responsável pode alterar o apoio operacional."
  need (∀ s ∈ d.supportUntil, supportWindow env tx 0 s) 400 "support_window"
    "Apoio operacional limitado a 30 dias."
  return { db with pools := db.pools.set id { p with
    paused := d.paused
    supportUntil := (d.supportUntil.map env.instant).getD p.supportUntil
    healthySince := none } }

/-- One pool of `Cooperative.reconcile`. -/
def reconcilePool (tx : Tx) (db : Db) (id : PoolId) : Except Failure Db := do
  let p ← needRow (db.pools.find? id) 404 "pool_missing" "Fundo cooperativo não encontrado."
  let s := cooperativeSnapshot tx db id p
  return { db with pools := db.pools.set id { p with
    state := s.state, healthySince := s.healthySince, sampleAt := some (tx.wall 0) } }

/-! ### Funding -/

/-- The request of `Cooperative.fund`. -/
structure FundRequest where
  destination : FundSource
  amount : Int
  policySha256 : String
  idempotencyKey : Nat
  deriving DecidableEq, Repr

/-- The request as a value, with the pool it is for. -/
def FundRequest.toJs (d : FundRequest) (pool : PoolId) : Js :=
  .obj [("pool_id", .uuid pool), ("destination", .str d.destination.text),
    ("amount_microtu", .amount d.amount), ("policy_sha256", .str d.policySha256),
    ("consent", .str "COMMITTED_LAB_CREDITS_NO_REDEMPTION"),
    ("idempotency_key", .uuid d.idempotencyKey)]

/-- The part of `fund` past the idempotency check. -/
def fundNew (env : Env) (tx : Tx) (db : Db) (user : Actor) (id : PoolId) (d : FundRequest) :
    Except Failure (Nat × Db) := do
  let p ← needRow (db.pools.find? id) 404 "pool_missing" "Fundo cooperativo não encontrado."
  need (p.policySha256 = d.policySha256) 409 "pool_terms"
    "Confira o hash do plano antes de contribuir."
  need (p.paused = false ∧ tx.date 0 < toMs p.supportUntil) 409 "pool_inactive"
    "O plano está pausado ou sem apoio operacional vigente."
  let funding := tx.uuid 0
  let (journalId, db) ← db.post env (tx.uuid 1) (.coopFunding funding)
    (tx.posting .cooperativeFunding)
    [(.available user.id, -d.amount), (d.destination.account id, d.amount)]
  constraint (∀ f ∈ db.fundings.rows, f.2.journalId ≠ journalId)
    "cooperative_funding_journal_id_key"
  let fundings ← reference (db.fundings.insert? funding
    { poolId := id, userId := user.id, destination := d.destination, amount := d.amount
      policySha256 := p.policySha256, idempotencyKey := d.idempotencyKey
      requestSha256 := env.digest (d.toJs id), journalId }) "cooperative_funding_pkey"
  return (funding, { db with fundings })

/-- `Cooperative.fund`, with the identifier of the funding. -/
def fundPool (env : Env) (tx : Tx) (db : Db) (user : Actor) (id : PoolId) (d : FundRequest) :
    Except Failure (Nat × Db) := do
  parse (isAmount d.amount ∧ 0 < d.amount)
  match db.fundings.rows.find? fun f =>
      f.2.userId = user.id ∧ f.2.idempotencyKey = d.idempotencyKey with
  | some prior =>
    need (prior.2.requestSha256 = env.digest (d.toJs id)) 409 "idempotency_conflict"
      "Identificador usado com outra contribuição."
    return (prior.1, db)
  | none => fundNew env tx db user id d

/-! ### Windows -/

/-- The request of `Cooperative.offer`. -/
structure WindowRequest where
  groupKey : String
  source : FundSource
  reason : String
  idempotencyKey : Nat
  deriving DecidableEq, Repr

/-- The options of `offerTransaction`, which only a renewal gives. -/
structure WindowOptions where
  eligibleRoutes : Option (List RouteId)
  renewal : Option RenewalTerms
  expansion : Option ExpansionEvidence
  deriving DecidableEq, Repr

/-- No options: a window offered by the manager of the pool. -/
def WindowOptions.none : WindowOptions := ⟨Option.none, Option.none, Option.none⟩

/-- The coverage kind of a window. -/
def WindowOptions.kind (o : WindowOptions) : CoverageKind :=
  if o.expansion.isSome then .expansion else .essential

/-- The request as a value, with its pool and options. -/
def WindowRequest.toJs (d : WindowRequest) (pool : PoolId) (o : WindowOptions) : Js :=
  .obj ([("pool_id", .uuid pool), ("group_key", .str d.groupKey), ("source", .str d.source.text),
    ("reason", .str d.reason), ("idempotency_key", .uuid d.idempotencyKey)] ++
    Js.optional "renewal" (o.renewal.map (·.toJs)) ++
    Js.optional "expansion" (o.expansion.map (·.toJs)))

/-- A group has an open window of a kind. -/
def groupCommitted (db : Db) (pool : PoolId) (groupKey : String) (kind : CoverageKind) : Bool :=
  (poolWindows db pool).any fun w =>
    w.2.1.groupKey = groupKey ∧ w.2.1.kind = kind ∧ w.2.2.state.funded

/-- When a pool last opened a window on a route. -/
def lastWindow (db : Db) (pool : PoolId) (route : RouteId) : Option Micros :=
  (poolWindows db pool).foldl (fun latest w =>
    if w.2.2.routeId = route then some (max (latest.getD w.2.2.createdAt) w.2.2.createdAt)
    else latest) none

/-- `ASC NULLS FIRST` on the last windows, then the route's identifier. -/
def routeTurn (db : Db) (pool : PoolId) (a b : CoopRoute) : Bool :=
  match lastWindow db pool a.routeId, lastWindow db pool b.routeId with
  | none, some _ => true
  | some _, none => false
  | none, none => a.routeId ≤ b.routeId
  | some s, some t => s < t ∨ (s = t ∧ a.routeId ≤ b.routeId)

/-- The routes of a group that are ready and free of claims, among the eligible ones. -/
def freeRoutes (tx : Tx) (db : Db) (g : CoopGroup) (eligible : Option (List RouteId)) :
    List CoopRoute :=
  g.routes.filter fun r => (∀ ids ∈ eligible, r.routeId ∈ ids) ∧
    (db.registry.readyOffers tx.now).any fun o => o.routeId = some r.routeId ∧
      ∀ d ∈ o.domainIds, db.claims.find? d = none

/-- The incident of a window records its pool, group, route and budget. -/
def incidentMatches (db : Db) (w : CoopWindow) (l : RouteLease) : Bool :=
  match w.incidentId.bind db.incidents.find? with
  | some i => i.poolId = w.poolId ∧ i.groupKey = w.groupKey ∧ i.routeId = l.routeId ∧
      i.budget = l.budget
  | none => false

/-- The cooperative terms of a lease name the window's pool, policy, group and source. -/
def contextMatches (p : Pool) (w : CoopWindow) (l : RouteLease) : Bool :=
  match l.terms.cooperative with
  | some c => c.poolId = w.poolId ∧ c.policySha256 = p.policySha256 ∧ c.groupKey = w.groupKey ∧
      c.source = w.source
  | none => false

/-- The condition of the trigger `check_cooperative_window`. -/
def checkCooperativeWindow (db : Db) (leaseId : LeaseId) (w : CoopWindow) : Bool :=
  match db.routeLeases.find? leaseId, db.pools.find? w.poolId with
  | some l, some p =>
    (p.groups.any fun g => g.key = w.groupKey ∧ l.rate = g.rate ∧
      l.durationSeconds = g.durationSeconds ∧
      g.routes.any fun cr => cr.routeId = l.routeId ∧ l.routeSha256 = cr.routeSha256) ∧
    l.writerXid = db.xid ∧ l.sponsorId = p.creatorId ∧ contextMatches p w l ∧
      (w.source = .working ∨ incidentMatches db w l)
  | _, _ => false

/-- The condition of the trigger `match_coverage_kind`. -/
def matchCoverageKind (db : Db) (leaseId : LeaseId) (w : CoopWindow) : Bool :=
  match db.routeLeases.find? leaseId with
  | some l => w.kind = (l.terms.cooperative.map (·.kind)).getD .essential ∧
      (w.kind = .expansion →
        w.source = .working ∧ (l.terms.cooperative.bind (·.expansion)).isSome)
  | none => false

/-- Insert a row into `cooperative_windows`, with its checks and triggers. -/
def insertWindow (db : Db) (leaseId : LeaseId) (w : CoopWindow) : Except Failure Db := do
  constraint (w.source = .reserve ↔ w.incidentId.isSome) "cooperative_windows_check"
  constraint (checkCooperativeWindow db leaseId w)
    "cooperative funding does not match accepted plan"
  constraint (matchCoverageKind db leaseId w) "coverage kind must match its immutable window"
  let windows ← reference (db.windows.insert? leaseId w) "cooperative_windows_pkey"
  return { db with windows }

/-- The reserve is drawn only for a window that working capital cannot pay: the incident that
records it. -/
def reserveIncident (tx : Tx) (db : Db) (id : PoolId) (p : Pool) (s : Snapshot) (g : CoopGroup)
    (r : CoopRoute) (d : WindowRequest) : Except Failure (Option Nat × Db) := do
  if d.source = .reserve then
    need (s.working < g.cost) 409 "reserve_protected"
      "Use capital de giro: a reserva só atende uma renovação essencial que ele não consegue financiar."
    need (g.cost ≤ s.reserve) 402 "insufficient_credits"
      "Reserva insuficiente para a rota inteira."
    let incident := tx.uuid 0
    let incidents ← reference (db.incidents.insert? incident
      { poolId := id, groupKey := g.key, routeId := r.routeId, policySha256 := p.policySha256
        budget := g.cost, deadline := p.supportUntil, reason := d.reason })
      "cooperative_incidents_pkey"
    return (some incident, { db with incidents })
  else
    return (none, db)

/-- The part of `offerTransaction` past the idempotency check. -/
def offerNewWindow (env : Env) (tx : Tx) (db : Db) (id : PoolId) (p : Pool) (d : WindowRequest)
    (o : WindowOptions) : Except Failure (LeaseId × Db) := do
  let s := cooperativeSnapshot (tx.call 0) db id p
  need (o.kind = .expansion → p.policy.expansion = expansionPermission) 409 "expansion_policy"
    "A política original deste fundo não permite expansão. Crie um novo plano com os novos termos."
  let g ← needRow (s.groups.find? fun g => g.key = d.groupKey) 404 "group_missing"
    "Grupo não encontrado."
  need (p.paused = false ∧ tx.date 0 + (g.durationSeconds + 10) * 1000 < toMs p.supportUntil) 409
    "support_window" "O apoio operacional não cobre esta janela."
  need (groupCommitted db id g.key o.kind = false) 409 "group_committed"
    "Este grupo já tem uma janela financiada; aguarde o encerramento."
  let r ← needRow (firstBy (routeTurn db id) (freeRoutes tx db g o.eligibleRoutes)) 409
    "route_not_ready" "Nenhuma alternativa completa está pronta e livre de outro contrato."
  need (o.kind = .expansion → d.source = .working ∧ s.floor + g.cost ≤ s.working ∧
      s.reserveTarget ≤ s.reserve ∧ s.state = .normal) 409 "expansion_liquidity"
    "A expansão precisa preservar o piso essencial, a reserva e a recuperação estável."
  let (incidentId, db) ← reserveIncident tx db id p s g r d
  let context : CoopContext :=
    { poolId := id, groupKey := g.key, policySha256 := p.policySha256, source := d.source
      incidentId, requestSha256 := env.digest (d.toJs id o), supportUntil := toMs p.supportUntil
      renewal := o.renewal, expansion := o.expansion }
  let (leaseId, db) ← offerRouteTransaction env (tx.call 1) db p.creatorId
    { routeId := r.routeId, durationSeconds := g.durationSeconds, rate := g.rate
      purpose := .scheduled, reason := d.reason, idempotencyKey := d.idempotencyKey }
    (some context)
  let db ← insertWindow db leaseId
    { poolId := id, groupKey := g.key, source := d.source, incidentId, kind := o.kind }
  return (leaseId, db)

/-- `Cooperative.offerTransaction`, with the identifier of the lease. -/
def offerWindowTransaction (env : Env) (tx : Tx) (db : Db) (user : Actor) (id : PoolId)
    (d : WindowRequest) (o : WindowOptions) : Except Failure (LeaseId × Db) := do
  let p ← needRow (db.pools.find? id) 404 "pool_missing" "Fundo não encontrado."
  need (p.creatorId = user.id ∨ user.role = .admin) 403 "pool_manager"
    "Somente o responsável pode contratar capacidade."
  match db.routeLeases.rows.find? fun l =>
      l.2.sponsorId = p.creatorId ∧ l.2.idempotencyKey = d.idempotencyKey with
  | some prior =>
    need (prior.2.terms.cooperative.map (·.requestSha256) = some (env.digest (d.toJs id o))) 409
      "idempotency_conflict" "Identificador usado com outros termos."
    return (prior.1, db)
  | none => offerNewWindow env tx db id p d o

/-- `Cooperative.offer`. -/
def offerWindow (env : Env) (tx : Tx) (db : Db) (user : Actor) (id : PoolId)
    (d : WindowRequest) : Except Failure (LeaseId × Db) :=
  offerWindowTransaction env tx db user id d .none

/-! ### Recycling and refunds -/

/-- `recycleSettlement`: the settlement of a cooperative session, with the entries that move its
charge to the accounts of the pool. -/
def recycleSettlement (tx : Tx) (db : Db) (sessionId : SessionId) (s : Session) (charge : Int) :
    Except Failure (List (AccountId × Int) × Db) := do
  let id ← needRow s.cooperativePoolId 404 "pool_missing" "Fundo cooperativo não encontrado."
  let p ← needRow (db.pools.find? id) 404 "pool_missing" "Fundo cooperativo não encontrado."
  let lease ← needRow s.coverageLeaseId 500 "cooperative_context"
    "Contexto cooperativo inconsistente."
  need (some p.policySha256 = s.cooperativePolicySha256) 500 "cooperative_context"
    "Contexto cooperativo inconsistente."
  let snap := cooperativeSnapshot (tx.call 0) db id p
  let a := recycle charge snap.working snap.reserve snap.floor snap.workingTarget
    snap.reserveTarget
  constraint (0 < charge ∧ 0 ≤ a.floor + a.working ∧ 0 ≤ a.reserve ∧ 0 ≤ a.burned ∧
    charge = a.floor + a.working + a.reserve + a.burned) "cooperative_settlements_check"
  constraint ((db.windows.find? lease).isSome) "cooperative_settlements_coverage_lease_id_fkey"
  let settlements ← reference (db.settlements.insert? sessionId
    { poolId := id, policySha256 := p.policySha256, coverageLeaseId := lease, charge
      working := a.floor + a.working, reserve := a.reserve, burned := a.burned
      createdAt := tx.now }) "cooperative_settlements_pkey"
  return ([(.coopWorking id, a.floor + a.working), (.coopReserve id, a.reserve),
    (.coopBurn id, a.burned)], { db with settlements })

/-- The posting of a refund: exactly the accounts of the settlement give back its parts. -/
def refundEntries (userId : UserId) (s : Settlement) : List (AccountId × Int) :=
  [(.coopWorking s.poolId, -s.working), (.coopReserve s.poolId, -s.reserve),
    (.coopBurn s.poolId, -s.burned), (.available userId, s.charge)]

/-- `Cooperative.refund`. -/
def refundConsumption (env : Env) (tx : Tx) (db : Db) (user : Actor) (id : SessionId)
    (reason : String) : Except Failure Db := do
  need (user.role = .admin) 403 "admin_required"
    "Somente a administração pode aprovar uma devolução de consumo liquidado."
  let session ← needRow (db.sessions.find? id) 404 "settlement_missing"
    "Consumo cooperativo liquidado não encontrado."
  let s ← needRow (db.settlements.find? id) 404 "settlement_missing"
    "Consumo cooperativo liquidado não encontrado."
  match db.refunds.find? id with
  | some _ => return db
  | none =>
    let _ ← needRow (db.pools.find? s.poolId) 404 "pool_missing"
      "Fundo cooperativo não encontrado."
    let (journalId, db) ← db.post env (tx.uuid 0) (.coopRefund id)
      (tx.posting .cooperativeConsumptionRefund) (refundEntries session.userId s)
    constraint (∀ r ∈ db.refunds.rows, r.2.journalId ≠ journalId)
      "cooperative_refunds_journal_id_key"
    let refunds ← reference (db.refunds.insert? id
      { actorId := user.id, reason, journalId, createdAt := tx.now }) "cooperative_refunds_pkey"
    return { db with
      refunds
      sessions := db.sessions.set id { session with billingState := .refunded } }

/-! ### Eligibility of cooperative sessions -/

/-- `cooperativeEligibility`: the session needs no coverage, or the offer's route has a window of
its pool that is running, undisturbed, and lasts ten more seconds. -/
def cooperativeEligible (tx : Tx) (db : Db) (s : Session) (o : Offer) : Bool :=
  match s.cooperativePoolId with
  | none => true
  | some pool =>
    match db.pools.find? pool with
    | none => false
    | some cp =>
      some cp.policySha256 = s.cooperativePolicySha256 ∧ cp.paused = false ∧
        tx.now < cp.supportUntil ∧ (poolWindows db pool).any fun w =>
          some w.2.2.routeId = o.routeId ∧ w.2.2.state.running ∧
            (∃ ends ∈ w.2.2.endsMs, tx.now + ofMs 10000 < ofMs ends) ∧
            ∀ m ∈ w.2.2.members, m.withdrawnAt = none

/-- The running window of a pool on a route that covers an admission. -/
def coverageOf (tx : Tx) (db : Db) (pool : PoolId) (route : Option RouteId) :
    Option (LeaseId × RouteLease) :=
  ((poolWindows db pool).find? fun w => some w.2.2.routeId = route ∧ w.2.2.state.running ∧
    ∃ ends ∈ w.2.2.endsMs, tx.now + ofMs 10000 < ofMs ends).map fun w => (w.1, w.2.2)

end NetworkAi
