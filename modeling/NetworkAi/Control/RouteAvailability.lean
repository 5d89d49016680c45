import NetworkAi.Control.Database

set_option relaxedAutoImplicit false
set_option autoImplicit false

/-!
# Readiness windows of complete routes

The operations of `route-availability.ts`, with the trigger `maintain_availability_claims` and
the deferred constraint `check_route_availability_terms` of `006_route_availability.sql`: a
sponsor funds an escrow for a route, every provider accepts the same terms, the window then earns
for each member in proportion to the time it was observed ready, and its end returns the rest.

## Main definitions

* `NetworkAi.offerRouteTransaction`, `NetworkAi.acceptRouteTransaction` — the transactions that
  the cooperative modules share.
* `NetworkAi.observeRoute`, `NetworkAi.creditMember`, `NetworkAi.advanceRoute` — one sample.
* `NetworkAi.closeRoute`, `NetworkAi.cancelRoute`, `NetworkAi.reconcileRoute`.

## Implementation notes

A row that a foreign key guarantees is read through `reference`. The quotients of `advance` are
those of nonnegative numbers, where `BigInt` division is the floor. `reconcile` advances each
lease of a batch in a transaction of its own; which leases a batch holds is not modelled, any
lease may be advanced at any time.
-/

namespace NetworkAi

open Relational

/-! ### The claims on physical domains -/

/-- Claim each of a list of domains. -/
def insertClaims (claims : Table DomainId ClaimOwner) (owner : ClaimOwner)
    (domains : List DomainId) : Except Failure (Table DomainId ClaimOwner) :=
  domains.foldlM (fun claims domain =>
    reference (claims.insert? domain owner) "availability_domain_claims_pkey") claims

/-- Delete the claims of a lease. -/
def deleteClaims (claims : Table DomainId ClaimOwner) (owner : ClaimOwner) :
    Table DomainId ClaimOwner :=
  claims.deleteWhere fun _ o => o = owner

/-- The distinct domains of a lease's members. -/
def RouteLease.domains (row : RouteLease) : List DomainId :=
  distinctDomains (row.members.map (·.resourceDomainId))

/-- The checks of `route_availability_leases` and of its members on the columns that change. -/
def RouteLease.Valid (row : RouteLease) : Prop :=
  (0 ≤ row.paid ∧ row.paid ≤ row.budget) ∧
    (0 ≤ row.jointReadyMs ∧ row.jointReadyMs ≤ row.durationSeconds * 1000) ∧
    ∀ m ∈ row.members, (0 ≤ m.paid ∧ m.paid ≤ m.maximum) ∧ 0 ≤ m.credited

instance RouteLease.decidableValid (row : RouteLease) : Decidable row.Valid :=
  inferInstanceAs (Decidable (_ ∧ _))

/-- Update a lease and its members, with the trigger `maintain_availability_claims`. -/
def Db.updateRouteLease (db : Db) (id : LeaseId) (old new : RouteLease) : Except Failure Db := do
  constraint new.Valid "route_availability_leases_check"
  let claims ←
    if new.state.running ∧ ¬ old.state.running then
      insertClaims db.claims (.routeLease id) new.domains
    else if ¬ new.state.running ∧ old.state.running then
      pure (deleteClaims db.claims (.routeLease id))
    else pure db.claims
  return { db with routeLeases := db.routeLeases.set id new, claims }

/-! ### Offers -/

/-- The request of `RouteAvailability.offer`. -/
structure RouteOffer where
  routeId : RouteId
  durationSeconds : Nat
  rate : Int
  purpose : LeasePurpose
  reason : String
  idempotencyKey : Nat
  deriving DecidableEq, Repr

/-- The bounds of the request's schema. -/
def RouteOffer.Valid (d : RouteOffer) : Prop :=
  (30 ≤ d.durationSeconds ∧ d.durationSeconds ≤ 3600) ∧ isAmount d.rate ∧ 0 < d.rate

instance RouteOffer.decidableValid (d : RouteOffer) : Decidable d.Valid :=
  inferInstanceAs (Decidable (_ ∧ _))

/-- The request as a value, with the cooperative terms of a pool's window. -/
def RouteOffer.toJs (env : Env) (d : RouteOffer) (cooperative : Option CoopContext) : Js :=
  .obj ([("route_id", .uuid d.routeId), ("duration_seconds", .nat d.durationSeconds),
    ("rate_microtu_per_second", .amount d.rate), ("purpose", .str d.purpose.text),
    ("reason", .str d.reason), ("idempotency_key", .uuid d.idempotencyKey)] ++
    Js.optional "cooperative" (cooperative.map (·.toJs env)))

/-- The account that a pool's source keeps its funds in. -/
def FundSource.account (pool : PoolId) : FundSource → AccountId
  | .working => .coopWorking pool
  | .reserve => .coopReserve pool

/-- The account that funds a window, which is also where its rest returns to. -/
def fundingAccount (sponsor : UserId) (cooperative : Option CoopContext) : AccountId :=
  match cooperative with
  | some c => c.source.account c.poolId
  | none => .available sponsor

/-- The contracts of a sponsor that are open, over both kinds of lease. -/
def openContracts (db : Db) (sponsor : UserId) : Nat :=
  (db.nodeLeases.rows.filter fun l => l.2.sponsorId = sponsor ∧ l.2.state.isOpen).length +
    (db.routeLeases.rows.filter fun l => l.2.sponsorId = sponsor ∧ l.2.state.funded).length

/-- The condition of the deferred trigger `check_route_availability_terms`. -/
def checkRouteAvailabilityTerms (route : ExecutionRoute) (lease : RouteLease) : Prop :=
  (lease.members.map (·.maximum)).sum = lease.budget ∧
    lease.members.length = route.members.length ∧
    ∀ am ∈ lease.members, ∃ rm ∈ route.members, rm.nodeId = am.nodeId ∧
      rm.providerId = am.providerId ∧ rm.resourceDomainId = am.resourceDomainId ∧
      rm.ordinal = am.ordinal ∧ rm.shareBps = am.shareBps ∧ rm.role = am.role

instance (route : ExecutionRoute) (lease : RouteLease) :
    Decidable (checkRouteAvailabilityTerms route lease) :=
  inferInstanceAs (Decidable (_ ∧ _))

/-- A member of a new lease: the route's member with its maximum. -/
def newLeaseMember (m : RouteMember × Int) : LeaseMember where
  nodeId := m.1.nodeId
  providerId := m.1.providerId
  resourceDomainId := m.1.resourceDomainId
  ordinal := m.1.ordinal
  role := m.1.role
  shareBps := m.1.shareBps
  maximum := m.2
  paid := 0
  credited := 0
  sampleReady := false
  nodeEpoch := none
  withdrawnAt := none

/-- The row of a new lease. -/
def newRouteLease (env : Env) (tx : Tx) (xid : Nat) (d : RouteOffer) (terms : LeaseTerms) :
    RouteLease where
  sponsorId := terms.sponsorId
  routeId := terms.routeId
  routeSha256 := terms.routeSha256
  manifestSha256 := terms.manifestSha256
  termsSha256 := env.digest (terms.toJs env)
  terms := terms
  idempotencyKey := d.idempotencyKey
  requestSha256 := env.digest (d.toJs env terms.cooperative)
  state := .offered
  durationSeconds := terms.durationSeconds
  rate := terms.rate
  budget := terms.budget
  paid := 0
  jointReadyMs := 0
  sampleMs := none
  sampleReady := false
  startedMs := none
  endsMs := none
  offerExpiresAt := tx.now + seconds 300
  createdAt := tx.now
  finishedAt := none
  writerXid := xid
  members := terms.members.map newLeaseMember
  acceptances := []

/-- Fund and insert a new lease: its escrow account, the posting, the row with its members, and
the deferred check of the terms. -/
def insertRouteLease (env : Env) (tx : Tx) (db : Db) (d : RouteOffer) (route : ExecutionRoute)
    (terms : LeaseTerms) : Except Failure Db := do
  let id := terms.leaseId
  let books ← db.books.openFresh (.routeEscrow id) .leaseEscrow
  let (_, db) ← { db with books }.post env (tx.uuid 1) (.routeFund id)
    (tx.posting .routeAvailabilityReserve)
    [(fundingAccount terms.sponsorId terms.cooperative, -terms.budget),
      (.routeEscrow id, terms.budget)]
  let lease := newRouteLease env tx db.xid d terms
  constraint (∀ l ∈ db.routeLeases.rows, l.2.termsSha256 ≠ lease.termsSha256)
    "route_availability_leases_terms_sha256_key"
  constraint ((30 ≤ lease.durationSeconds ∧ lease.durationSeconds ≤ 3600) ∧ 0 < lease.rate ∧
    0 < lease.budget ∧ ∀ m ∈ lease.members, 0 < m.maximum) "route_availability_leases_check"
  constraint (checkRouteAvailabilityTerms route lease) "invalid complete availability terms"
  let routeLeases ← reference (db.routeLeases.insert? id lease) "route_availability_leases_pkey"
  return { db with routeLeases }

/-- The part of `offerTransaction` past the idempotency check. -/
def offerNewRoute (env : Env) (tx : Tx) (db : Db) (sponsor : UserId) (d : RouteOffer)
    (cooperative : Option CoopContext) : Except Failure (LeaseId × Db) := do
  let budget := d.rate * d.durationSeconds
  need (openContracts db sponsor < 4) 429 "lease_limit" "Você já tem quatro contratos abertos."
  let route ← needRow (db.registry.routes.find? d.routeId) 409 "route_not_ready"
    "A oferta precisa de uma rota qualificada, aceita e inteiramente pronta."
  need (db.registry.routeReady tx.now d.routeId) 409 "route_not_ready"
    "A oferta precisa de uma rota qualificada, aceita e inteiramente pronta."
  let maxima ← splitByBps budget (route.members.map (·.shareBps))
  need (∀ n ∈ maxima, 0 < n) 400 "lease_allocation"
    "O orçamento precisa remunerar todas as etapas com pelo menos um microcrédito."
  let id := tx.uuid 0
  let terms : LeaseTerms :=
    { leaseId := id, sponsorId := sponsor, routeId := d.routeId, routeSha256 := route.routeSha256
      manifestSha256 := route.manifestSha256, durationSeconds := d.durationSeconds, rate := d.rate
      budget, purpose := d.purpose, reason := d.reason, cooperative
      members := route.members.zip maxima }
  let db ← insertRouteLease env tx db d route terms
  return (id, db)

/-- `RouteAvailability.offerTransaction`, with the identifier of the lease. -/
def offerRouteTransaction (env : Env) (tx : Tx) (db : Db) (sponsor : UserId) (d : RouteOffer)
    (cooperative : Option CoopContext) : Except Failure (LeaseId × Db) := do
  need (d.rate * d.durationSeconds ≤ maxAmount) 400 "amount_overflow" "Valor fora do limite."
  match db.routeLeases.rows.find? fun l =>
      l.2.sponsorId = sponsor ∧ l.2.idempotencyKey = d.idempotencyKey with
  | some existing =>
    need (existing.2.requestSha256 = env.digest (d.toJs env cooperative)) 409
      "idempotency_conflict" "Identificador usado com outros termos."
    return (existing.1, db)
  | none => offerNewRoute env tx db sponsor d cooperative

/-- `RouteAvailability.offer`. -/
def offerRoute (env : Env) (tx : Tx) (db : Db) (user : Actor) (d : RouteOffer) :
    Except Failure (LeaseId × Db) := do
  parse d.Valid
  offerRouteTransaction env tx db user.id d none

/-! ### Observations -/

/-- What `observe` found for one member: the epoch of its node, and whether it is ready. -/
structure ObservedMember where
  member : LeaseMember
  epoch : Nat
  ready : Bool
  deriving DecidableEq, Repr

/-- The readiness of one member, as `observe` computes it. -/
def observeMember (db : Db) (row : RouteLease) (now : Int) (p : LeaseMember) :
    Except Failure ObservedMember := do
  let n ← reference (db.registry.nodes.find? p.nodeId) "route_availability_members_node_id_fkey"
  let u ← reference (db.registry.users.find? p.providerId)
    "route_availability_members_provider_id_fkey"
  let m ← reference (db.registry.models.find? n.modelId) "nodes_model_id_fkey"
  let acceptance := db.registry.routeAcceptances.find? (row.routeId, p.providerId)
  let ready : Bool := p.withdrawnAt = none ∧ acceptance.bind (·.withdrawnAt) = none ∧
    acceptance.map (·.routeSha256) = some row.routeSha256 ∧ n.state = .ready ∧
    n.desiredState = .ready ∧ u.disabled = false ∧ m.state = .localPreview ∧
    m.manifestSha256 = row.manifestSha256 ∧ n.ownerId = p.providerId ∧
    n.resourceDomainId = p.resourceDomainId ∧
    n.kind = (if p.role = .root then .routeRoot else .rpcStage) ∧
    (∃ seen ∈ n.lastSeen, now - toMs seen ≤ 5000) ∧
    m.manifest.backendModel ∈ n.loadedBackendModels
  return { member := p, epoch := n.epoch, ready }

/-- The route of a lease is still the one it was offered for. -/
def routeUnchanged (db : Db) (row : RouteLease) : Bool :=
  match db.registry.routes.find? row.routeId with
  | some route => route.state = .localPreview ∧ route.routeSha256 = row.routeSha256 ∧
      route.manifestSha256 = row.manifestSha256
  | none => false

/-- What `observe` returns: the members, and whether the whole route is ready. -/
structure Observation where
  members : List ObservedMember
  joint : Bool
  deriving DecidableEq, Repr

/-- `RouteAvailability.observe`. -/
def observeRoute (db : Db) (row : RouteLease) (now : Int) : Except Failure Observation := do
  let members ← row.members.mapM (observeMember db row now)
  return { members
           joint := routeUnchanged db row ∧ 2 ≤ members.length ∧ ∀ p ∈ members, p.ready }

/-! ### Acceptance -/

/-- The pool of a cooperative window still supports the whole window. -/
def supportsWindow (db : Db) (row : RouteLease) (now : Int) : Bool :=
  match row.terms.cooperative with
  | none => true
  | some c =>
    match db.pools.find? c.poolId with
    | some p => p.paused = false ∧
        now + row.durationSeconds * 1000 ≤ min (toMs p.supportUntil) c.supportUntil
    | none => false

/-- The row of a window that starts, with the members as they were observed. -/
def RouteLease.activated (row : RouteLease) (observation : Observation) (now : Int) : RouteLease :=
  { row with
    members := observation.members.map fun o =>
      { o.member with sampleReady := true, nodeEpoch := some o.epoch }
    state := .active
    startedMs := some now
    endsMs := some (now + row.durationSeconds * 1000)
    sampleMs := some now
    sampleReady := true }

/-- The part of `acceptTransaction` that starts the window, once all providers accepted. -/
def activateRoute (tx : Tx) (db : Db) (id : LeaseId) (old row : RouteLease) :
    Except Failure Db := do
  need (∀ d ∈ row.domains, db.claims.find? d = none) 409 "domain_leased"
    "Uma das capacidades físicas já possui contrato ativo."
  let now := tx.clock 1
  need (supportsWindow db row now) 409 "support_window"
    "O apoio operacional não cobre mais a janela completa."
  let observation ← observeRoute db row now
  need (observation.joint = true) 409 "route_not_ready"
    "Todas as etapas precisam estar prontas, com presença recente e os termos originais."
  db.updateRouteLease id old (row.activated observation now)

/-- A provider accepted the terms of a lease. -/
def RouteLease.accepted (row : RouteLease) (provider : UserId) : Bool :=
  row.acceptances.any fun a => a.providerId = provider

/-- `RouteAvailability.acceptTransaction`. -/
def acceptRouteTransaction (tx : Tx) (db : Db) (user : UserId) (id : LeaseId)
    (termsSha256 : String) (mandate : Option MandateId) : Except Failure Db := do
  let row ← needRow (db.routeLeases.find? id) 404 "lease_missing"
    "Contrato não encontrado para este operador."
  need (∃ p ∈ row.members, p.providerId = user) 404 "lease_missing"
    "Contrato não encontrado para este operador."
  need (row.termsSha256 = termsSha256) 409 "lease_terms"
    "Confira e aceite exatamente os termos desta oferta."
  if row.accepted user ∧ row.state ≠ .offered then
    return db
  else
    need (row.state = .offered ∧ tx.clock 0 < toMs row.offerExpiresAt) 409 "offer_expired"
      "A oferta expirou ou foi encerrada."
    let accepting : RouteLease :=
      if row.accepted user then row
      else { row with acceptances := row.acceptances ++ [⟨user, termsSha256, mandate⟩] }
    if ∃ p ∈ accepting.members, accepting.accepted p.providerId = false then
      return { db with routeLeases := db.routeLeases.set id accepting }
    else activateRoute tx db id row accepting

/-- `RouteAvailability.accept`. -/
def acceptRoute (tx : Tx) (db : Db) (user : Actor) (id : LeaseId) (termsSha256 : String) :
    Except Failure Db :=
  acceptRouteTransaction tx db user.id id termsSha256 none

/-! ### Closing -/

/-- The row of a window that has ended. -/
def RouteLease.closed (row : RouteLease) (tx : Tx) (state : RouteLeaseState) : RouteLease :=
  { row with state, finishedAt := some tx.now, sampleReady := false }

/-- `RouteAvailability.close`: the rest of the budget returns to the account that funded it. -/
def closeRoute (env : Env) (tx : Tx) (db : Db) (id : LeaseId) (row : RouteLease)
    (state : RouteLeaseState) (paid : Int) : Except Failure Db := do
  let remaining := row.budget - paid
  let (_, db) ←
    if 0 < remaining then
      db.post env (tx.uuid 1) (.routeRefund id) (tx.posting .routeAvailabilityRefund)
        [(.routeEscrow id, -remaining),
          (fundingAccount row.sponsorId row.terms.cooperative, remaining)]
    else pure (0, db)
  db.updateRouteLease id row (row.closed tx state)

/-! ### Samples -/

/-- A member after a sample, and whether the interval was credited to it. -/
def creditMember (row : RouteLease) (elapsed : Int) (contiguous : Bool) (o : ObservedMember) :
    Except Failure (LeaseMember × Bool) := do
  let p := o.member
  let valid : Bool := contiguous ∧ p.sampleReady ∧ o.ready ∧ p.nodeEpoch = some o.epoch
  let credited := p.credited + if valid then elapsed else 0
  let total := credited * p.maximum / (row.durationSeconds * 1000)
  need (0 ≤ total - p.paid ∧ total ≤ p.maximum) 500 "lease_projection"
    "Projeção do contrato inconsistente."
  return ({ p with credited, paid := total, sampleReady := o.ready, nodeEpoch := some o.epoch },
    valid)

/-- The entries of a payment: what each member earned since the last sample, and what all of it
takes from the escrow. -/
def paymentLines (id : LeaseId) (before after : List LeaseMember) (delta : Int) :
    List (AccountId × Int) :=
  ((before.zip after).filterMap fun p =>
    if 0 < p.2.paid - p.1.paid then some (.available p.1.providerId, p.2.paid - p.1.paid)
    else none) ++ [(.routeEscrow id, -delta)]

/-- The row after a sample: the members with what the interval credited to them, and the instant
up to which the window has been sampled. -/
def RouteLease.sampled (row : RouteLease) (joint contiguous : Bool) (elapsed untilMs : Int)
    (credits : List (LeaseMember × Bool)) : RouteLease :=
  { row with
    members := credits.map Prod.fst
    state := if joint then row.state else .draining
    paid := (credits.map (·.1.paid)).sum
    jointReadyMs := row.jointReadyMs +
      if row.sampleReady ∧ joint ∧ contiguous ∧ ∀ c ∈ credits, c.2 then elapsed else 0
    sampleMs := some untilMs
    sampleReady := joint }

/-- The part of `advance` for a window that has started: one sample at the instant `now`. -/
def sampleRoute (env : Env) (tx : Tx) (db : Db) (id : LeaseId) (row : RouteLease)
    (now previous ends : Int) : Except Failure Db := do
  let untilMs := max previous (min now ends)
  let elapsed := untilMs - previous
  let observation ← observeRoute db row now
  let contiguous : Bool := now - previous ≤ 6000
  let credits ← observation.members.mapM (creditMember row elapsed contiguous)
  let sampled := row.sampled observation.joint contiguous elapsed untilMs credits
  let (_, db) ←
    if 0 < sampled.paid - row.paid then
      db.post env (tx.uuid 0) (.routePay id sampled.paid) (tx.posting .routeAvailabilityPayment)
        (paymentLines id row.members sampled.members (sampled.paid - row.paid))
    else pure (0, db)
  let db ← db.updateRouteLease id row sampled
  if ends ≤ now then closeRoute env tx db id sampled .completed sampled.paid
  else return db

/-- `RouteAvailability.advance`. -/
def advanceRoute (env : Env) (tx : Tx) (db : Db) (id : LeaseId) (row : RouteLease) :
    Except Failure Db := do
  let now := tx.clock 0
  if row.state = .offered then
    if toMs row.offerExpiresAt ≤ now then closeRoute env tx db id row .expired 0
    else return db
  else
    let previous ← reference row.sampleMs "sample_ms"
    let ends ← reference row.endsMs "ends_ms"
    -- a backwards wall clock cannot replay a paid interval
    if now < previous then return db
    else sampleRoute env tx db id row now previous ends

/-- The row of a window that drains: a provider that leaves gives up the rest of its own
earnings. -/
def RouteLease.drained (row : RouteLease) (tx : Tx) (user : UserId) : RouteLease :=
  { row with
    members := row.members.map fun p =>
      if p.providerId = user ∧ p.withdrawnAt = none then
        { p with withdrawnAt := some tx.now, sampleReady := false }
      else p
    state := .draining
    sampleReady := false }

/-- The end of `cancel` for a window that is still running: it drains until its end. -/
def drainRoute (tx : Tx) (db : Db) (user : UserId) (id : LeaseId) : Except Failure Db := do
  let row ← reference (db.routeLeases.find? id) "route_availability_leases_pkey"
  if row.state.running then db.updateRouteLease id row (row.drained tx user)
  else return db

/-- `RouteAvailability.cancel`. -/
def cancelRoute (env : Env) (tx : Tx) (db : Db) (user : Actor) (id : LeaseId) :
    Except Failure Db := do
  let row ← needRow (db.routeLeases.find? id) 404 "lease_missing" "Contrato não encontrado."
  need (row.sponsorId = user.id ∨ user.role = .admin ∨ ∃ p ∈ row.members, p.providerId = user.id)
    404 "lease_missing" "Contrato não encontrado."
  if row.state = .offered then closeRoute env tx db id row .cancelled row.paid
  else if row.state.running then do
    let db ← advanceRoute env tx db id row
    drainRoute tx db user.id id
  else return db

/-- One lease of `RouteAvailability.reconcile`. -/
def reconcileRoute (env : Env) (tx : Tx) (db : Db) (id : LeaseId) : Except Failure Db :=
  match db.routeLeases.find? id with
  | some row => if row.state.funded then advanceRoute env tx db id row else return db
  | none => return db

end NetworkAi
