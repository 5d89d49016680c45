import NetworkAi.Control.RouteAvailability

set_option relaxedAutoImplicit false
set_option autoImplicit false

/-!
# Readiness contracts of single nodes

The operations of `availability.ts`: a sponsor funds an escrow for one node, its provider accepts,
the contract earns for the time between two samples that observed the node ready in one epoch, and
its end returns the rest.

## Main definitions

* `NetworkAi.offerLease`, `NetworkAi.acceptLease`, `NetworkAi.cancelLease`,
  `NetworkAi.reconcileLease` — the operations.
* `NetworkAi.observeNode`, `NetworkAi.sampleLease`, `NetworkAi.closeLease` — the parts of
  `advance`.
-/

namespace NetworkAi

open Relational

/-- The request of `Availability.offer`. -/
structure LeaseOffer where
  nodeId : NodeId
  durationSeconds : Nat
  rate : Int
  idempotencyKey : String
  deriving DecidableEq, Repr

/-- The bounds of the request's schema. -/
def LeaseOffer.Valid (d : LeaseOffer) : Prop :=
  (30 ≤ d.durationSeconds ∧ d.durationSeconds ≤ 3600) ∧ isAmount d.rate ∧ 0 < d.rate

instance LeaseOffer.decidableValid (d : LeaseOffer) : Decidable d.Valid :=
  inferInstanceAs (Decidable (_ ∧ _))

/-- The request as a value. -/
def LeaseOffer.toJs (d : LeaseOffer) : Js :=
  .obj [("node_id", .uuid d.nodeId), ("duration_seconds", .nat d.durationSeconds),
    ("rate_microtu_per_second", .amount d.rate), ("idempotency_key", .str d.idempotencyKey)]

/-- The checks of `availability_leases` on the columns that change. -/
def NodeLease.Valid (row : NodeLease) : Prop :=
  (0 ≤ row.paid ∧ row.paid ≤ row.budget) ∧
    (0 ≤ row.credited ∧ row.credited ≤ row.durationSeconds * 1000)

instance NodeLease.decidableValid (row : NodeLease) : Decidable row.Valid :=
  inferInstanceAs (Decidable (_ ∧ _))

/-- Update a lease, with its index `one_active_lease_per_domain` and the trigger
`maintain_availability_claims`. -/
def Db.updateNodeLease (db : Db) (id : LeaseId) (old new : NodeLease) : Except Failure Db := do
  constraint new.Valid "availability_leases_check"
  constraint (new.state = .active → ∀ l ∈ db.nodeLeases.rows, l.1 ≠ id → l.2.state = .active →
    l.2.resourceDomainId ≠ new.resourceDomainId) "one_active_lease_per_domain"
  let claims ←
    if new.state = .active ∧ old.state ≠ .active then
      insertClaims db.claims (.nodeLease id) [new.resourceDomainId]
    else if new.state ≠ .active ∧ old.state = .active then
      pure (deleteClaims db.claims (.nodeLease id))
    else pure db.claims
  return { db with nodeLeases := db.nodeLeases.set id new, claims }

/-! ### Offers -/

/-- The part of `offer` past the idempotency check. -/
def offerNewLease (env : Env) (tx : Tx) (db : Db) (user : Actor) (d : LeaseOffer) :
    Except Failure (LeaseId × Db) := do
  let budget := d.rate * d.durationSeconds
  need (openContracts db user.id < 4) 429 "lease_limit" "Você já tem quatro contratos abertos."
  let node ← needRow (db.registry.nodes.find? d.nodeId) 409 "node_unavailable"
    "Use um nó de modelo completo ou financie a rota com todas as etapas."
  let model ← reference (db.registry.models.find? node.modelId) "nodes_model_id_fkey"
  let owner ← reference (db.registry.users.find? node.ownerId) "nodes_owner_id_fkey"
  need (node.kind = .inference ∧ model.state = .localPreview ∧ node.desiredState ≠ .revoked ∧
      owner.disabled = false) 409 "node_unavailable"
    "Use um nó de modelo completo ou financie a rota com todas as etapas."
  let id := tx.uuid 0
  let books ← db.books.openFresh (.leaseEscrow id) .leaseEscrow
  let (_, db) ← { db with books }.post env (tx.uuid 1) (.leaseFund id)
    (tx.posting .availabilityReserve)
    [(.available user.id, -budget), (.leaseEscrow id, budget)]
  let nodeLeases ← reference (db.nodeLeases.insert? id
    { sponsorId := user.id, providerId := node.ownerId, nodeId := d.nodeId
      resourceDomainId := node.resourceDomainId, modelId := node.modelId
      manifestSha256 := model.manifestSha256, idempotencyKey := d.idempotencyKey
      requestSha256 := env.digest d.toJs, state := .offered
      durationSeconds := d.durationSeconds, rate := d.rate, budget, paid := 0, credited := 0
      sampleMs := none, sampleReady := false, nodeEpoch := none, startedMs := none
      endsMs := none, offerExpiresAt := tx.now + seconds 300, createdAt := tx.now
      finishedAt := none }) "availability_leases_pkey"
  return (id, { db with nodeLeases })

/-- `Availability.offer`, with the identifier of the lease. -/
def offerLease (env : Env) (tx : Tx) (db : Db) (user : Actor) (d : LeaseOffer) :
    Except Failure (LeaseId × Db) := do
  parse d.Valid
  need (d.rate * d.durationSeconds ≤ maxAmount) 400 "amount_overflow" "Valor fora do limite."
  match db.nodeLeases.rows.find? fun l =>
      l.2.sponsorId = user.id ∧ l.2.idempotencyKey = d.idempotencyKey with
  | some existing =>
    need (existing.2.requestSha256 = env.digest d.toJs) 409 "idempotency_conflict"
      "Esta chave já foi usada com outra oferta."
    return (existing.1, db)
  | none => offerNewLease env tx db user d

/-! ### Observations -/

/-- What `observation` returns for an existing node. -/
structure NodeObservation where
  epoch : Nat
  kind : NodeKind
  ready : Bool
  deriving DecidableEq, Repr

/-- `Availability.observation`. -/
def observeNode (db : Db) (row : NodeLease) (now : Int) : Except Failure NodeObservation := do
  let n ← reference (db.registry.nodes.find? row.nodeId) "availability_leases_node_id_fkey"
  let m ← reference (db.registry.models.find? n.modelId) "nodes_model_id_fkey"
  let u ← reference (db.registry.users.find? n.ownerId) "nodes_owner_id_fkey"
  let ready : Bool := n.state = .ready ∧ n.desiredState = .ready ∧ u.disabled = false ∧
    m.state = .localPreview ∧ m.manifestSha256 = row.manifestSha256 ∧
    n.ownerId = row.providerId ∧ n.resourceDomainId = row.resourceDomainId ∧
    -- a node that was never seen has the instant 0
    now - toMs (n.lastSeen.getD 0) ≤ 5000 ∧ m.manifest.backendModel ∈ n.loadedBackendModels
  return { epoch := n.epoch, kind := n.kind, ready }

/-! ### Acceptance -/

/-- The row of a lease that starts. -/
def NodeLease.activated (row : NodeLease) (now : Int) (epoch : Nat) : NodeLease :=
  { row with
    state := .active
    startedMs := some now
    endsMs := some (now + row.durationSeconds * 1000)
    sampleMs := some now
    sampleReady := true
    nodeEpoch := some epoch }

/-- `Availability.accept`. -/
def acceptLease (tx : Tx) (db : Db) (user : Actor) (id : LeaseId) : Except Failure Db := do
  let row ← needRow (db.nodeLeases.find? id) 404 "lease_missing"
    "Contrato não encontrado para este operador."
  need (row.providerId = user.id) 404 "lease_missing"
    "Contrato não encontrado para este operador."
  if row.state = .active then
    return db
  else
    need (row.state = .offered ∧ tx.clock 0 < toMs row.offerExpiresAt) 409 "offer_expired"
      "A oferta expirou ou foi encerrada."
    need (db.claims.find? row.resourceDomainId = none) 409 "domain_leased"
      "Esta capacidade já possui um contrato ativo."
    let now := tx.clock 1
    let node ← observeNode db row now
    need (node.ready = true ∧ node.kind = .inference) 409 "node_not_ready"
      "O modelo precisa estar pronto e com presença recente."
    db.updateNodeLease id row (row.activated now node.epoch)

/-! ### Samples and the end -/

/-- The row after a sample: two observations in one epoch, at most six seconds apart, delimit a
payable interval. -/
def NodeLease.sampled (row : NodeLease) (node : NodeObservation) (now previous ends : Int) :
    NodeLease :=
  let untilMs := max previous (min now ends)
  let elapsed := max 0 (untilMs - previous)
  let valid : Bool := row.sampleReady ∧ node.ready ∧ row.nodeEpoch = some node.epoch ∧
    now - previous ≤ 6000
  let credited := row.credited + if valid then elapsed else 0
  { row with
    sampleMs := some untilMs
    sampleReady := node.ready
    nodeEpoch := some node.epoch
    credited
    paid := max row.paid (credited * row.rate / 1000) }

/-- The part of `advance` that samples an active lease and pays what the sample earned. -/
def sampleLease (env : Env) (tx : Tx) (db : Db) (id : LeaseId) (row : NodeLease)
    (now previous ends : Int) : Except Failure (NodeLease × Db) := do
  let node ← observeNode db row now
  let sampled := row.sampled node now previous ends
  let total := sampled.credited * row.rate / 1000
  let (_, db) ←
    if row.paid < total then
      db.post env (tx.uuid 0) (.leasePay id sampled.credited) (tx.posting .availabilityPayment)
        [(.leaseEscrow id, row.paid - total), (.available row.providerId, total - row.paid)]
    else pure (0, db)
  let db ← db.updateNodeLease id row sampled
  return (sampled, db)

/-- The row of a lease that has ended. -/
def NodeLease.closed (row : NodeLease) (tx : Tx) (state : NodeLeaseState) : NodeLease :=
  { row with state, finishedAt := some tx.now, sampleReady := false }

/-- The part of `advance` that ends a lease: the rest of the budget returns to the sponsor. -/
def closeLease (env : Env) (tx : Tx) (db : Db) (id : LeaseId) (row : NodeLease)
    (state : NodeLeaseState) : Except Failure Db := do
  let remaining := row.budget - row.paid
  let (_, db) ←
    if 0 < remaining then
      db.post env (tx.uuid 1) (.leaseRefund id) (tx.posting .availabilityRefund)
        [(.leaseEscrow id, -remaining), (.available row.sponsorId, remaining)]
    else pure (0, db)
  db.updateNodeLease id row (row.closed tx state)

/-- `Availability.advance`. -/
def advanceLease (env : Env) (tx : Tx) (db : Db) (id : LeaseId) (row : NodeLease)
    (cancel : Bool) : Except Failure Db := do
  let now := tx.clock 0
  if row.state = .active then
    let previous ← reference row.sampleMs "sample_ms"
    let ends ← reference row.endsMs "ends_ms"
    let (row, db) ← sampleLease env tx db id row now previous ends
    if cancel then closeLease env tx db id row .cancelled
    else if ends ≤ now then closeLease env tx db id row .completed
    else return db
  else if cancel then closeLease env tx db id row .cancelled
  else if row.state = .offered ∧ toMs row.offerExpiresAt ≤ now then
    closeLease env tx db id row .expired
  else return db

/-- `Availability.cancel`. -/
def cancelLease (env : Env) (tx : Tx) (db : Db) (user : Actor) (id : LeaseId) :
    Except Failure Db := do
  let row ← needRow (db.nodeLeases.find? id) 404 "lease_missing" "Contrato não encontrado."
  need (row.sponsorId = user.id ∨ row.providerId = user.id ∨ user.role = .admin) 404
    "lease_missing" "Contrato não encontrado."
  if row.state.isOpen then advanceLease env tx db id row true else return db

/-- One lease of `Availability.reconcile`. -/
def reconcileLease (env : Env) (tx : Tx) (db : Db) (id : LeaseId) : Except Failure Db :=
  match db.nodeLeases.find? id with
  | some row => if row.state.isOpen then advanceLease env tx db id row false else return db
  | none => return db

end NetworkAi
