import NetworkAi.Control.Sessions

set_option relaxedAutoImplicit false
set_option autoImplicit false

/-!
# Declarations of economic parties and the facts of an expansion

The operations of `economics.ts`: an administrator declares parties, affiliations of users and
in-kind operating support, and `expansionFacts` judges from them, from the settlements of a pool
and from its funded queue whether one more window may be opened.

## Main definitions

* `NetworkAi.declareParty`, `NetworkAi.affiliate`, `NetworkAi.declareSupport`,
  `NetworkAi.revokeAffiliation`, `NetworkAi.revokeSupport` — the operations.
* `NetworkAi.independentAt` — the parties of a consumer and of a group differ at an instant.
* `NetworkAi.expansionFacts` — the gates of an expansion.
-/

namespace NetworkAi

open Relational

/-! ### Declarations -/

/-- The fields common to the declarations. -/
structure Evidence where
  evidenceSha256 : String
  sourceReference : String
  idempotencyKey : Nat
  deriving DecidableEq, Repr

/-- The common fields as members. -/
def Evidence.members (d : Evidence) : List (String × Js) :=
  [("evidence_sha256", .str d.evidenceSha256), ("source_reference", .str d.sourceReference),
    ("idempotency_key", .uuid d.idempotencyKey)]

/-- `admin`. -/
def Actor.economicAdmin (user : Actor) : Except Failure Unit :=
  need (user.role = .admin) 403 "admin_required"
    "A classificação econômica requer revisão administrativa."

/-- `checkExpiry`: a declaration lasts from one minute to thirty days. -/
def checkEvidenceExpiry (env : Env) (tx : Tx) (value : String) : Except Failure Unit :=
  need (tx.date 0 + 60000 < toMs (env.instant value) ∧
      toMs (env.instant value) ≤ tx.date 1 + 30 * 86400000) 400 "evidence_expiry"
    "A declaração deve valer por mais de um minuto e no máximo 30 dias."

/-- The request of `Economics.party`. -/
structure PartyRequest extends Evidence where
  name : String
  deriving DecidableEq, Repr

/-- The request as a value. -/
def PartyRequest.toJs (d : PartyRequest) : Js :=
  .obj (d.members ++ [("name", .str d.name)])

/-- `Economics.party`, with the identifier of the party. -/
def declareParty (env : Env) (tx : Tx) (db : Db) (user : Actor) (d : PartyRequest) :
    Except Failure (PartyId × Db) := do
  user.economicAdmin
  match db.parties.rows.find? fun p =>
      p.2.createdBy = user.id ∧ p.2.idempotencyKey = d.idempotencyKey with
  | some old =>
    need (old.2.requestSha256 = env.digest d.toJs) 409 "idempotency_conflict"
      "Identificador usado com outra declaração."
    return (old.1, db)
  | none =>
    let id := tx.uuid 0
    let parties ← reference (db.parties.insert? id
      { name := d.name, evidenceSha256 := d.evidenceSha256, sourceReference := d.sourceReference
        createdBy := user.id, idempotencyKey := d.idempotencyKey
        requestSha256 := env.digest d.toJs, createdAt := tx.wall 0 }) "economic_parties_pkey"
    return (id, { db with parties })

/-- The request of `Economics.affiliate`. -/
structure AffiliationRequest extends Evidence where
  userId : UserId
  partyId : PartyId
  expiresAt : String
  deriving DecidableEq, Repr

/-- The request as a value. -/
def AffiliationRequest.toJs (d : AffiliationRequest) : Js :=
  .obj (d.members ++ [("user_id", .uuid d.userId), ("party_id", .uuid d.partyId),
    ("expires_at", .str d.expiresAt)])

/-- The part of `affiliate` past the idempotency check: expired affiliations of the user are
revoked, and none may remain. The trigger `revoke_private_attestation` sets the instant. -/
def affiliateNew (env : Env) (tx : Tx) (db : Db) (user : Actor) (d : AffiliationRequest) :
    Except Failure (AffiliationId × Db) := do
  checkEvidenceExpiry env tx d.expiresAt
  let affiliations := db.affiliations.mapRows fun _ a =>
    if a.userId = d.userId ∧ a.revokedAt = none ∧ a.expiresAt ≤ tx.now then
      { a with revokedAt := some (tx.wall 0) }
    else a
  need (∀ a ∈ affiliations.rows, a.2.userId = d.userId → a.2.revokedAt ≠ none) 409
    "active_affiliation" "Revogue a classificação anterior antes de substituí-la."
  constraint ((db.registry.users.find? d.userId).isSome) "economic_affiliations_user_id_fkey"
  constraint ((db.parties.find? d.partyId).isSome) "economic_affiliations_party_id_fkey"
  constraint (tx.wall 1 < env.instant d.expiresAt) "economic_affiliations_check"
  let id := tx.uuid 0
  let affiliations ← reference (affiliations.insert? id
    { userId := d.userId, partyId := d.partyId, evidenceSha256 := d.evidenceSha256
      sourceReference := d.sourceReference, createdBy := user.id
      expiresAt := env.instant d.expiresAt, revokedAt := none, createdAt := tx.wall 1
      idempotencyKey := d.idempotencyKey, requestSha256 := env.digest d.toJs })
    "economic_affiliations_pkey"
  return (id, { db with affiliations })

/-- `Economics.affiliate`, with the identifier of the affiliation. -/
def affiliate (env : Env) (tx : Tx) (db : Db) (user : Actor) (d : AffiliationRequest) :
    Except Failure (AffiliationId × Db) := do
  user.economicAdmin
  match db.affiliations.rows.find? fun a =>
      a.2.createdBy = user.id ∧ a.2.idempotencyKey = d.idempotencyKey with
  | some old =>
    need (old.2.requestSha256 = env.digest d.toJs) 409 "idempotency_conflict"
      "Identificador usado com outra classificação."
    return (old.1, db)
  | none => affiliateNew env tx db user d

/-- The request of `Economics.support`. -/
structure SupportRequest extends Evidence where
  policySha256 : String
  scope : String
  expiresAt : String
  deriving DecidableEq, Repr

/-- The request as a value, with the pool it is for. -/
def SupportRequest.toJs (d : SupportRequest) (pool : PoolId) : Js :=
  .obj (("pool_id", .uuid pool) :: d.members ++ [("policy_sha256", .str d.policySha256),
    ("scope", .str d.scope), ("expires_at", .str d.expiresAt),
    ("consent", .str "PRIVATE_IN_KIND_SUPPORT_NO_VERIFIED_CASH_CLAIM")])

/-- The part of `support` past the idempotency check. -/
def declareNewSupport (env : Env) (tx : Tx) (db : Db) (user : Actor) (pool : PoolId) (p : Pool)
    (d : SupportRequest) : Except Failure (SupportId × Db) := do
  need (p.policySha256 = d.policySha256) 409 "pool_terms"
    "A declaração deve citar a política exata do fundo."
  checkEvidenceExpiry env tx d.expiresAt
  let id := tx.uuid 0
  let terms : SupportTerms :=
    { id, poolId := pool, actorId := user.id, evidenceSha256 := d.evidenceSha256
      sourceReference := d.sourceReference, idempotencyKey := d.idempotencyKey
      policySha256 := d.policySha256, scope := d.scope, expiresAt := d.expiresAt }
  constraint (tx.wall 0 < env.instant d.expiresAt) "cooperative_operating_support_check"
  constraint (∀ s ∈ db.supports.rows, s.2.termsSha256 ≠ env.digest terms.toJs)
    "cooperative_operating_support_terms_sha256_key"
  let supports ← reference (db.supports.insert? id
    { poolId := pool, policySha256 := d.policySha256, createdBy := user.id
      expiresAt := env.instant d.expiresAt, revokedAt := none, createdAt := tx.wall 0
      idempotencyKey := d.idempotencyKey, requestSha256 := env.digest (d.toJs pool), terms
      termsSha256 := env.digest terms.toJs }) "cooperative_operating_support_pkey"
  return (id, { db with supports })

/-- `Economics.support`, with the identifier of the support. -/
def declareSupport (env : Env) (tx : Tx) (db : Db) (user : Actor) (pool : PoolId)
    (d : SupportRequest) : Except Failure (SupportId × Db) := do
  user.economicAdmin
  let p ← needRow (db.pools.find? pool) 404 "pool_missing" "Fundo não encontrado."
  match db.supports.rows.find? fun s =>
      s.2.createdBy = user.id ∧ s.2.idempotencyKey = d.idempotencyKey with
  | some old =>
    need (old.2.requestSha256 = env.digest (d.toJs pool)) 409 "idempotency_conflict"
      "Identificador usado com outro apoio."
    return (old.1, db)
  | none => declareNewSupport env tx db user pool p d

/-- `Economics.revoke` of an affiliation. -/
def revokeAffiliation (tx : Tx) (db : Db) (user : Actor) (id : AffiliationId) :
    Except Failure Db := do
  user.economicAdmin
  let row ← needRow (db.affiliations.find? id) 404 "evidence_missing"
    "Declaração não encontrada."
  if row.revokedAt.isSome then return db
  else return { db with
    affiliations := db.affiliations.set id { row with revokedAt := some (tx.wall 0) } }

/-- `Economics.revoke` of an operating support. -/
def revokeSupport (tx : Tx) (db : Db) (user : Actor) (id : SupportId) : Except Failure Db := do
  user.economicAdmin
  let row ← needRow (db.supports.find? id) 404 "evidence_missing" "Declaração não encontrada."
  if row.revokedAt.isSome then return db
  else return { db with
    supports := db.supports.set id { row with revokedAt := some (tx.wall 0) } }

/-! ### Independence of parties -/

/-- An affiliation is in force at an instant. -/
def Affiliation.inForce (a : Affiliation) (time : Micros) : Bool :=
  a.createdAt ≤ time ∧ time < a.expiresAt ∧ ∀ r ∈ a.revokedAt, time < r

/-- The providers of a group's routes and the creator of its pool. -/
def groupActors (db : Db) (p : Pool) (groupKey : String) : List UserId :=
  p.creatorId :: (p.groups.filter fun g => g.key = groupKey).flatMap fun g =>
    g.routes.flatMap fun r =>
      match db.registry.routes.find? r.routeId with
      | some route => route.members.map (·.providerId)
      | none => []

/-- `independentAt`: the consumer has a party at that instant, and every actor of the group has
one too, which is another. -/
def independentAt (db : Db) (time : Micros) (consumer : UserId) (pool : PoolId)
    (groupKey : String) : Bool :=
  match db.pools.find? pool with
  | none => false
  | some p =>
    db.affiliations.rows.any fun ca => ca.2.userId = consumer ∧ ca.2.inForce time ∧
      (groupActors db p groupKey).all fun actor =>
        (db.affiliations.rows.any fun pa => pa.2.userId = actor ∧ pa.2.inForce time) ∧
          db.affiliations.rows.all fun pa =>
            ¬ (pa.2.userId = actor ∧ pa.2.inForce time ∧ pa.2.partyId = ca.2.partyId)

/-! ### The facts of an expansion -/

/-- The support an expansion rests on, while it is in force for the whole window. -/
def currentSupport (tx : Tx) (db : Db) (id : Option SupportId) (pool : PoolId) (p : Pool)
    (durationSeconds : Nat) : Option (SupportId × OperatingSupport) :=
  id.bind fun id =>
    ((db.supports.find? id).filter fun os => os.poolId = pool ∧
      os.policySha256 = p.policySha256 ∧ os.revokedAt = none ∧
      (∃ u ∈ db.registry.users.find? os.createdBy, u.disabled = false) ∧
      tx.wall 0 + seconds (durationSeconds + 10) < os.expiresAt).map fun os => (id, os)

/-- The settlement of a session came from a consumer independent of the group that served it. -/
def separateParties (db : Db) (session : SessionId) (cs : Settlement) : Bool :=
  match db.sessions.find? session, db.windows.find? cs.coverageLeaseId with
  | some ss, some cw => independentAt db cs.createdAt ss.userId cs.poolId cw.groupKey
  | _, _ => false

/-- The net amount recycled by separate parties in the last day. -/
def netRecycled (tx : Tx) (db : Db) (pool : PoolId) : Int :=
  let day := seconds 86400
  let credited := db.settlements.sum fun session cs =>
    if cs.poolId = pool ∧ tx.now - day < cs.createdAt ∧ separateParties db session cs then
      cs.working + cs.reserve
    else 0
  let reversed := db.settlements.sum fun session cs =>
    match db.refunds.find? session with
    | some rf =>
      if cs.poolId = pool ∧ tx.now - day < rf.createdAt ∧ separateParties db session cs then
        cs.working + cs.reserve
      else 0
    | none => 0
  credited - reversed

/-- What the pool's working windows paid to providers in the last day. -/
def normalCost (tx : Tx) (db : Db) (pool : PoolId) : Int :=
  (db.books.lines.map fun l =>
    match l.accountId, db.books.journal.find? l.journalId with
    | .routeEscrow lease, some j =>
      match db.windows.find? lease with
      | some cw =>
        if cw.poolId = pool ∧ cw.source = .working ∧ j.info.kind = .routeAvailabilityPayment ∧
            tx.now - seconds 86400 < j.info.createdAt then -l.amount
        else 0
      | none => 0
    | _, _ => 0).sum

/-- A lease is active, undisturbed and lasts ten more seconds. -/
def RouteLease.covering (l : RouteLease) (wall : Micros) : Bool :=
  l.state = .active ∧ (∃ ends ∈ l.endsMs, wall + ofMs 10000 < ofMs ends) ∧
    ∀ m ∈ l.members, m.withdrawnAt = none

/-- The domains of the ready offer of a route. -/
def offerDomains (tx : Tx) (db : Db) (route : RouteId) : Option (List DomainId) :=
  ((db.registry.readyOffers tx.now).find? fun o => o.routeId = some route).map (·.domainIds)

/-- The domain sets of the covered routes of a group, in the order of their leases. -/
def coveredDomains (tx : Tx) (db : Db) (pool : PoolId) (groupKey : String) :
    List (List DomainId) :=
  (((poolWindows db pool).filter fun w => w.2.1.groupKey = groupKey ∧
    w.2.2.covering (tx.wall 1)).insertionSort fun a b => a.1 ≤ b.1).filterMap fun w =>
      offerDomains tx db w.2.2.routeId

/-- The spare slots on the covered routes of a group. -/
def spareCovered (tx : Tx) (db : Db) (pool : PoolId) (groupKey : String) : Int :=
  packOffers (fun d =>
    match db.registry.domains.find? d with
    | some row => max 0 ((row.slots : Int) - (occupancy db d : Int))
    | none => 0) (coveredDomains tx db pool groupKey)

/-- The routes of a group that are ready, unclaimed and idle. -/
def expansionCandidates (tx : Tx) (db : Db) (g : CoopGroup) : List RouteId :=
  (((freeRoutes tx db g none).filter fun r =>
    ∃ o ∈ db.registry.readyOffers tx.now, o.routeId = some r.routeId ∧
      ∀ d ∈ o.domainIds, occupancy db d = 0).map (·.routeId)).insertionSort (· ≤ ·)

/-- The essential groups of a sponsor's supported pools that have no open window. -/
def uncoveredGroups (tx : Tx) (db : Db) (creator : UserId) : Nat :=
  (db.pools.rows.map fun ep =>
    if ep.2.creatorId = creator ∧ ep.2.paused = false ∧ tx.now < ep.2.supportUntil then
      (ep.2.groups.filter fun eg => groupCommitted db ep.1 eg.key .essential = false).length
    else 0).sum

/-- The essential groups of a pool that a window covers. -/
def essentialGroupsCovered (tx : Tx) (db : Db) (pool : PoolId) : Nat :=
  (((poolWindows db pool).filter fun w => w.2.1.kind = .essential ∧
    w.2.2.covering (tx.wall 2) ∧ db.registry.routeReady tx.now w.2.2.routeId).map
      (·.2.1.groupKey)).dedup.length

/-- A funded request that waits for capacity. -/
structure WaitingDemand where
  sessionId : SessionId
  userId : UserId
  partyId : PartyId
  affiliationId : AffiliationId
  createdAt : Micros
  hold : Int
  deriving DecidableEq, Repr

/-- The hold of a session is in the journal. -/
def holdPosted (db : Db) (id : SessionId) (s : Session) : Bool :=
  match db.books.findKey (.hold id) with
  | some j => (db.books.linesOfJournal j).any fun l =>
      l.accountId = .held s.userId ∧ l.amount = s.hold
  | none => false

/-- A queued session of a pool and group counts as independent, funded demand. -/
def demandEligible (tx : Tx) (db : Db) (pool : PoolId) (p : Pool) (g : CoopGroup)
    (id : SessionId) (s : Session) : Bool :=
  s.cooperativePoolId = some pool ∧ s.modelId = g.modelId ∧
    s.cooperativePolicySha256 = some p.policySha256 ∧ s.state = .queued ∧
    s.billingState = .held ∧ 0 < s.hold ∧
    (∃ u ∈ db.registry.users.find? s.userId, u.disabled = false) ∧
    (∃ m ∈ db.registry.models.find? s.modelId,
      s.manifestSha256 = m.manifestSha256 ∧ m.state = .localPreview) ∧
    s.createdAt ≤ tx.now - seconds 10 ∧ tx.wall 3 + seconds 10 < s.queueDeadline ∧
    independentAt db (tx.wall 4) s.userId pool g.key ∧ holdPosted db id s ∧
    ∀ ed ∈ db.demands.rows, ed.2.sessionId ≠ id

/-- The order of the demand: by party, then by age. -/
def demandOrder (a b : WaitingDemand) : Bool :=
  a.partyId < b.partyId ∨ (a.partyId = b.partyId ∧
    (a.createdAt < b.createdAt ∨ (a.createdAt = b.createdAt ∧ a.sessionId ≤ b.sessionId)))

/-- `DISTINCT ON (party_id)`: the first request of each party, in a list ordered by party. -/
def firstOfParty : List WaitingDemand → List WaitingDemand
  | [] => []
  | d :: ds => d :: (firstOfParty ds).filter fun e => e.partyId ≠ d.partyId

/-- The independent funded demand of a group: at most one request of each party. -/
def waitingDemand (tx : Tx) (db : Db) (pool : PoolId) (p : Pool) (g : CoopGroup) :
    List WaitingDemand :=
  let rows := db.sessions.rows.flatMap fun s =>
    if demandEligible tx db pool p g s.1 s.2 then
      db.affiliations.rows.filterMap fun a =>
        if a.2.userId = s.2.userId ∧ a.2.revokedAt = none ∧ tx.now < a.2.expiresAt then
          some { sessionId := s.1, userId := s.2.userId, partyId := a.2.partyId
                 affiliationId := a.1, createdAt := s.2.createdAt, hold := s.2.hold }
        else none
    else []
  (firstOfParty (rows.insertionSort fun a b => demandOrder a b)).take 100

/-- `expansionFacts`: the public view, the demand and the candidate routes. -/
structure ExpansionFacts where
  view : ExpansionView
  demand : List WaitingDemand
  candidates : List RouteId
  deriving DecidableEq, Repr

/-- `expansionFacts`. -/
def expansionFacts (tx : Tx) (db : Db) (pool : PoolId) (p : Pool) (g : CoopGroup) (s : Snapshot)
    (supportId : Option SupportId) : ExpansionFacts :=
  let support := currentSupport tx db supportId pool p g.durationSeconds
  let recycled := netRecycled tx db pool
  let cost := normalCost tx db pool
  let spare := spareCovered tx db pool g.key
  let candidates := expansionCandidates tx db g
  let reserved := openContracts db p.creatorId + uncoveredGroups tx db p.creatorId
  let covered := essentialGroupsCovered tx db pool
  let demand := waitingDemand tx db pool p g
  let gates : Gates :=
    { policyPermission := p.policy.expansion = expansionPermission
      normalRecovery := s.state = .normal
      workingFloor := s.floor + g.cost ≤ s.working
      protectedReserve := s.reserveTarget ≤ s.reserve
      operatingSupport := support.isSome
      essentialCoverage := covered = s.groups.length
      essentialContractSlots := reserved < 4
      recurringFlow := 0 < cost ∧ cost ≤ recycled
      fundedPressure := spare < (demand.length : Int)
      additionalCompleteRoute := candidates ≠ [] }
  { view :=
      { evaluatedAt := tx.date 0, gates, windowBudget := g.cost, freeWorking := s.working
        essentialFloor := s.floor, freeReserve := s.reserve, reserveTarget := s.reserveTarget
        netRecycled := recycled, normalCost := cost, eligibleFundedParties := demand.length
        spareCoveredSlots := spare.toNat, additionalCompleteRoutes := candidates.length
        essentialGroupsCovered := covered, essentialGroupsRequired := s.groups.length
        reservedSponsorContractSlots := reserved
        support := support.map fun os =>
          { id := os.1, termsSha256 := os.2.termsSha256, expiresAt := os.2.expiresAt } }
    demand, candidates }

end NetworkAi
