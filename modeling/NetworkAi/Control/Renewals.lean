import NetworkAi.Control.Economics

set_option relaxedAutoImplicit false
set_option autoImplicit false

/-!
# Bounded renewal authority

The operations of `renewals.ts` with the triggers of `008_bounded_renewals.sql` and
`009_demand_backed_expansion.sql`: the manager of a pool authorizes a bounded number of windows
and of commitments, every provider mandates a bounded number of windows of a route, and an
attempt consumes both together with the window it opens.

## Main definitions

* `NetworkAi.authorizeRenewal`, `NetworkAi.mandateProvider`, `NetworkAi.revokeAuthorization`,
  `NetworkAi.revokeMandate` — the two authorities.
* `NetworkAi.attempt` — one renewal.
* `NetworkAi.consumeRenewalAuthority`, `NetworkAi.consumeProviderMandate` — the triggers that
  consume the authorities; `NetworkAi.validateExpansionDemand` — the trigger on the evidence.

## Implementation notes

The deferred triggers `complete_renewal_usage` and `complete_expansion_evidence` are checked at
the end of the attempt, which is the only transaction that inserts the rows they are about.
`reconcile` attempts the active authorizations of a batch one by one; which ones a batch holds is
not modelled, any authorization may be attempted at any time.
-/

namespace NetworkAi

open Relational

/-! ### Granting authority -/

/-- The fields common to authorizations and mandates. -/
structure AuthorityRequest where
  policySha256 : String
  maximumWindows : Nat
  expiresAt : String
  idempotencyKey : Nat
  reason : String
  coverageKind : Option CoverageKind
  deriving DecidableEq, Repr

/-- The kind of coverage that is meant, by default the essential one. -/
def AuthorityRequest.kind (d : AuthorityRequest) : CoverageKind :=
  d.coverageKind.getD .essential

/-- The common fields as members, without the kind. -/
def AuthorityRequest.members (d : AuthorityRequest) : List (String × Js) :=
  [("policy_sha256", .str d.policySha256), ("maximum_windows", .nat d.maximumWindows),
    ("expires_at", .str d.expiresAt), ("idempotency_key", .uuid d.idempotencyKey),
    ("reason", .str d.reason)]

/-- `checkExpiry`: an authority covers a whole window with a margin of ten seconds, and lasts
thirty days at most. -/
def checkMandateExpiry (env : Env) (tx : Tx) (value : String) (durationSeconds : Nat) :
    Except Failure Unit :=
  need (tx.date 0 + (durationSeconds + 10) * 1000 < toMs (env.instant value) ∧
      toMs (env.instant value) ≤ tx.date 1 + 30 * 86400000) 400 "mandate_expiry"
    "A autorização deve cobrir uma janela completa, com margem de 10 segundos, e durar no máximo 30 dias."

/-- The request of `Renewals.authorize`. -/
structure AuthorizationRequest extends AuthorityRequest where
  groupKey : String
  maximumWorking : Int
  maximumReserve : Int
  operatingSupportId : Option SupportId
  deriving DecidableEq, Repr

/-- The bounds of the request's schema. -/
def AuthorizationRequest.Valid (d : AuthorizationRequest) : Prop :=
  (1 ≤ d.maximumWindows ∧ d.maximumWindows ≤ 10000) ∧ isAmount d.maximumWorking ∧
    isAmount d.maximumReserve

instance AuthorizationRequest.decidableValid (d : AuthorizationRequest) : Decidable d.Valid :=
  inferInstanceAs (Decidable (_ ∧ _))

/-- The request as a value, with the pool it is for. -/
def AuthorizationRequest.toJs (d : AuthorizationRequest) (pool : PoolId) : Js :=
  .obj (("pool_id", .uuid pool) :: d.members ++ [("group_key", .str d.groupKey),
    ("maximum_working_microtu", .amount d.maximumWorking),
    ("maximum_reserve_microtu", .amount d.maximumReserve),
    ("consent", .str "BOUNDED_GROSS_COMMITMENTS_NO_AUTOMATIC_LIMIT_INCREASE")] ++
    if d.kind = .expansion then
      [("coverage_kind", .str d.kind.text),
        ("operating_support_id", .uuidOrNull d.operatingSupportId)]
    else [])

/-- The operating support that an expansion authorization cites is in force. -/
def supportInForce (tx : Tx) (db : Db) (d : AuthorizationRequest) (pool : PoolId) (p : Pool)
    (g : CoopGroup) : Bool :=
  (currentSupport tx db d.operatingSupportId pool p g.durationSeconds).isSome

/-- Close the active authorizations of a pool that have expired. -/
def expireAuthorizations (tx : Tx) (db : Db) (pool : PoolId) : Db :=
  { db with authorizations := db.authorizations.mapRows fun _ a =>
      if a.poolId = pool ∧ a.state = .active ∧ a.expiresAt ≤ tx.now then
        { a with state := .expired }
      else a }

/-- The part of `authorize` past the idempotency check. -/
def authorizeNew (env : Env) (tx : Tx) (db : Db) (user : Actor) (id : PoolId) (p : Pool)
    (d : AuthorizationRequest) : Except Failure (AuthorizationId × Db) := do
  need (p.policySha256 = d.policySha256) 409 "pool_terms" "Confira a política exata do fundo."
  need (d.kind = .expansion → p.policy.expansion = expansionPermission) 409 "expansion_policy"
    "A política original deste fundo não permite expansão. Crie um novo plano com os novos termos."
  let g ← needRow (p.groups.find? fun g => g.key = d.groupKey) 404 "group_missing"
    "Grupo essencial não encontrado."
  checkMandateExpiry env tx d.expiresAt g.durationSeconds
  need (d.kind = .expansion → supportInForce tx db d id p g) 409 "operating_support"
    "Confira uma declaração de apoio válida para este fundo e janela."
  need (d.maximumWorking + d.maximumReserve ≤ maxAmount ∧
      (g.cost ≤ d.maximumWorking ∨ g.cost ≤ d.maximumReserve)) 400 "authorization_budget"
    "Um dos limites deve cobrir a rota inteira, sem exceder o limite contábil."
  let db := expireAuthorizations tx db id
  need (∀ a ∈ db.authorizations.rows, a.2.poolId = id → a.2.groupKey = d.groupKey →
      a.2.kind = d.kind → a.2.state ≠ .active) 409 "active_authorization"
    "Revogue a autorização anterior antes de substituir seus limites."
  let auth := tx.uuid 0
  let terms : AuthorizationTerms :=
    { kind := d.kind, operatingSupportId := d.operatingSupportId, authorizationId := auth
      poolId := id, policySha256 := p.policySha256, groupKey := g.key
      durationSeconds := g.durationSeconds, windowBudget := g.cost
      maximumWindows := d.maximumWindows, maximumWorking := d.maximumWorking
      maximumReserve := d.maximumReserve, expiresAt := d.expiresAt, reason := d.reason }
  constraint (∀ a ∈ db.authorizations.rows, a.2.termsSha256 ≠ env.digest terms.toJs)
    "cooperative_renewal_authorizations_terms_sha256_key"
  let authorizations ← reference (db.authorizations.insert? auth
    { poolId := id, groupKey := g.key, authorizedBy := user.id, policySha256 := p.policySha256
      maximumWindows := d.maximumWindows, maximumWorking := d.maximumWorking
      maximumReserve := d.maximumReserve, windowsUsed := 0, workingCommitted := 0
      reserveCommitted := 0, terms, termsSha256 := env.digest terms.toJs
      expiresAt := env.instant d.expiresAt, state := .active, revokedAt := none
      idempotencyKey := d.idempotencyKey, requestSha256 := env.digest (d.toJs id)
      lastStatus := .waiting, lastAttemptAt := none, kind := d.kind
      operatingSupportId := d.operatingSupportId }) "cooperative_renewal_authorizations_pkey"
  return (auth, { db with authorizations })

/-- `Renewals.authorize`, with the identifier of the authorization. -/
def authorizeRenewal (env : Env) (tx : Tx) (db : Db) (user : Actor) (id : PoolId)
    (d : AuthorizationRequest) : Except Failure (AuthorizationId × Db) := do
  parse d.Valid
  need (if d.kind = .expansion then d.operatingSupportId.isSome ∧ d.maximumReserve = 0
      else d.operatingSupportId = none) 400 "expansion_authority"
    "Expansão exige apoio operacional específico e limite zero para a reserva."
  let p ← needRow (db.pools.find? id) 404 "pool_missing" "Fundo cooperativo não encontrado."
  need (user.id = p.creatorId ∨ user.role = .admin) 403 "pool_manager"
    "Somente o responsável pode autorizar gastos do fundo."
  match db.authorizations.rows.find? fun a =>
      a.2.authorizedBy = user.id ∧ a.2.idempotencyKey = d.idempotencyKey with
  | some old =>
    need (old.2.requestSha256 = env.digest (d.toJs id)) 409 "idempotency_conflict"
      "Identificador usado com outros limites."
    return (old.1, db)
  | none => authorizeNew env tx db user id p d

/-- The request of `Renewals.mandate`. -/
structure MandateRequest extends AuthorityRequest where
  routeId : RouteId
  /-- The consent is the one for expansion windows. -/
  expansionConsent : Bool
  deriving DecidableEq, Repr

/-- The request as a value, with the pool it is for. -/
def MandateRequest.toJs (d : MandateRequest) (pool : PoolId) : Js :=
  .obj (("pool_id", .uuid pool) :: d.members ++ [("route_id", .uuid d.routeId),
    ("consent", .str (if d.expansionConsent then "READINESS_ONLY_BOUNDED_EXPANSION"
      else "READINESS_ONLY_BOUNDED_RENEWALS"))] ++
    if d.kind = .expansion then [("coverage_kind", .str d.kind.text)] else [])

/-- Close the active mandates that have expired, of one provider and pool or of all. -/
def expireMandates (tx : Tx) (db : Db) (scope : Option (PoolId × UserId)) : Db :=
  { db with mandates := db.mandates.mapRows fun _ m =>
      if (∀ s ∈ scope, m.poolId = s.1 ∧ m.providerId = s.2) ∧ m.state = .active ∧
          m.expiresAt ≤ tx.now then
        { m with state := .expired }
      else m }

/-- The part of `mandate` past the idempotency check. -/
def mandateNew (env : Env) (tx : Tx) (db : Db) (user : Actor) (id : PoolId) (p : Pool)
    (d : MandateRequest) : Except Failure (MandateId × Db) := do
  need (p.policySha256 = d.policySha256) 409 "pool_terms" "Confira a política exata do fundo."
  need (d.kind = .expansion → p.policy.expansion = expansionPermission) 409 "expansion_policy"
    "A política original deste fundo não permite expansão. Crie um novo plano com os novos termos."
  let g ← needRow (p.groups.find? fun g => g.routes.any fun r => r.routeId = d.routeId) 404
    "provider_route" "Você precisa oferecer uma das partes desta rota qualificada."
  let cr ← needRow (g.routes.find? fun r => r.routeId = d.routeId) 404
    "provider_route" "Você precisa oferecer uma das partes desta rota qualificada."
  let route ← needRow (db.registry.routes.find? d.routeId) 404
    "provider_route" "Você precisa oferecer uma das partes desta rota qualificada."
  need (route.state = .localPreview ∧ ∃ m ∈ route.members, m.providerId = user.id) 404
    "provider_route" "Você precisa oferecer uma das partes desta rota qualificada."
  checkMandateExpiry env tx d.expiresAt g.durationSeconds
  let db := expireMandates tx db (some (id, user.id))
  need (∀ m ∈ db.mandates.rows, m.2.poolId = id → m.2.routeId = d.routeId →
      m.2.providerId = user.id → m.2.kind = d.kind → m.2.state ≠ .active) 409 "active_mandate"
    "Revogue sua autorização anterior antes de substituir seus limites."
  let shares ← splitByBps g.cost (route.members.map (·.shareBps))
  need (∀ v ∈ shares, 0 < v) 400 "window_budget"
    "O orçamento precisa remunerar todas as partes da rota."
  let mid := tx.uuid 0
  let terms : MandateTerms :=
    { kind := d.kind, mandateId := mid, poolId := id, policySha256 := p.policySha256
      providerId := user.id, routeId := d.routeId, routeSha256 := cr.routeSha256
      durationSeconds := g.durationSeconds, windowBudget := g.cost
      maximumWindows := d.maximumWindows, expiresAt := d.expiresAt
      components := (route.members.zip shares).filter fun m => m.1.providerId = user.id
      reason := d.reason }
  constraint (∀ m ∈ db.mandates.rows, m.2.termsSha256 ≠ env.digest terms.toJs)
    "cooperative_provider_mandates_terms_sha256_key"
  let mandates ← reference (db.mandates.insert? mid
    { poolId := id, providerId := user.id, routeId := d.routeId, routeSha256 := cr.routeSha256
      policySha256 := p.policySha256, maximumWindows := d.maximumWindows, windowsUsed := 0, terms
      termsSha256 := env.digest terms.toJs, expiresAt := env.instant d.expiresAt
      state := .active, revokedAt := none, idempotencyKey := d.idempotencyKey
      requestSha256 := env.digest (d.toJs id), kind := d.kind })
    "cooperative_provider_mandates_pkey"
  return (mid, { db with mandates })

/-- `Renewals.mandate`, with the identifier of the mandate. -/
def mandateProvider (env : Env) (tx : Tx) (db : Db) (user : Actor) (id : PoolId)
    (d : MandateRequest) : Except Failure (MandateId × Db) := do
  parse (1 ≤ d.maximumWindows ∧ d.maximumWindows ≤ 10000)
  need (d.expansionConsent = true ↔ d.kind = .expansion) 400 "mandate_kind"
    "Confira o consentimento específico para capacidade essencial ou expansão."
  let p ← needRow (db.pools.find? id) 404 "pool_missing" "Fundo cooperativo não encontrado."
  match db.mandates.rows.find? fun m =>
      m.2.providerId = user.id ∧ m.2.idempotencyKey = d.idempotencyKey with
  | some old =>
    need (old.2.requestSha256 = env.digest (d.toJs id)) 409 "idempotency_conflict"
      "Identificador usado com outros termos."
    return (old.1, db)
  | none => mandateNew env tx db user id p d

/-- `Renewals.revoke` of an authorization. -/
def revokeAuthorization (tx : Tx) (db : Db) (user : Actor) (id : AuthorizationId) :
    Except Failure Db := do
  let row ← needRow (db.authorizations.find? id) 404 "authority_missing"
    "Autorização não encontrada."
  let p ← needRow (db.pools.find? row.poolId) 404 "pool_missing"
    "Fundo cooperativo não encontrado."
  need (user.role = .admin ∨ p.creatorId = user.id) 403 "authority_owner"
    "Somente o responsável pode revogar esta autorização."
  if row.state ≠ .active then return db
  else
    let row := { row with state := .revoked, revokedAt := some (tx.wall 0) }
    return { db with authorizations := db.authorizations.set id row }

/-- `Renewals.revoke` of a mandate. -/
def revokeMandate (tx : Tx) (db : Db) (user : Actor) (id : MandateId) : Except Failure Db := do
  let row ← needRow (db.mandates.find? id) 404 "authority_missing" "Autorização não encontrada."
  let _ ← needRow (db.pools.find? row.poolId) 404 "pool_missing"
    "Fundo cooperativo não encontrado."
  need (user.role = .admin ∨ row.providerId = user.id) 403 "authority_owner"
    "Somente o responsável pode revogar esta autorização."
  if row.state ≠ .active then return db
  else
    let row := { row with state := .revoked, revokedAt := some (tx.wall 0) }
    return { db with mandates := db.mandates.set id row }

/-! ### Consuming authority -/

/-- `floor(extract(epoch FROM t)*1000)`. -/
def epochMs (t : Micros) : Int := toMs t

/-- The renewal that the terms of a lease cite. -/
def RouteLease.renewal (l : RouteLease) : Option RenewalTerms :=
  l.terms.cooperative.bind (·.renewal)

/-- The terms of a lease cite a run of an authorization. -/
def citesAuthorization (l : RouteLease) (a : Authorization) (run : RenewalRun) : Bool :=
  match l.renewal with
  | some r => r.authorizationId = run.authorizationId ∧ r.sequence = run.sequence ∧
      r.authorizationTermsSha256 = a.termsSha256
  | none => false

/-- The condition of the trigger `consume_renewal_authority`. -/
def authorityCovers (tx : Tx) (xid : Nat) (a : Authorization) (l : RouteLease) (cw : CoopWindow)
    (run : RenewalRun) : Bool :=
  a.state = .active ∧ tx.wall 0 < a.expiresAt ∧ l.state = .active ∧ l.writerXid = xid ∧
    (∃ ends ∈ l.endsMs, ends ≤ epochMs a.expiresAt) ∧ run.sequence = a.windowsUsed + 1 ∧
    a.poolId = cw.poolId ∧ a.groupKey = cw.groupKey ∧ run.source = cw.source ∧
    run.committed = l.budget ∧ citesAuthorization l a run ∧
    l.terms.cooperative.map (·.policySha256) = some a.policySha256

/-- An authorization after one more window of a cost: it stays active only while one more window
fits into its count and into one of its limits. -/
def Authorization.consume (a : Authorization) (source : FundSource) (cost : Int) :
    Authorization :=
  let working := a.workingCommitted + if source = .working then cost else 0
  let reserve := a.reserveCommitted + if source = .reserve then cost else 0
  { a with
    windowsUsed := a.windowsUsed + 1
    workingCommitted := working
    reserveCommitted := reserve
    state :=
      if a.maximumWindows ≤ a.windowsUsed + 1 ∨
          (a.maximumWorking - working < cost ∧ a.maximumReserve - reserve < cost) then .exhausted
      else .active }

/-- The checks of `cooperative_renewal_authorizations` on the columns that change. -/
def Authorization.Valid (a : Authorization) : Prop :=
  a.windowsUsed ≤ a.maximumWindows ∧
    (0 ≤ a.workingCommitted ∧ a.workingCommitted ≤ a.maximumWorking) ∧
    (0 ≤ a.reserveCommitted ∧ a.reserveCommitted ≤ a.maximumReserve)

instance Authorization.decidableValid (a : Authorization) : Decidable a.Valid :=
  inferInstanceAs (Decidable (_ ∧ _))

/-- An expansion still has the operating support that its authorization and terms cite. -/
def supportCovers (db : Db) (a : Authorization) (l : RouteLease) : Bool :=
  match a.operatingSupportId, (l.terms.cooperative.bind (·.expansion)).bind (·.view.support) with
  | some id, some cited =>
    match db.supports.find? id with
    | some os => os.poolId = a.poolId ∧ os.policySha256 = a.policySha256 ∧ os.revokedAt = none ∧
        (∃ u ∈ db.registry.users.find? os.createdBy, u.disabled = false) ∧
        (∃ ends ∈ l.endsMs, ofMs ends ≤ os.expiresAt) ∧ cited.id = id ∧
        cited.termsSha256 = os.termsSha256
    | none => false
  | _, _ => false

/-- Insert a row into `cooperative_renewal_runs`, with its keys and the triggers
`match_authority_kind` and `consume_renewal_authority`. -/
def consumeRenewalAuthority (tx : Tx) (db : Db) (leaseId : LeaseId) (run : RenewalRun) :
    Except Failure Db := do
  let a ← reference (db.authorizations.find? run.authorizationId)
    "cooperative_renewal_runs_authorization_id_fkey"
  let l ← reference (db.routeLeases.find? leaseId) "cooperative_windows_lease_id_fkey"
  let cw ← reference (db.windows.find? leaseId) "cooperative_renewal_runs_lease_id_fkey"
  constraint (a.kind = cw.kind ∧ a.kind = a.terms.kind) "fund authority cannot cross coverage kinds"
  constraint (cw.kind = .expansion → supportCovers db a l)
    "expansion lacks its current operating support"
  constraint (0 < run.sequence ∧ 0 < run.committed) "cooperative_renewal_runs_check"
  constraint (∀ r ∈ db.runs.rows, r.2.authorizationId = run.authorizationId →
    r.2.sequence ≠ run.sequence) "cooperative_renewal_runs_authorization_id_sequence_key"
  constraint (authorityCovers tx db.xid a l cw run)
    "renewal exceeds or does not match its current authority"
  let consumed := a.consume run.source l.budget
  constraint consumed.Valid "cooperative_renewal_authorizations_check"
  let runs ← reference (db.runs.insert? leaseId run) "cooperative_renewal_runs_pkey"
  return { db with runs, authorizations := db.authorizations.set run.authorizationId consumed }

/-- The terms of a lease cite a mandate among the grants of their renewal. -/
def citesMandate (l : RouteLease) (m : Mandate) (id : MandateId) : Bool :=
  match l.renewal with
  | some r => ∃ g ∈ r.providerMandates, g.id = id ∧ g.providerId = m.providerId ∧
      g.termsSha256 = m.termsSha256
  | none => false

/-- The condition of the trigger `consume_provider_mandate`. -/
def mandateCovers (tx : Tx) (m : Mandate) (l : RouteLease) (provider : UserId)
    (usage : MandateUsage) : Bool :=
  m.state = .active ∧ tx.wall 0 < m.expiresAt ∧
    (∃ ends ∈ l.endsMs, ends ≤ epochMs m.expiresAt) ∧ m.providerId = provider ∧
    m.termsSha256 = usage.termsSha256 ∧ m.routeId = l.routeId ∧ m.routeSha256 = l.routeSha256 ∧
    l.terms.cooperative.map (·.poolId) = some m.poolId ∧
    l.terms.cooperative.map (·.policySha256) = some m.policySha256 ∧
    (∃ am ∈ l.members, am.providerId = m.providerId) ∧ citesMandate l m usage.mandateId ∧
    ∃ ac ∈ l.acceptances, ac.providerId = m.providerId ∧
      ac.mandateId = some usage.mandateId ∧ ac.termsSha256 = l.termsSha256

/-- A mandate after one more window. -/
def Mandate.consume (m : Mandate) : Mandate :=
  { m with
    windowsUsed := m.windowsUsed + 1
    state := if m.maximumWindows ≤ m.windowsUsed + 1 then .exhausted else .active }

/-- Insert a row into `cooperative_mandate_usages`, with its keys and the triggers
`match_mandate_kind` and `consume_provider_mandate`. -/
def consumeProviderMandate (tx : Tx) (db : Db) (leaseId : LeaseId) (provider : UserId)
    (usage : MandateUsage) : Except Failure Db := do
  let m ← reference (db.mandates.find? usage.mandateId)
    "cooperative_mandate_usages_mandate_id_fkey"
  let l ← reference (db.routeLeases.find? leaseId) "cooperative_windows_lease_id_fkey"
  let w ← reference (db.windows.find? leaseId) "cooperative_renewal_runs_lease_id_fkey"
  constraint ((db.runs.find? leaseId).isSome) "cooperative_mandate_usages_lease_id_fkey"
  constraint (m.kind = w.kind ∧ m.kind = m.terms.kind)
    "provider mandate cannot cross coverage kinds"
  constraint (mandateCovers tx m l provider usage)
    "provider mandate does not cover this accepted window"
  constraint (m.windowsUsed + 1 ≤ m.maximumWindows) "cooperative_provider_mandates_check"
  let usages ← reference (db.usages.insert? (leaseId, provider) usage)
    "cooperative_mandate_usages_pkey"
  return { db with usages, mandates := db.mandates.set usage.mandateId m.consume }

/-! ### The demand that an expansion consumes -/

/-- The essential floor as the trigger computes it. -/
def triggerFloor (tx : Tx) (db : Db) (pool : PoolId) (p : Pool) : Int :=
  max 0 ((p.groups.map (·.rate)).sum * 21600 - ((poolWindows db pool).map fun w =>
    if w.2.1.kind = .essential ∧ w.2.2.state.funded ∧
        ((∃ ends ∈ w.2.2.endsMs, tx.now < ofMs ends) ∨
          (w.2.2.state = .offered ∧ tx.now < w.2.2.offerExpiresAt)) then
      w.2.2.budget - w.2.2.paid
    else 0).sum)

/-- The evidence names the session, party and affiliation it consumes, with all gates open. -/
def evidenceMatches (env : Env) (l : RouteLease) (e : ExpansionDemand) (hold : Int) : Bool :=
  (l.terms.cooperative.bind (·.expansion)) = some e.evidence ∧
    e.evidenceSha256 = env.digest e.evidence.toJs ∧ e.evidence.sessionId = e.sessionId ∧
    e.evidence.partyId = e.consumerPartyId ∧ e.evidence.affiliationId = e.affiliationId ∧
    e.evidence.hold = hold ∧ e.evidence.view.gates.blockedBy = []

/-- Every actor of the group has a party in force, and none of them is the consumer's. -/
def actorsDiffer (tx : Tx) (db : Db) (p : Pool) (groupKey : String) (party : PartyId) : Bool :=
  (groupActors db p groupKey).all fun actor =>
    (db.affiliations.rows.any fun pa => pa.2.userId = actor ∧ pa.2.revokedAt = none ∧
      pa.2.createdAt ≤ tx.wall 3 ∧ tx.wall 3 < pa.2.expiresAt) ∧
    db.affiliations.rows.all fun pa => ¬ (pa.2.userId = actor ∧ pa.2.revokedAt = none ∧
      pa.2.createdAt ≤ tx.wall 3 ∧ tx.wall 3 < pa.2.expiresAt ∧ pa.2.partyId = party)

/-- The queued session that an expansion consumes is still funded demand of the pool. -/
def demandCurrent (tx : Tx) (db : Db) (id : SessionId) (s : Session) (w : CoopWindow) (p : Pool) :
    Bool :=
  s.state = .queued ∧ s.billingState = .held ∧ 0 < s.hold ∧ s.cooperativePoolId = some w.poolId ∧
    (p.groups.any fun g => g.key = w.groupKey ∧ s.modelId = g.modelId) ∧
    s.createdAt ≤ tx.wall 4 - seconds 10 ∧ tx.wall 5 + seconds 10 < s.queueDeadline ∧
    s.cooperativePolicySha256 = some p.policySha256 ∧
    (∃ m ∈ db.registry.models.find? s.modelId,
      m.manifestSha256 = s.manifestSha256 ∧ m.state = .localPreview) ∧
    (∃ u ∈ db.registry.users.find? s.userId, u.disabled = false) ∧ holdPosted db id s

/-- The pool of an expansion is healthy: reserve and floor are kept, and the last day was sampled
continuously. -/
def poolHealthy (tx : Tx) (db : Db) (id : PoolId) (p : Pool) : Bool :=
  (p.groups.map (·.rate)).sum * 259200 ≤ db.books.balance (.coopReserve id) ∧
    triggerFloor tx db id p ≤ db.books.balance (.coopWorking id) ∧ p.paused = false ∧
    (∃ since ∈ p.healthySince, since ≤ tx.wall 6 - seconds 86400) ∧
    (∃ sample ∈ p.sampleAt, tx.wall 7 - seconds 6 ≤ sample)

/-- Insert a row into `cooperative_expansion_demand`, with its keys and the trigger
`validate_expansion_demand`. -/
def validateExpansionDemand (env : Env) (tx : Tx) (db : Db) (leaseId : LeaseId)
    (e : ExpansionDemand) : Except Failure Db := do
  let l ← reference (db.routeLeases.find? leaseId) "cooperative_expansion_demand_lease_id_fkey"
  let w ← reference (db.windows.find? leaseId) "cooperative_expansion_demand_lease_id_fkey"
  let s ← reference (db.sessions.find? e.sessionId) "cooperative_expansion_demand_session_id_fkey"
  let a ← reference (db.affiliations.find? e.affiliationId)
    "cooperative_expansion_demand_affiliation_id_fkey"
  let p ← reference (db.pools.find? w.poolId) "cooperative_windows_pool_id_fkey"
  constraint (w.kind = .expansion ∧ l.state = .active ∧ l.writerXid = db.xid ∧
      demandCurrent tx db e.sessionId s w p ∧ a.userId = s.userId ∧
      a.partyId = e.consumerPartyId ∧ a.revokedAt = none ∧ tx.wall 8 < a.expiresAt ∧
      evidenceMatches env l e s.hold ∧ p.policy.expansion = expansionPermission ∧
      actorsDiffer tx db p w.groupKey a.partyId ∧ poolHealthy tx db w.poolId p)
    "expansion must atomically consume current funded demand and qualified private evidence"
  constraint ((db.runs.find? leaseId).isSome) "cooperative_expansion_demand_lease_id_fkey"
  constraint (∀ d ∈ db.demands.rows, d.2.sessionId ≠ e.sessionId)
    "cooperative_expansion_demand_session_id_key"
  let demands ← reference (db.demands.insert? leaseId e) "cooperative_expansion_demand_pkey"
  return { db with demands }

/-! ### One renewal -/

/-- `note`: an attempt leaves its status at the authorization. -/
def note (tx : Tx) (db : Db) (id : AuthorizationId) (status : RenewalStatus) : Db :=
  { db with authorizations := db.authorizations.modify id fun a =>
      { a with lastStatus := status, lastAttemptAt := some (tx.wall 9) } }

/-- Close an authorization. -/
def closeAuthorization (db : Db) (id : AuthorizationId) (state : AuthorityState) : Db :=
  { db with authorizations := db.authorizations.modify id fun a => { a with state } }

/-- The distinct providers of a route. -/
def routeProviders (db : Db) (route : RouteId) : List UserId :=
  match db.registry.routes.find? route with
  | some r => (r.members.map (·.providerId)).dedup.insertionSort (· ≤ ·)
  | none => []

/-- A mandate can cover one more window of a route in a pool. -/
def mandateUsable (m : Mandate) (pool : PoolId) (p : Pool) (r : CoopRoute) (kind : CoverageKind)
    (earliestEnd : Int) : Bool :=
  m.poolId = pool ∧ m.routeId = r.routeId ∧ m.routeSha256 = r.routeSha256 ∧
    m.policySha256 = p.policySha256 ∧ m.state = .active ∧ m.windowsUsed < m.maximumWindows ∧
    ofMs earliestEnd < m.expiresAt ∧ m.kind = kind

/-- The usable mandates of the providers of a route. -/
def usableMandates (db : Db) (pool : PoolId) (p : Pool) (r : CoopRoute) (kind : CoverageKind)
    (earliestEnd : Int) : List (MandateId × Mandate) :=
  (db.mandates.rows.filter fun m => mandateUsable m.2 pool p r kind earliestEnd ∧
    m.2.providerId ∈ routeProviders db r.routeId).insertionSort fun a b => a.1 ≤ b.1

/-- The first candidate route whose providers all have a usable mandate. -/
def chooseRoute (db : Db) (pool : PoolId) (p : Pool) (kind : CoverageKind) (earliestEnd : Int) :
    List CoopRoute → Option (CoopRoute × List (MandateId × Mandate))
  | [] => none
  | r :: rs =>
    let ms := usableMandates db pool p r kind earliestEnd
    if ms.length = (routeProviders db r.routeId).length then some (r, ms)
    else chooseRoute db pool p kind earliestEnd rs

/-- The source of a renewal: working capital if it can pay and is authorized, the reserve only
if working capital cannot pay. -/
def renewalSource (s : Snapshot) (cost workingLimit reserveLimit : Int) : Option FundSource :=
  if cost ≤ s.working ∧ cost ≤ workingLimit then some .working
  else if s.working < cost ∧ cost ≤ s.reserve ∧ cost ≤ reserveLimit then some .reserve
  else none

/-- The evidence that freezes the first waiting demand of an expansion, which must still be
queued with its hold. -/
def selectDemand (tx : Tx) (db : Db) (expansion : Option ExpansionFacts) :
    Except Failure (Option (WaitingDemand × ExpansionEvidence)) :=
  match expansion.bind fun facts => facts.demand.head?.map fun selected => (facts, selected) with
  | none => return none
  | some (facts, selected) => do
    let held ← needRow (db.sessions.find? selected.sessionId) 409 "demand_changed"
      "A demanda mudou antes da reserva de expansão."
    need (held.state = .queued ∧ held.billingState = .held ∧
        tx.wall 10 + seconds 10 < held.queueDeadline) 409 "demand_changed"
      "A demanda mudou antes da reserva de expansão."
    return some (selected, { view := facts.view, sessionId := selected.sessionId
                             partyId := selected.partyId, affiliationId := selected.affiliationId
                             hold := held.hold })

/-- Record the demand that an expansion consumes. -/
def recordDemand (env : Env) (tx : Tx) (db : Db) (leaseId : LeaseId)
    (evidence : Option (WaitingDemand × ExpansionEvidence)) : Except Failure Db :=
  match evidence with
  | none => return db
  | some e =>
    validateExpansionDemand env tx db leaseId
      { sessionId := e.1.sessionId, consumerPartyId := e.1.partyId
        affiliationId := e.1.affiliationId, evidence := e.2
        evidenceSha256 := env.digest e.2.toJs, createdAt := tx.wall 11 }

/-- The renewal that the terms of a new window cite. -/
def renewalTerms (id : AuthorizationId) (a : Authorization)
    (mandates : List (MandateId × Mandate)) : RenewalTerms where
  authorizationId := id
  authorizationTermsSha256 := a.termsSha256
  sequence := a.windowsUsed + 1
  providerMandates := mandates.map fun m => ⟨m.1, m.2.providerId, m.2.termsSha256⟩

/-- The request for the window of a renewal. -/
def renewalRequest (tx : Tx) (id : AuthorizationId) (a : Authorization) (g : CoopGroup)
    (source : FundSource) : WindowRequest where
  groupKey := g.key
  source := source
  reason := "Bounded " ++ a.kind.text.toLower ++ " renewal " ++ uuidText id ++
    "; fixed policy and gross commitment limits."
  idempotencyKey := tx.uuid 0

/-- The window of a renewal: offered to the pool's creator, accepted for every mandate, with the
run and the usages that consume the two authorities, and the deferred triggers of these rows. -/
def openRenewal (env : Env) (tx : Tx) (db : Db) (id : AuthorizationId) (a : Authorization)
    (p : Pool) (g : CoopGroup) (source : FundSource) (r : CoopRoute)
    (mandates : List (MandateId × Mandate))
    (evidence : Option (WaitingDemand × ExpansionEvidence)) : Except Failure Db := do
  let creator ← reference (db.registry.users.find? p.creatorId) "cooperative_pools_creator_id_fkey"
  let (leaseId, db) ← offerWindowTransaction env (tx.call 2) db ⟨p.creatorId, creator.role⟩
    a.poolId (renewalRequest tx id a g source)
    { eligibleRoutes := some [r.routeId], renewal := some (renewalTerms id a mandates)
      expansion := evidence.map Prod.snd }
  let lease ← reference (db.routeLeases.find? leaseId) "route_availability_leases_pkey"
  let db ← mandates.zipIdx.foldlM (fun db m =>
    acceptRouteTransaction (tx.call (3 + m.2)) db m.1.2.providerId leaseId lease.termsSha256
      (some m.1.1)) db
  let db ← consumeRenewalAuthority tx db leaseId
    { authorizationId := id, sequence := a.windowsUsed + 1, source, committed := g.cost }
  let db ← mandates.zipIdx.foldlM (fun db m =>
    consumeProviderMandate (tx.call (20 + m.2)) db leaseId m.1.2.providerId
      ⟨m.1.1, m.1.2.termsSha256⟩) db
  let db ← recordDemand env tx db leaseId evidence
  constraint (∀ am ∈ lease.members, (db.usages.find? (leaseId, am.providerId)).isSome)
    "renewal lacks a consumed mandate for every provider"
  constraint (∀ w ∈ db.windows.find? leaseId, w.kind = .expansion →
    (db.demands.find? leaseId).isSome)
    "expansion cannot commit without one consumed demand record"
  return note tx db id .renewed

/-- The part of `attempt` that chooses the route and its mandates. -/
def attemptRoute (env : Env) (tx : Tx) (db : Db) (id : AuthorizationId) (a : Authorization)
    (p : Pool) (g : CoopGroup) (source : FundSource) (earliestEnd : Int)
    (expansion : Option ExpansionFacts) : Except Failure Db := do
  let candidates := (freeRoutes tx db g (expansion.map (·.candidates))).insertionSort
    fun r s => routeTurn db a.poolId r s
  if candidates = [] then return note tx db id .waitingForCapacity
  else
    match chooseRoute db a.poolId p a.kind earliestEnd candidates with
    | none => return note tx db id .waitingForOperators
    | some (r, mandates) =>
      let evidence ← selectDemand tx db expansion
      openRenewal env tx db id a p g source r mandates evidence

/-- The facts that an expansion is judged by. -/
def attemptFacts (tx : Tx) (db : Db) (a : Authorization) (p : Pool) (g : CoopGroup)
    (snap : Snapshot) : Option ExpansionFacts :=
  if a.kind = .expansion then
    some (expansionFacts (tx.call 1) db a.poolId p g snap a.operatingSupportId)
  else none

/-- The part of `attempt` that chooses the source of funds. -/
def attemptFunds (env : Env) (tx : Tx) (db : Db) (id : AuthorizationId) (a : Authorization)
    (p : Pool) (g : CoopGroup) (earliestEnd : Int) : Except Failure Db := do
  let workingLimit := a.maximumWorking - a.workingCommitted
  let reserveLimit := a.maximumReserve - a.reserveCommitted
  if a.maximumWindows ≤ a.windowsUsed ∨ (workingLimit < g.cost ∧ reserveLimit < g.cost) then
    return note tx (closeAuthorization db id .exhausted) id .exhausted
  else
    let snap := cooperativeSnapshot (tx.call 0) db a.poolId p
    let expansion := attemptFacts tx db a p g snap
    match expansion.bind fun f => f.view.gates.blockedBy.head? with
    | some gate => return note tx db id (.blocked gate)
    | none =>
      match renewalSource snap g.cost workingLimit reserveLimit with
      | some source => attemptRoute env tx db id a p g source earliestEnd expansion
      | none =>
        if g.cost ≤ snap.working ∨ g.cost ≤ snap.reserve then
          return note tx db id .waitingForAuthorizedSource
        else return note tx db id .waitingForFunds

/-- The part of `attempt` for an authorization that is active and has not expired. -/
def attemptActive (env : Env) (tx : Tx) (db : Db) (id : AuthorizationId) (a : Authorization)
    (p : Pool) : Except Failure Db := do
  if p.paused then return note tx db id .paused
  else if [p.creatorId, a.authorizedBy].any fun u =>
      ((db.registry.users.find? u).map (·.disabled)).getD false then
    return note tx db id .authorizerDisabled
  else
    need (a.policySha256 = p.policySha256) 409 "pool_terms"
      "A autorização não corresponde à política vigente."
    let g ← reference (p.groups.find? fun g => g.key = a.groupKey)
      "cooperative_renewal_authorizations_pool_id_fkey"
    let earliestEnd := tx.date 1 + (g.durationSeconds + 10) * 1000
    if min (toMs a.expiresAt) (toMs p.supportUntil) ≤ earliestEnd then
      return note tx db id .waitingForSupport
    else if groupCommitted db a.poolId g.key a.kind then
      return note tx db id .waitingForWindow
    else attemptFunds env tx db id a p g earliestEnd

/-- `Renewals.attempt`. -/
def attempt (env : Env) (tx : Tx) (db : Db) (id : AuthorizationId) : Except Failure Db := do
  match db.authorizations.find? id with
  | none => return db
  | some a =>
    let p ← needRow (db.pools.find? a.poolId) 404 "pool_missing"
      "Fundo cooperativo não encontrado."
    if a.state ≠ .active then return db
    else if toMs a.expiresAt ≤ tx.date 0 then
      return note tx (closeAuthorization db id .expired) id .expired
    else attemptActive env tx db id a p

/-- The end of a failed attempt in `Renewals.reconcile`. -/
def retryPending (tx : Tx) (db : Db) (id : AuthorizationId) : Except Failure Db := do
  match db.authorizations.find? id with
  | none => throw (.database "cooperative_renewal_authorizations_pkey")
  | some a =>
    let _ ← needRow (db.pools.find? a.poolId) 404 "pool_missing"
      "Fundo cooperativo não encontrado."
    if a.state ≠ .active then return db else return note tx db id .retryPending

end NetworkAi
