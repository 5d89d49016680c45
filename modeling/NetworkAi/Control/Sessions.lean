import NetworkAi.Control.Cooperative

set_option relaxedAutoImplicit false
set_option autoImplicit false

/-!
# Inference sessions

The operations of `sessions.ts` with the capacity quota of `capacity.ts`: a session is created
with its maximum price held, admitted to a ready node or to every node of a complete route,
authorized, claimed, reported by receipts, and finalized exactly once, which splits the hold into
a charge and a refund.

## Main definitions

* `NetworkAi.createSession`, `NetworkAi.admitSession`, `NetworkAi.authorize`, `NetworkAi.claim`,
  `NetworkAi.stageClaim`, `NetworkAi.stageReceipt`, `NetworkAi.receipt`, `NetworkAi.cancel`,
  `NetworkAi.fail`, `NetworkAi.reap` — the entry points.
* `NetworkAi.finalize`, `NetworkAi.settleRoute` — what the entry points end in.
* `NetworkAi.occupancy` — the view `active_session_domains`, counted by domain.
* `NetworkAi.capacity` — the quota of an account.

## Implementation notes

A function that the source hands a row it read at the start of the transaction gets the row as
the transaction has left it; the fields it reads are the same in both. The capabilities that a
reply carries are signatures over fields of the session and have no counterpart.
-/

namespace NetworkAi

open Relational

/-! ### Occupied domains and the quota -/

/-- The states of a session that occupies its domains. -/
def SessionState.occupies : SessionState → Bool
  | .preparing | .authorized | .running | .cancelling => true
  | _ => false

/-- A session occupies a domain: a row of `active_session_domains`. -/
def Session.occupiesDomain (s : Session) (d : DomainId) : Bool :=
  s.state.occupies ∧ (s.resourceDomainId = some d ∨ d ∈ s.domains)

/-- `SELECT count(*) FROM active_session_domains WHERE resource_domain_id = d`. -/
def occupancy (db : Db) (d : DomainId) : Nat :=
  (db.sessions.rows.filter fun s => s.2.occupiesDomain d).length

/-- The least number of free slots in a set of domains. Every offer has at least one domain. -/
def fit (remaining : DomainId → Int) : List DomainId → Int
  | [] => 0
  | [d] => remaining d
  | d :: ds => min (remaining d) (fit remaining ds)

/-- The loop of `pack`: place as many sessions as fit on each offer in turn. -/
def packOffers (remaining : DomainId → Int) : List (List DomainId) → Int
  | [] => 0
  | domains :: offers =>
    let n := fit remaining domains
    if 0 < n then
      n + packOffers (fun d => if d ∈ domains then remaining d - n else remaining d) offers
    else packOffers remaining offers

/-- `pack`: the sessions that fit on the offers of a model, beside those that occupy slots. -/
def pack (tx : Tx) (db : Db) (model : String) (occupied : Bool) : Int :=
  let offers := ((db.registry.readyOffers tx.now).filter fun o => o.modelId = model).insertionSort
    fun a b => a.key.le b.key
  packOffers (fun d =>
    match db.registry.domains.find? d with
    | some row => max 0 ((row.slots : Int) - if occupied then (occupancy db d : Int) else 0)
    | none => 0) (offers.map (·.domainIds))

/-- `capacity`: the temporary limit of an account, and its active sessions of the model. -/
def capacity (tx : Tx) (db : Db) (model : String) (user : UserId) : Nat × Nat :=
  let waitingOthers := ((db.sessions.rows.filter fun s => s.2.modelId = model ∧
    s.2.userId ≠ user ∧ s.2.state = .queued ∧ tx.now < s.2.queueDeadline).map
      (·.2.userId)).dedup.length
  let activeForAccount := (db.sessions.rows.filter fun s => s.2.modelId = model ∧
    s.2.userId = user ∧ s.2.state.terminal = false).length
  let slots := pack tx db model false
  let spare := pack tx db model true
  (if 0 < waitingOthers ∨ slots = 0 then 1 else if spare = 0 then 2 else 4, activeForAccount)

/-! ### Writing a session -/

/-- A session has the cooperative context of its quote. -/
def quoteMatches (db : Db) (s : Session) : Bool :=
  match db.quotes.find? s.quoteId with
  | some q => q.cooperativePoolId = s.cooperativePoolId ∧
      q.cooperativePolicySha256 = s.cooperativePolicySha256
  | none => false

/-- The coverage of a session is a window of its pool on its route. -/
def coverageMatches (db : Db) (s : Session) : Bool :=
  match s.coverageLeaseId with
  | none => true
  | some lease =>
    match db.windows.find? lease, db.routeLeases.find? lease with
    | some cw, some l => some cw.poolId = s.cooperativePoolId ∧ some l.routeId = s.routeId ∧
        some l.termsSha256 = s.coverageTermsSha256
    | _, _ => false

/-- The condition of the trigger `check_cooperative_session`. -/
def checkCooperativeSession (db : Db) (s : Session) : Bool :=
  quoteMatches db s && coverageMatches db s

/-- The checks of `sessions` and its children on the columns that change. -/
def Session.Valid (s : Session) : Prop :=
  (0 ≤ s.hold ∧ 0 ≤ s.charged ∧ s.charged ≤ s.hold) ∧ s.domains.Nodup ∧
    ((s.participants.map (·.nodeId)).Nodup ∧ (s.participants.map (·.ordinal)).Nodup) ∧
    ∀ p ∈ s.participants, 0 ≤ p.paid

instance Session.decidableValid (s : Session) : Decidable s.Valid :=
  inferInstanceAs (Decidable (_ ∧ _))

/-- Update a session with its children. -/
def Db.updateSession (db : Db) (id : SessionId) (s : Session) : Except Failure Db := do
  constraint s.Valid "sessions_check"
  constraint (checkCooperativeSession db s) "session cooperation must match its quote"
  return { db with sessions := db.sessions.set id s }

/-! ### Creation -/

/-- The request of `Sessions.create`. -/
structure CreateRequest where
  quoteId : QuoteId
  idempotencyKey : String
  requestSha256 : String
  requestBytes : Nat
  model : String
  maxTokens : Nat
  contentBytes : Nat
  messageCount : Nat
  deriving DecidableEq, Repr

/-- The bounds of the request's schema. -/
def CreateRequest.Valid (d : CreateRequest) : Prop :=
  (1 ≤ d.requestBytes ∧ d.requestBytes ≤ 131072) ∧ isPositiveInt d.maxTokens ∧
    d.contentBytes ≤ 65536 ∧ (1 ≤ d.messageCount ∧ d.messageCount ≤ 64)

instance CreateRequest.decidableValid (d : CreateRequest) : Decidable d.Valid :=
  inferInstanceAs (Decidable (_ ∧ _))

/-- The row of a new session. -/
def newSession (tx : Tx) (user : UserId) (d : CreateRequest) (quote : Quote) : Session where
  userId := user
  quoteId := d.quoteId
  modelId := d.model
  manifestSha256 := quote.manifestSha256
  idempotencyKey := d.idempotencyKey
  requestSha256 := d.requestSha256
  requestBytes := d.requestBytes
  state := .queued
  billingState := .held
  hold := quote.maximum
  charged := 0
  nodeId := none
  resourceDomainId := none
  attemptId := none
  nodeEpoch := none
  prepareId := none
  queueDeadline := tx.now + seconds 120
  executionDeadline := none
  errorCode := none
  promptTokens := none
  completionTokens := none
  elapsedMs := none
  createdAt := tx.now
  startedAt := none
  finishedAt := none
  routeId := none
  routeSha256 := none
  cooperativePoolId := quote.cooperativePoolId
  cooperativePolicySha256 := quote.cooperativePolicySha256
  coverageLeaseId := none
  coverageTermsSha256 := none
  domains := []
  participants := []
  receipt := none

/-- Hold the maximum price of a new session and insert its row. -/
def insertSession (env : Env) (tx : Tx) (db : Db) (id : SessionId) (s : Session) :
    Except Failure Db := do
  let (_, db) ←
    if 0 < s.hold then
      db.post env (tx.uuid 1) (.hold id) (tx.posting .reserve)
        [(.available s.userId, -s.hold), (.held s.userId, s.hold)]
    else pure (0, db)
  constraint s.Valid "sessions_check"
  constraint (checkCooperativeSession db s) "session cooperation must match its quote"
  let sessions ← reference (db.sessions.insert? id s) "sessions_pkey"
  return { db with sessions }

/-- The part of `create` past the idempotency check. -/
def createNewSession (env : Env) (tx : Tx) (db : Db) (user : Actor) (d : CreateRequest) :
    Except Failure (SessionId × Db) := do
  let quote ← needRow (db.quotes.find? d.quoteId) 409 "quote_expired"
    "A cotação expirou ou o modelo foi desabilitado."
  let row ← needRow (db.registry.models.find? quote.modelId) 409 "quote_expired"
    "A cotação expirou ou o modelo foi desabilitado."
  need (quote.userId = user.id ∧ tx.now < quote.expiresAt ∧ row.state = .localPreview) 409
    "quote_expired" "A cotação expirou ou o modelo foi desabilitado."
  need (quote.modelId = d.model ∧ quote.maxOutputTokens = d.maxTokens) 409 "quote_mismatch"
    "A solicitação difere da cotação."
  let model := quote.manifest
  need (d.contentBytes ≤ model.maxInputBytes) 413 "input_limit"
    "A conversa excedeu o limite de entrada deste modelo."
  need (d.contentBytes + d.messageCount * 64 + d.maxTokens ≤ model.maxContextTokens) 413
    "context_limit" "Reduza a conversa ou o limite de saída."
  need ((db.sessions.rows.filter fun s =>
      s.2.userId = user.id ∧ s.2.state.terminal = false).length < 4) 429 "session_limit"
    "Você já tem quatro sessões em andamento."
  let quota := capacity tx db d.model user.id
  need (quota.2 < quota.1) 429 "elastic_session_limit"
    ("A cota temporária deste modelo é de " ++ toString quota.1 ++
      " sessão(ões) por conta. As sessões já aceitas continuam.")
  let id := tx.uuid 0
  let db ← insertSession env tx db id (newSession tx user.id d quote)
  return (id, db)

/-- `Sessions.create`, with the identifier of the session. -/
def createSession (env : Env) (tx : Tx) (db : Db) (user : Actor) (d : CreateRequest) :
    Except Failure (SessionId × Db) := do
  parse d.Valid
  match db.sessions.rows.find? fun s =>
      s.2.userId = user.id ∧ s.2.idempotencyKey = d.idempotencyKey with
  | some existing =>
    need (existing.2.requestSha256 = d.requestSha256) 409 "idempotency_conflict"
      "Esta chave já foi usada com outra solicitação."
    return (existing.1, db)
  | none => createNewSession env tx db user d

/-! ### The end of a session -/

/-- Pay the participants of a route. -/
def payParticipants (participants : List SessionParticipant) (payments : List Int) :
    List SessionParticipant :=
  participants.zipWith (fun p n => { p with paid := n }) payments

/-- What a positive charge is split into: the entries beside those of the consumer, and the
session and database with the parts recorded. -/
def splitCharge (tx : Tx) (db : Db) (id : SessionId) (s : Session) (charge : Int) :
    Except Failure (List (AccountId × Int) × Session × Db) := do
  if charge ≤ 0 then
    return ([], s, db)
  else if s.cooperativePoolId.isSome then
    let (entries, db) ← recycleSettlement tx db id s charge
    return (entries, s, db)
  else
    let fee := charge * 2000 / 10000
    if s.routeId.isSome then
      let payments ← splitByBps (charge - fee) (s.participants.map (·.shareBps))
      let participants := payParticipants s.participants payments
      return (participants.map (fun p => (.available p.providerId, p.paid)) ++
        [(.labWorking, fee)], { s with participants }, db)
    else
      let nodeId ← reference s.nodeId "sessions_node_id"
      let node ← reference (db.registry.nodes.find? nodeId) "sessions_node_id_fkey"
      return ([(.available node.ownerId, charge - fee), (.labWorking, fee)], s, db)

/-- The entries of a settlement: the hold leaves the held account, what is not charged returns. -/
def holdEntries (s : Session) (charge : Int) : List (AccountId × Int) :=
  [(.held s.userId, -s.hold), (.available s.userId, s.hold - charge)]

/-- The row of a finalized session. -/
def Session.finished (s : Session) (tx : Tx) (state : ReceiptState) (charge : Int)
    (error : Option String) (billing : Option BillingState) : Session :=
  { s with
    state := state.toSession
    billingState := billing.getD (if 0 < charge then .settled else .refunded)
    charged := charge
    errorCode := error
    finishedAt := some tx.now }

/-- `Sessions.finalize`. -/
def finalize (env : Env) (tx : Tx) (db : Db) (id : SessionId) (s : Session) (state : ReceiptState)
    (charge : Int) (error : Option String) (billing : Option BillingState) :
    Except Failure Db := do
  if s.state.terminal then
    return db
  else
    need (0 ≤ charge ∧ charge ≤ s.hold) 500 "charge_limit" "Liquidação excedeu a reserva."
    let (entries, s, db) ← splitCharge tx db id s charge
    let (_, db) ←
      if 0 < s.hold then
        db.post env (tx.uuid 0) (.settle id)
          (tx.posting (if 0 < charge then .settle else .refund)) (holdEntries s charge ++ entries)
      else pure (0, db)
    db.updateSession id (s.finished tx state charge error billing)

/-! ### Admission -/

/-- An offer has a free slot in each of its domains. -/
def offerFree (db : Db) (o : Offer) : Bool :=
  o.domainIds.all fun d =>
    match db.registry.domains.find? d with
    | some row => occupancy db d < row.slots
    | none => true

/-- The offers a session can be admitted to now. -/
def admissible (tx : Tx) (db : Db) (s : Session) : List Offer :=
  (db.registry.readyOffers tx.now).filter fun o =>
    o.modelId = s.modelId ∧ cooperativeEligible tx db s o ∧ offerFree db o

/-- `ORDER BY u.last_admitted_at,s.created_at,s.id`; a user never admitted comes first. -/
def queueOrder (db : Db) (a b : SessionId × Session) : Bool :=
  let turn := fun (s : Session) => (db.registry.users.find? s.userId).bind (·.lastAdmittedAt)
  let later := fun (s t : Session) => s.createdAt < t.createdAt ∨
    (s.createdAt = t.createdAt ∧ a.1 ≤ b.1)
  match turn a.2, turn b.2 with
  | none, some _ => true
  | some _, none => false
  | none, none => later a.2 b.2
  | some s, some t => s < t ∨ (s = t ∧ later a.2 b.2)

/-- `ORDER BY o.last_seen DESC,o.offer_key`. -/
def offerOrder (a b : Offer) : Bool :=
  match a.lastSeen, b.lastSeen with
  | none, some _ => true
  | some _, none => false
  | none, none => a.key.le b.key
  | some s, some t => t < s ∨ (s = t ∧ a.key.le b.key)

/-- The session whose turn it is. -/
def nextSession (tx : Tx) (db : Db) : Option (SessionId × Session) :=
  firstBy (queueOrder db) (db.sessions.rows.filter fun s =>
    s.2.state = .queued ∧ tx.now < s.2.queueDeadline ∧ admissible tx db s.2 ≠ [])

/-- The reply of `admit`. -/
inductive AdmitReply where
  | finished (state : SessionState) (errorCode : Option String)
  | queued
  | preparing (attemptId : Nat)
  deriving DecidableEq, Repr

/-- The participant that `admit` freezes of a route's member. -/
def admitMember (db : Db) (m : RouteMember) : Except Failure SessionParticipant := do
  let n ← reference (db.registry.nodes.find? m.nodeId) "route_members_node_id_fkey"
  return { nodeId := m.nodeId, providerId := m.providerId
           resourceDomainId := m.resourceDomainId, ordinal := m.ordinal, role := m.role
           shareBps := m.shareBps, nodeEpoch := n.epoch, prepareId := none, claimedAt := none
           paid := 0, receipt := none }

/-- The members that an admission freezes: those of the offer's route. -/
def admitMembers (db : Db) (route : Option ExecutionRoute) :
    Except Failure (List SessionParticipant) :=
  match route with
  | some r => r.members.mapM (admitMember db)
  | none => return []

/-- The window that covers an admission, which a cooperative session must have. -/
def admitCoverage (tx : Tx) (db : Db) (s : Session) (o : Offer) :
    Except Failure (Option (LeaseId × RouteLease)) := do
  match s.cooperativePoolId with
  | none => return none
  | some pool =>
    let coverage ← needRow (coverageOf tx db pool o.routeId) 409 "coverage_ended"
      "A janela cooperativa terminou; solicite outra cotação."
    return some coverage

/-- The execution deadline of an admission, within its coverage. -/
def admitDeadline (tx : Tx) (coverage : Option (LeaseId × RouteLease)) : Int :=
  match coverage.bind (·.2.endsMs) with
  | some ends => min (tx.date 1 + 180000) ends
  | none => tx.date 1 + 180000

/-- The part of `admit` that takes the chosen offer. -/
def admitTo (tx : Tx) (db : Db) (id : SessionId) (s : Session) (o : Offer) :
    Except Failure (AdmitReply × Db) := do
  let node ← reference (db.registry.nodes.find? o.rootNodeId) "sessions_node_id_fkey"
  let route := o.routeId.bind db.registry.routes.find?
  let coverage ← admitCoverage tx db s o
  let members ← admitMembers db route
  let attempt := tx.uuid 0
  let db ← db.updateSession id { s with
    state := .preparing
    nodeId := some o.rootNodeId
    resourceDomainId := some node.resourceDomainId
    attemptId := some attempt
    nodeEpoch := some node.epoch
    executionDeadline := some (ofMs (admitDeadline tx coverage))
    routeId := route.bind fun _ => o.routeId
    routeSha256 := route.map (·.routeSha256)
    coverageLeaseId := coverage.map (·.1)
    coverageTermsSha256 := coverage.map (·.2.termsSha256)
    domains := s.domains ++ o.domainIds
    participants := s.participants ++ members }
  let users := db.registry.users.modify s.userId fun u =>
    { u with lastAdmittedAt := some tx.now }
  return (.preparing attempt, { db with registry := { db.registry with users } })

/-- `Sessions.admit`. -/
def admitSession (env : Env) (tx : Tx) (db : Db) (id : SessionId) :
    Except Failure (AdmitReply × Db) := do
  let s ← needRow (db.sessions.find? id) 404 "session_missing" "Sessão não encontrada."
  if s.state.terminal then
    return (.finished s.state s.errorCode, db)
  else if toMs s.queueDeadline < tx.date 0 ∧ s.state = .queued then
    let db ← finalize env tx db id s .interrupted 0 (some "queue_timeout") none
    return (.finished .interrupted (some "queue_timeout"), db)
  else
    need (s.state = .queued) 409 "admission_state" "Esta sessão já foi admitida."
    if (nextSession tx db).map Prod.fst ≠ some id then
      return (.queued, db)
    else
      match firstBy offerOrder (admissible tx db s) with
      | none => return (.queued, db)
      | some o => admitTo tx db id s o

/-! ### Authorization and claims -/

/-- What `currentParticipants` demands of one participant. -/
def participantCurrent (tx : Tx) (db : Db) (preparing : Bool) (p : SessionParticipant) :
    Except Failure Bool := do
  let n ← reference (db.registry.nodes.find? p.nodeId) "session_participants_node_id_fkey"
  let u ← reference (db.registry.users.find? p.providerId)
    "session_participants_provider_id_fkey"
  return p.nodeEpoch = n.epoch ∧ u.disabled = false ∧ n.ownerId = p.providerId ∧
    n.resourceDomainId = p.resourceDomainId ∧ n.desiredState ≠ .revoked ∧
    (preparing = false ∨ (n.state = .ready ∧ n.desiredState = .ready ∧
      ∃ seen ∈ n.lastSeen, tx.date (3 + p.ordinal) - 15000 < toMs seen))

/-- `currentParticipants`. -/
def currentParticipants (tx : Tx) (db : Db) (s : Session) (preparing : Bool) :
    Except Failure Unit := do
  let current ← s.participants.mapM (participantCurrent tx db preparing)
  need (2 ≤ s.participants.length ∧ ∀ c ∈ current, c = true) 409 "route_node_changed"
    "Uma etapa da rota mudou ou está indisponível."

/-- The stages of a session's route. -/
def Session.stages (s : Session) : List SessionParticipant :=
  s.participants.filter fun p => p.role = .stage

/-- The request of `Sessions.authorize`. -/
structure AuthorizeRequest where
  prepareId : String
  participants : Option (List (NodeId × String))
  deriving DecidableEq, Repr

/-- The prepare identifiers of a route's participants. -/
def prepareParticipants (d : AuthorizeRequest) (stages : List (NodeId × String))
    (participants : List SessionParticipant) : List SessionParticipant :=
  participants.map fun p => { p with
    prepareId := match p.role with
      | .root => some d.prepareId
      | .stage => (stages.find? fun v => v.1 = p.nodeId).map Prod.snd }

/-- The part of `authorize` that records the preparation of every participant. -/
def authorizeParticipants (tx : Tx) (db : Db) (s : Session) (d : AuthorizeRequest) :
    Except Failure (List SessionParticipant) := do
  if s.routeId.isSome then
    currentParticipants tx db s true
    let stages := d.participants.getD []
    need (d.participants.isSome ∧ stages.length = s.stages.length ∧
        (stages.map Prod.fst).dedup.length = s.stages.length ∧
        ∀ p ∈ s.stages, ∃ v ∈ stages, v.1 = p.nodeId) 409 "route_prepare_incomplete"
      "Todas as partes da rota precisam confirmar a preparação."
    return prepareParticipants d stages s.participants
  else
    need (d.participants = none) 400 "unexpected_stages"
      "Esta sessão não possui etapas distribuídas."
    return s.participants

/-- `Sessions.authorize`. -/
def authorize (tx : Tx) (db : Db) (id : SessionId) (d : AuthorizeRequest) :
    Except Failure Db := do
  parse (∀ stages ∈ d.participants, 1 ≤ stages.length ∧ stages.length ≤ 15)
  let s ← needRow (db.sessions.find? id) 409 "prepare_expired"
    "A preparação expirou ou foi cancelada."
  need (s.state = .preparing ∧ ∃ deadline ∈ s.executionDeadline, tx.date 0 < toMs deadline) 409
    "prepare_expired" "A preparação expirou ou foi cancelada."
  let node ← needRow (s.nodeId.bind db.registry.nodes.find?) 409 "node_changed"
    "O nó mudou durante a preparação."
  need (some node.epoch = s.nodeEpoch ∧ node.desiredState = .ready ∧
      ∃ seen ∈ node.lastSeen, tx.date 2 - 15000 < toMs seen) 409 "node_changed"
    "O nó mudou durante a preparação."
  let participants ← authorizeParticipants tx db s d
  db.updateSession id
    { s with state := .authorized, prepareId := some d.prepareId, participants }

/-- The request of `Sessions.claim` and of `Sessions.stageClaim`. -/
structure ClaimRequest where
  sessionId : SessionId
  attemptId : Nat
  epoch : Nat
  prepareId : String
  deriving DecidableEq, Repr

/-- Mark the participant on a node as claimed. -/
def claimParticipant (tx : Tx) (nodeId : NodeId) (participants : List SessionParticipant) :
    List SessionParticipant :=
  participants.map fun p => if p.nodeId = nodeId then { p with claimedAt := some tx.now } else p

/-- `Sessions.claim`. -/
def claim (tx : Tx) (db : Db) (nodeId : NodeId) (d : ClaimRequest) : Except Failure Db := do
  parse (isPositiveInt d.epoch)
  let s ← needRow (db.sessions.find? d.sessionId) 409 "claim_rejected"
    "Autorização expirada, consumida ou cancelada."
  if s.routeId.isSome then
    currentParticipants tx db s true
    need (∀ p ∈ s.stages, p.claimedAt ≠ none) 409 "route_unclaimed"
      "Todas as etapas precisam reservar sua execução antes do nó principal."
  let node ← needRow (db.registry.nodes.find? nodeId) 409 "claim_rejected"
    "Autorização expirada, consumida ou cancelada."
  need (s.nodeId = some nodeId ∧ s.attemptId = some d.attemptId ∧ s.nodeEpoch = some d.epoch ∧
      s.prepareId = some d.prepareId ∧ s.state = .authorized ∧
      (∃ deadline ∈ s.executionDeadline, tx.now < deadline) ∧ node.epoch = d.epoch ∧
      node.desiredState = .ready) 409 "claim_rejected"
    "Autorização expirada, consumida ou cancelada."
  db.updateSession d.sessionId { s with
    state := .running
    startedAt := some tx.now
    participants :=
      if s.routeId.isSome then claimParticipant tx nodeId s.participants else s.participants }

/-- `Sessions.stageClaim`. -/
def stageClaim (tx : Tx) (db : Db) (nodeId : NodeId) (d : ClaimRequest) : Except Failure Db := do
  parse (isPositiveInt d.epoch)
  let s ← needRow (db.sessions.find? d.sessionId) 409 "stage_claim_rejected"
    "Reserva da etapa expirada, cancelada ou já em execução."
  need (s.routeId.isSome ∧ s.state = .authorized ∧ s.attemptId = some d.attemptId ∧
      ∃ deadline ∈ s.executionDeadline, tx.date 0 < toMs deadline) 409 "stage_claim_rejected"
    "Reserva da etapa expirada, cancelada ou já em execução."
  currentParticipants tx db s true
  let p ← needRow (s.stages.find? fun p => p.nodeId = nodeId) 409 "stage_claim_rejected"
    "Esta etapa não possui uma autorização disponível."
  need (p.nodeEpoch = d.epoch ∧ p.prepareId = some d.prepareId ∧ p.claimedAt = none) 409
    "stage_claim_rejected" "Esta etapa não possui uma autorização disponível."
  let participants := claimParticipant tx nodeId s.participants
  return { db with sessions := db.sessions.set d.sessionId { s with participants } }

/-! ### Receipts -/

/-- The reply to a receipt. -/
inductive ReceiptReply where
  | duplicate
  | terminal (state : SessionState)
  | pending (state : SessionState)
  | settled (state : ReceiptState) (charged : Int)
  deriving DecidableEq, Repr

/-- A stage receipt shows work that can be paid. -/
def StageReceiptData.complete (d : StageReceiptData) : Bool :=
  d.state = .completed ∧ 1 ≤ d.completedCommands ∧ d.requestBytes ≠ 0 ∧ d.responseBytes ≠ 0

/-- A stage has reported a receipt that cannot be paid. -/
def Session.stageFailed (s : Session) : Bool :=
  s.stages.any fun p => match p.receipt with
    | some r => !r.payload.complete
    | none => false

/-- `Sessions.settleRoute`. -/
def settleRoute (env : Env) (tx : Tx) (db : Db) (id : SessionId) (s : Session) :
    Except Failure (ReceiptReply × Db) := do
  if s.state = .cancelling ∨ s.stageFailed then
    let state : ReceiptState := if s.state = .cancelling then .cancelled else .failed
    let error := if s.stageFailed then "route_stage_failed" else "cancelled"
    let db ← finalize env tx db id s state 0 (some error) none
    return (.settled state 0, db)
  else
    match s.receipt with
    | none => return (.pending s.state, db)
    | some root =>
      if ∃ p ∈ s.stages, p.receipt = none then
        return (.pending s.state, db)
      else
        currentParticipants tx db s false
        let quote ← reference (db.quotes.find? s.quoteId) "sessions_quote_id_fkey"
        let charge ← chargeFor quote.manifest root.payload.promptTokens
          root.payload.completionTokens
        let db ← finalize env tx db id s .completed charge none none
        return (.settled .completed charge, db)

/-- Record the receipt of the stage on a node. -/
def recordStage (nodeId : NodeId) (r : StageReceipt) (participants : List SessionParticipant) :
    List SessionParticipant :=
  participants.map fun p => if p.nodeId = nodeId then { p with receipt := some r } else p

/-- A session with the receipt of one of its stages. -/
def Session.stageReported (s : Session) (env : Env) (nodeId : NodeId) (d : StageReceiptData) :
    Session :=
  { s with
    participants :=
      recordStage nodeId { digest := env.digest d.toJs, payload := d } s.participants }

/-- A session with the receipt of its root. -/
def Session.reported (s : Session) (env : Env) (d : ReceiptData) : Session :=
  { s with
    receipt := some { digest := env.digest d.toJs, payload := d }
    promptTokens := some d.promptTokens
    completionTokens := some d.completionTokens
    elapsedMs := some d.elapsedMs }

/-- The execution deadline of a session has passed. -/
def Session.overdue (s : Session) (date : Int) : Bool :=
  match s.executionDeadline with
  | some deadline => toMs deadline ≤ date
  | none => true

/-- The part of `stageReceipt` for a receipt that was not reported before. -/
def newStageReceipt (env : Env) (tx : Tx) (db : Db) (nodeId : NodeId) (s : Session)
    (p : SessionParticipant) (d : StageReceiptData) : Except Failure (ReceiptReply × Db) := do
  if s.state.terminal then
    return (.terminal s.state, db)
  else if s.overdue (tx.date 0) then
    let db ← finalize env tx db d.sessionId s .interrupted 0 (some "execution_timeout") none
    return (.terminal .interrupted, db)
  else
    need (p.claimedAt ≠ none ∧
        (s.state = .authorized ∨ s.state = .running ∨ s.state = .cancelling) ∧
        (d.state ≠ .completed ∨ s.startedAt ≠ none)) 409 "stage_receipt_state"
      "A execução correspondente ainda não foi iniciada."
    currentParticipants tx db s false
    let s := s.stageReported env nodeId d
    settleRoute env tx { db with sessions := db.sessions.set d.sessionId s } d.sessionId s

/-- `Sessions.stageReceipt`. -/
def stageReceipt (env : Env) (tx : Tx) (db : Db) (nodeId : NodeId) (d : StageReceiptData) :
    Except Failure (ReceiptReply × Db) := do
  parse d.Valid
  let s ← needRow (db.sessions.find? d.sessionId) 409 "stage_receipt_identity"
    "Recibo não pertence a esta etapa e tentativa."
  let p ← needRow (s.stages.find? fun p => p.nodeId = nodeId) 409 "stage_receipt_identity"
    "Recibo não pertence a esta etapa e tentativa."
  need (s.routeId.isSome ∧ s.attemptId = some d.attemptId ∧
      s.routeSha256 = some d.routeSha256 ∧ p.nodeEpoch = d.epoch) 409 "stage_receipt_identity"
    "Recibo não pertence a esta etapa e tentativa."
  match p.receipt with
  | some old =>
    need (old.digest = env.digest d.toJs) 409 "receipt_conflict" "Recibo da etapa conflitante."
    return (.duplicate, db)
  | none => newStageReceipt env tx db nodeId s p d

/-- A root receipt reports a usage that can be charged. -/
def validUsage (quote : Quote) (d : ReceiptData) : Bool :=
  d.state = .completed ∧ d.streamDone ∧ 0 < d.promptTokens ∧ 0 < d.completionTokens ∧
    d.finishReason ≠ none ∧
    (d.promptTokens : Int) ≤ (quote.manifest.maxContextTokens : Int) - quote.maxOutputTokens ∧
    d.completionTokens ≤ quote.maxOutputTokens

/-- The end that a root receipt reports for a session that is not settled by its route. -/
def reportedEnd (s : Session) (valid : Bool) (d : ReceiptData) : ReceiptState × Option String :=
  if s.state = .cancelling then (.cancelled, some "cancelled")
  else if d.state = .completed ∧ ¬ valid then (.failed, some "invalid_usage")
  else (d.state, d.errorCode)

/-- The part of `receipt` for a receipt that was not reported before. -/
def newReceipt (env : Env) (tx : Tx) (db : Db) (nodeId : NodeId) (s : Session)
    (d : ReceiptData) : Except Failure (ReceiptReply × Db) := do
  if s.state.terminal then
    return (.terminal s.state, db)
  else if s.overdue (tx.date 0) then
    let db ← finalize env tx db d.sessionId s .interrupted 0 (some "execution_timeout") none
    return (.terminal .interrupted, db)
  else
    need (s.state = .running ∨ s.state = .cancelling) 409 "receipt_state"
      "A execução ainda não foi reivindicada."
    let node ← needRow (db.registry.nodes.find? nodeId) 409 "epoch_fenced"
      "A identidade desta execução foi invalidada."
    need (node.epoch = d.epoch ∧ node.desiredState ≠ .revoked) 409 "epoch_fenced"
      "A identidade desta execução foi invalidada."
    let quote ← reference (db.quotes.find? s.quoteId) "sessions_quote_id_fkey"
    let valid := validUsage quote d
    let charge ←
      if valid ∧ s.state ≠ .cancelling then
        chargeFor quote.manifest d.promptTokens d.completionTokens
      else pure 0
    let s := s.reported env d
    let db ← db.updateSession d.sessionId s
    if s.routeId.isSome ∧ valid ∧ s.state ≠ .cancelling then
      settleRoute env tx db d.sessionId s
    else
      let (state, error) := reportedEnd s valid d
      let billing : Option BillingState :=
        if ¬ valid ∧ d.state = .completed then some .disputed else none
      let db ← finalize env tx db d.sessionId s state charge error billing
      return (.settled state charge, db)

/-- `Sessions.receipt`. -/
def receipt (env : Env) (tx : Tx) (db : Db) (nodeId : NodeId) (d : ReceiptData) :
    Except Failure (ReceiptReply × Db) := do
  parse d.Valid
  let s ← needRow (db.sessions.find? d.sessionId) 409 "receipt_identity"
    "Recibo não pertence a esta tentativa."
  need (s.nodeId = some nodeId ∧ s.attemptId = some d.attemptId ∧ s.nodeEpoch = some d.epoch) 409
    "receipt_identity" "Recibo não pertence a esta tentativa."
  match s.receipt with
  | some existing =>
    need (existing.digest = env.digest d.toJs) 409 "receipt_conflict" "Recibo conflitante."
    return (.duplicate, db)
  | none => newReceipt env tx db nodeId s d

/-! ### Cancellation, failure and the reaper -/

/-- `Sessions.cancel`, with the state it reports. -/
def cancel (env : Env) (tx : Tx) (db : Db) (user : Actor) (id : SessionId) :
    Except Failure (SessionState × Db) := do
  let s ← needRow (db.sessions.find? id) 404 "session_missing" "Sessão não encontrada."
  need (s.userId = user.id) 404 "session_missing" "Sessão não encontrada."
  if s.state.terminal then
    return (s.state, db)
  else if s.state = .running ∨ s.state = .cancelling then
    let db ← db.updateSession id { s with state := .cancelling }
    return (.cancelling, db)
  else
    let db ← finalize env tx db id s .cancelled 0 (some "cancelled") none
    return (.cancelled, db)

/-- `Sessions.fail`. -/
def fail (env : Env) (tx : Tx) (db : Db) (id : SessionId) (code : String) :
    Except Failure Db := do
  let s ← needRow (db.sessions.find? id) 404 "session_missing" "Sessão não encontrada."
  if s.state.terminal = false ∧ s.state ≠ .running ∧ s.state ≠ .cancelling then
    finalize env tx db id s .failed 0 (some code) none
  else
    return db

/-- A node that left the epoch of a session, or was revoked. -/
def nodeLost (db : Db) (nodeId : NodeId) (epoch : Nat) : Bool :=
  match db.registry.nodes.find? nodeId with
  | some n => n.epoch ≠ epoch ∨ n.desiredState = .revoked
  | none => false

/-- The condition under which `reap` interrupts a session. -/
def Session.expired (s : Session) (tx : Tx) (db : Db) : Bool :=
  s.state.terminal = false ∧
    ((s.state = .queued ∧ s.queueDeadline < tx.now) ∨
      (∃ deadline ∈ s.executionDeadline, deadline < tx.now) ∨
      (∃ nodeId ∈ s.nodeId, ∃ epoch ∈ s.nodeEpoch, nodeLost db nodeId epoch) ∨
      ∃ p ∈ s.participants, nodeLost db p.nodeId p.nodeEpoch ∨
        ∃ u ∈ db.registry.users.find? p.providerId, u.disabled = true)

/-- The sessions that `reap` takes in one pass: those that expired and are not locked, at most
100 of them, in the order of their identifiers. -/
def expiredSessions (tx : Tx) (db : Db) (locked : List SessionId) : List SessionId :=
  (((db.sessions.rows.filter fun s => s.2.expired tx db ∧ s.1 ∉ locked).map
    Prod.fst).insertionSort (· ≤ ·)).take 100

/-- One round of the loop of `reap`. -/
def reapSession (env : Env) (tx : Tx) (db : Db) (id : SessionId) : Except Failure Db := do
  let s ← reference (db.sessions.find? id) "sessions_pkey"
  finalize env tx db id s (if s.state = .cancelling then .cancelled else .interrupted) 0
    (some (if s.state = .queued then "queue_timeout" else "execution_interrupted")) none

/-- `Sessions.reap`. -/
def reap (env : Env) (tx : Tx) (db : Db) (locked : List SessionId) : Except Failure Db :=
  (expiredSessions tx db locked).zipIdx.foldlM
    (fun db s => reapSession env (tx.call s.2) db s.1) db

end NetworkAi
