import NetworkAi.Control.Documents

set_option relaxedAutoImplicit false
set_option autoImplicit false

/-!
# The database of the control API

The tables of the migrations as one record: the registry, the ledger's books, quotes and
sessions, readiness leases with their claims on physical domains, funding pools, declarations of
economic parties, and renewal authority.

## Main definitions

* `NetworkAi.Session`, `NetworkAi.RouteLease`, `NetworkAi.Pool`, `NetworkAi.Authorization`, … —
  the rows.
* `NetworkAi.Db` — the tables.
* `NetworkAi.Db.post` — a posting of the current transaction.

## Implementation notes

A child table whose rows are written only through their parent is a field of the parent's row:
the participants, domains and receipts of a session, the members and acceptances of a route
lease, the groups and routes of a pool. The accounts of a lease or a pool are functions of its
identifier, so the columns that repeat them are left out, as are the event tables, which are
written and never read by an operation.
-/

namespace NetworkAi

open Relational

/-! ### Quotes and sessions -/

/-- A row of `quotes`. -/
structure Quote where
  userId : UserId
  modelId : String
  manifest : ModelManifest
  manifestSha256 : String
  maxOutputTokens : Nat
  maximum : Int
  expiresAt : Micros
  cooperativePoolId : Option PoolId
  cooperativePolicySha256 : Option String
  deriving DecidableEq, Repr

/-- The billing state of a session. -/
inductive BillingState where
  | held | settled | refunded | disputed
  deriving DecidableEq, Repr

/-- A row of `receipts`. -/
structure RootReceipt where
  digest : String
  payload : ReceiptData
  deriving DecidableEq, Repr

/-- A row of `stage_receipts`. -/
structure StageReceipt where
  digest : String
  payload : StageReceiptData
  deriving DecidableEq, Repr

/-- A row of `session_participants`, with its stage receipt. -/
structure SessionParticipant where
  nodeId : NodeId
  providerId : UserId
  resourceDomainId : DomainId
  ordinal : Nat
  role : MemberRole
  shareBps : Nat
  nodeEpoch : Nat
  prepareId : Option String
  claimedAt : Option Micros
  paid : Int
  receipt : Option StageReceipt
  deriving DecidableEq, Repr

/-- A row of `sessions`, with its domains, participants and root receipt. -/
structure Session where
  userId : UserId
  quoteId : QuoteId
  modelId : String
  manifestSha256 : String
  idempotencyKey : String
  requestSha256 : String
  requestBytes : Nat
  state : SessionState
  billingState : BillingState
  hold : Int
  charged : Int
  nodeId : Option NodeId
  resourceDomainId : Option DomainId
  attemptId : Option Nat
  nodeEpoch : Option Nat
  prepareId : Option String
  queueDeadline : Micros
  executionDeadline : Option Micros
  errorCode : Option String
  promptTokens : Option Nat
  completionTokens : Option Nat
  elapsedMs : Option Nat
  createdAt : Micros
  startedAt : Option Micros
  finishedAt : Option Micros
  routeId : Option RouteId
  routeSha256 : Option String
  cooperativePoolId : Option PoolId
  cooperativePolicySha256 : Option String
  coverageLeaseId : Option LeaseId
  coverageTermsSha256 : Option String
  domains : List DomainId
  participants : List SessionParticipant
  receipt : Option RootReceipt
  deriving DecidableEq, Repr

/-! ### Readiness leases -/

/-- The states of a contract with one node. -/
inductive NodeLeaseState where
  | offered | active | completed | cancelled | expired
  deriving DecidableEq, Repr

/-- `open` of `availability.ts`. -/
def NodeLeaseState.isOpen : NodeLeaseState → Bool
  | .offered | .active => true
  | _ => false

/-- A row of `availability_leases`. -/
structure NodeLease where
  sponsorId : UserId
  providerId : UserId
  nodeId : NodeId
  resourceDomainId : DomainId
  modelId : String
  manifestSha256 : String
  idempotencyKey : String
  requestSha256 : String
  state : NodeLeaseState
  durationSeconds : Nat
  rate : Int
  budget : Int
  paid : Int
  credited : Int
  sampleMs : Option Int
  sampleReady : Bool
  nodeEpoch : Option Nat
  startedMs : Option Int
  endsMs : Option Int
  offerExpiresAt : Micros
  createdAt : Micros
  finishedAt : Option Micros
  deriving DecidableEq, Repr

/-- The states of an availability window. -/
inductive RouteLeaseState where
  | offered | active | draining | completed | cancelled | expired
  deriving DecidableEq, Repr

/-- `funded` of `route-availability.ts`. -/
def RouteLeaseState.funded : RouteLeaseState → Bool
  | .offered | .active | .draining => true
  | _ => false

/-- `active` of `route-availability.ts`. -/
def RouteLeaseState.running : RouteLeaseState → Bool
  | .active | .draining => true
  | _ => false

/-- A row of `route_availability_members`. -/
structure LeaseMember where
  nodeId : NodeId
  providerId : UserId
  resourceDomainId : DomainId
  ordinal : Nat
  role : MemberRole
  shareBps : Nat
  maximum : Int
  paid : Int
  credited : Int
  sampleReady : Bool
  nodeEpoch : Option Nat
  withdrawnAt : Option Micros
  deriving DecidableEq, Repr

/-- A row of `route_availability_acceptances`. -/
structure LeaseAcceptance where
  providerId : UserId
  termsSha256 : String
  mandateId : Option MandateId
  deriving DecidableEq, Repr

/-- A row of `route_availability_leases`, with its members and acceptances. -/
structure RouteLease where
  sponsorId : UserId
  routeId : RouteId
  routeSha256 : String
  manifestSha256 : String
  termsSha256 : String
  terms : LeaseTerms
  idempotencyKey : Nat
  requestSha256 : String
  state : RouteLeaseState
  durationSeconds : Nat
  rate : Int
  budget : Int
  paid : Int
  jointReadyMs : Int
  sampleMs : Option Int
  sampleReady : Bool
  startedMs : Option Int
  endsMs : Option Int
  offerExpiresAt : Micros
  createdAt : Micros
  finishedAt : Option Micros
  writerXid : Nat
  members : List LeaseMember
  acceptances : List LeaseAcceptance
  deriving DecidableEq, Repr

/-- The lease a domain is claimed by: exactly one of the two columns of
`availability_domain_claims`. -/
inductive ClaimOwner where
  | nodeLease (id : LeaseId)
  | routeLease (id : LeaseId)
  deriving DecidableEq, Repr

/-! ### Funding pools -/

/-- The states of a pool. -/
inductive PoolState where
  | normal | defense | recovery | hibernating
  deriving DecidableEq, Repr

/-- A row of `cooperative_pools`, with its groups and routes. -/
structure Pool where
  creatorId : UserId
  name : String
  policy : CoopPolicy
  policySha256 : String
  idempotencyKey : Nat
  requestSha256 : String
  supportUntil : Micros
  paused : Bool
  state : PoolState
  healthySince : Option Micros
  sampleAt : Option Micros
  createdAt : Micros
  groups : List CoopGroup
  deriving DecidableEq, Repr

/-- A row of `cooperative_funding`. -/
structure Funding where
  poolId : PoolId
  userId : UserId
  destination : FundSource
  amount : Int
  policySha256 : String
  idempotencyKey : Nat
  requestSha256 : String
  journalId : JournalId
  deriving DecidableEq, Repr

/-- A row of `cooperative_incidents`. -/
structure Incident where
  poolId : PoolId
  groupKey : String
  routeId : RouteId
  policySha256 : String
  budget : Int
  deadline : Micros
  reason : String
  deriving DecidableEq, Repr

/-- A row of `cooperative_windows`. -/
structure CoopWindow where
  poolId : PoolId
  groupKey : String
  source : FundSource
  incidentId : Option Nat
  kind : CoverageKind
  deriving DecidableEq, Repr

/-- A row of `cooperative_settlements`. -/
structure Settlement where
  poolId : PoolId
  policySha256 : String
  coverageLeaseId : LeaseId
  charge : Int
  working : Int
  reserve : Int
  burned : Int
  createdAt : Micros
  deriving DecidableEq, Repr

/-- A row of `cooperative_refunds`. -/
structure CoopRefund where
  actorId : UserId
  reason : String
  journalId : JournalId
  createdAt : Micros
  deriving DecidableEq, Repr

/-! ### Economic declarations -/

/-- A row of `economic_parties`. -/
structure Party where
  name : String
  evidenceSha256 : String
  sourceReference : String
  createdBy : UserId
  idempotencyKey : Nat
  requestSha256 : String
  createdAt : Micros
  deriving DecidableEq, Repr

/-- A row of `economic_affiliations`. -/
structure Affiliation where
  userId : UserId
  partyId : PartyId
  evidenceSha256 : String
  sourceReference : String
  createdBy : UserId
  expiresAt : Micros
  revokedAt : Option Micros
  createdAt : Micros
  idempotencyKey : Nat
  requestSha256 : String
  deriving DecidableEq, Repr

/-- A row of `cooperative_operating_support`. -/
structure OperatingSupport where
  poolId : PoolId
  policySha256 : String
  createdBy : UserId
  expiresAt : Micros
  revokedAt : Option Micros
  createdAt : Micros
  idempotencyKey : Nat
  requestSha256 : String
  terms : SupportTerms
  termsSha256 : String
  deriving DecidableEq, Repr

/-- A row of `cooperative_expansion_demand`. -/
structure ExpansionDemand where
  sessionId : SessionId
  consumerPartyId : PartyId
  affiliationId : AffiliationId
  evidence : ExpansionEvidence
  evidenceSha256 : String
  createdAt : Micros
  deriving DecidableEq, Repr

/-! ### Renewal authority -/

/-- The states of an authorization or a mandate. -/
inductive AuthorityState where
  | active | revoked | expired | exhausted
  deriving DecidableEq, Repr

/-- The status that the last attempt of an authorization ended with. -/
inductive RenewalStatus where
  | waiting | expired | paused | authorizerDisabled | waitingForSupport | waitingForWindow
  | exhausted | blocked (gate : String) | waitingForAuthorizedSource | waitingForFunds
  | waitingForCapacity | waitingForOperators | renewed | retryPending
  deriving DecidableEq, Repr

/-- A row of `cooperative_renewal_authorizations`. -/
structure Authorization where
  poolId : PoolId
  groupKey : String
  authorizedBy : UserId
  policySha256 : String
  maximumWindows : Nat
  maximumWorking : Int
  maximumReserve : Int
  windowsUsed : Nat
  workingCommitted : Int
  reserveCommitted : Int
  terms : AuthorizationTerms
  termsSha256 : String
  expiresAt : Micros
  state : AuthorityState
  revokedAt : Option Micros
  idempotencyKey : Nat
  requestSha256 : String
  lastStatus : RenewalStatus
  lastAttemptAt : Option Micros
  kind : CoverageKind
  operatingSupportId : Option SupportId
  deriving DecidableEq, Repr

/-- A row of `cooperative_provider_mandates`. -/
structure Mandate where
  poolId : PoolId
  providerId : UserId
  routeId : RouteId
  routeSha256 : String
  policySha256 : String
  maximumWindows : Nat
  windowsUsed : Nat
  terms : MandateTerms
  termsSha256 : String
  expiresAt : Micros
  state : AuthorityState
  revokedAt : Option Micros
  idempotencyKey : Nat
  requestSha256 : String
  kind : CoverageKind
  deriving DecidableEq, Repr

/-- A row of `cooperative_renewal_runs`. -/
structure RenewalRun where
  authorizationId : AuthorizationId
  sequence : Nat
  source : FundSource
  committed : Int
  deriving DecidableEq, Repr

/-- A row of `cooperative_mandate_usages`. -/
structure MandateUsage where
  mandateId : MandateId
  termsSha256 : String
  deriving DecidableEq, Repr

/-! ### The database -/

/-- The tables of the control API. -/
structure Db where
  registry : Registry
  books : Books
  quotes : Table QuoteId Quote
  sessions : Table SessionId Session
  nodeLeases : Table LeaseId NodeLease
  routeLeases : Table LeaseId RouteLease
  claims : Table DomainId ClaimOwner
  pools : Table PoolId Pool
  fundings : Table Nat Funding
  incidents : Table Nat Incident
  windows : Table LeaseId CoopWindow
  settlements : Table SessionId Settlement
  refunds : Table SessionId CoopRefund
  parties : Table PartyId Party
  affiliations : Table AffiliationId Affiliation
  supports : Table SupportId OperatingSupport
  demands : Table LeaseId ExpansionDemand
  authorizations : Table AuthorizationId Authorization
  mandates : Table MandateId Mandate
  runs : Table LeaseId RenewalRun
  usages : Table (LeaseId × UserId) MandateUsage
  /-- `pg_current_xact_id()`. -/
  xid : Nat

/-- A posting of the current transaction: its journal entry, and the database after it. -/
def Db.post (env : Env) (db : Db) (id : JournalId) (key : BusinessKey) (info : PostInfo)
    (entries : List (AccountId × Int)) : Except Failure (JournalId × Db) := do
  let (journal, books) ← db.books.post env.accountLe db.xid id key info entries
  return (journal, { db with books })

/-- The data of a journal entry without metadata that is read back. -/
def Tx.posting (tx : Tx) (kind : PostKind) : PostInfo := { kind, createdAt := tx.now, grant := none }

end NetworkAi
