import NetworkAi.Control.Coordinator
import NetworkAi.Control.Postings
import NetworkAi.Control.RegistryGrowth

set_option relaxedAutoImplicit false
set_option autoImplicit false

/-!
# The moves of the control API

Every request of the coordinator is a sequence of a few kinds of changes to the database: a
session is created, admitted, updated or finalized; a lease is offered, accepted, activated,
sampled, drained or closed; money is granted, committed to a pool or given back. This module
states these moves as one relation, with what the code has checked before each of them, so that an
invariant of the database is proved once for each move and never again for each entry point.

## Main definitions

* `NetworkAi.Move` — the moves, apart from those that consume renewal authority.
* `NetworkAi.Consumption` — the moves that consume an authorization, a mandate or a demand.
* `NetworkAi.Change` — a move of either kind.
* `NetworkAi.Split` — how a charge is divided among its payees.

## Implementation notes

A move is stated over the database before it, with the rows it read and wrote; a posting is part
of the move that needs it (`Booked`), because the books and the rows agree only after both.
-/

namespace NetworkAi

open Relational

/-! ### Sessions -/

/-- The fields of a participant that its admission freezes, with what it was paid. -/
structure FrozenParticipant where
  nodeId : NodeId
  providerId : UserId
  resourceDomainId : DomainId
  ordinal : Nat
  role : MemberRole
  shareBps : Nat
  nodeEpoch : Nat
  paid : Int
  deriving DecidableEq, Repr

/-- The frozen part of a participant. -/
def SessionParticipant.frozen (p : SessionParticipant) : FrozenParticipant :=
  ⟨p.nodeId, p.providerId, p.resourceDomainId, p.ordinal, p.role, p.shareBps, p.nodeEpoch, p.paid⟩

/-- A session goes on: its state, its claims and its receipts may change, nothing else. -/
structure Session.Continues (s s' : Session) : Prop where
  row : s' = { s with
    state := s'.state, prepareId := s'.prepareId, startedAt := s'.startedAt
    participants := s'.participants, receipt := s'.receipt, promptTokens := s'.promptTokens
    completionTokens := s'.completionTokens, elapsedMs := s'.elapsedMs }
  participants : s'.participants.map (·.frozen) = s.participants.map (·.frozen)
  live : s.state.terminal = false
  live' : s'.state.terminal = false
  occupies : s'.state.occupies = s.state.occupies

/-- **An update of a session** by the request that let it go on, with what the code has checked
before it: the preparation of its participants, a claim of the root or of a stage, a receipt of a
stage, or of the root while the stages are still missing, a request to cancel. -/
inductive Updated (env : Env) (t : Tx) (db : Db) (id : SessionId) (s : Session) :
    Request → Session → Prop
  | authorized {d : AuthorizeRequest} {ps : List SessionParticipant}
      (hstate : s.state = .preparing) (hnode : ∃ nodeId node, s.nodeId = some nodeId ∧
        db.registry.nodes.find? nodeId = some node ∧ s.nodeEpoch = some node.epoch)
      (hps : authorizeParticipants t db s d = .ok ps) :
      Updated env t db id s (.gateway (.authorize id d))
        { s with state := .authorized, prepareId := some d.prepareId, participants := ps }
  | claimed {nodeId : NodeId} {d : ClaimRequest} {node : Node} (hfor : d.sessionId = id)
      (hstate : s.state = .authorized)
      (hid : s.nodeId = some nodeId ∧ s.attemptId = some d.attemptId ∧
        s.nodeEpoch = some d.epoch ∧ s.prepareId = some d.prepareId)
      (hnode : db.registry.nodes.find? nodeId = some node) (hepoch : node.epoch = d.epoch)
      (hroute : s.routeId.isSome → currentParticipants t db s true = .ok () ∧
        ∀ p ∈ s.stages, p.claimedAt ≠ none) :
      Updated env t db id s (.node nodeId (.claim d))
        { s with
          state := .running
          startedAt := some t.now
          participants :=
            if s.routeId.isSome then claimParticipant t nodeId s.participants
            else s.participants }
  | stageClaimed {nodeId : NodeId} {d : ClaimRequest} {p : SessionParticipant}
      (hfor : d.sessionId = id) (hroute : s.routeId.isSome) (hstate : s.state = .authorized)
      (hid : s.attemptId = some d.attemptId) (hcurrent : currentParticipants t db s true = .ok ())
      (hp : s.stages.find? (fun p => p.nodeId = nodeId) = some p)
      (hclaim : p.nodeEpoch = d.epoch ∧ p.prepareId = some d.prepareId ∧ p.claimedAt = none) :
      Updated env t db id s (.node nodeId (.stageClaim d))
        { s with participants := claimParticipant t nodeId s.participants }
  | stageReported {nodeId : NodeId} {d : StageReceiptData} {p : SessionParticipant}
      (hfor : d.sessionId = id) (hroute : s.routeId.isSome) (hlive : s.state.terminal = false)
      (hid : s.attemptId = some d.attemptId ∧ s.routeSha256 = some d.routeSha256 ∧
        p.nodeEpoch = d.epoch)
      (hp : s.stages.find? (fun p => p.nodeId = nodeId) = some p)
      (hnew : p.receipt = none ∧ p.claimedAt ≠ none)
      (hcurrent : currentParticipants t db s false = .ok ()) :
      Updated env t db id s (.node nodeId (.stageReceipt d)) (s.stageReported env nodeId d)
  | reported {nodeId : NodeId} {d : ReceiptData} {node : Node} {quote : Quote}
      (hfor : d.sessionId = id) (hroute : s.routeId.isSome) (hstate : s.state = .running)
      (hnew : s.receipt = none)
      (hid : s.nodeId = some nodeId ∧ s.attemptId = some d.attemptId ∧ s.nodeEpoch = some d.epoch)
      (hnode : db.registry.nodes.find? nodeId = some node) (hepoch : node.epoch = d.epoch)
      (hquote : db.quotes.find? s.quoteId = some quote) (hvalid : validUsage quote d = true) :
      Updated env t db id s (.node nodeId (.receipt d)) (s.reported env d)
  | cancelling {user : Actor} (hstate : s.state = .running ∨ s.state = .cancelling) :
      Updated env t db id s (.user user (.cancel id)) { s with state := .cancelling }

/-- The session that an end is about: the stored one, or the same one with the receipt of its root
that ends it. -/
inductive Reporting (env : Env) (s : Session) : Session → Prop
  | stored : Reporting env s s
  | root {nodeId : NodeId} (d : ReceiptData)
      (hstate : s.state = .running ∨ s.state = .cancelling) (hnew : s.receipt = none)
      (hid : s.nodeId = some nodeId ∧ s.attemptId = some d.attemptId ∧
        s.nodeEpoch = some d.epoch) : Reporting env s (s.reported env d)

/-- **What a charge rests on**: the recorded usage of a session that is not being cancelled, priced
by its quote; of a route, with all its stages reported and all participants unchanged, and
otherwise with a valid usage and the root unchanged. -/
structure Payable (t : Tx) (db : Db) (s : Session) (state : ReceiptState) (charge : Int)
    (billing : Option BillingState) : Prop where
  completed : state = .completed
  billing : billing = none
  going : s.state ≠ .cancelling
  usage : ∃ quote root, db.quotes.find? s.quoteId = some quote ∧ s.receipt = some root ∧
    chargeFor quote.manifest root.payload.promptTokens root.payload.completionTokens = .ok charge ∧
    (s.routeId = none → validUsage quote root.payload = true)
  root : s.routeId = none → ∃ nodeId node, s.nodeId = some nodeId ∧
    db.registry.nodes.find? nodeId = some node ∧ s.nodeEpoch = some node.epoch
  stages : s.routeId.isSome → s.stageFailed = false ∧ (∀ p ∈ s.stages, p.receipt ≠ none) ∧
    currentParticipants t db s false = .ok ()

/-- **How a charge is divided**: nothing for a charge of zero, the pool's accounts for a
cooperative session, the participants for a route, the owner of the node otherwise. The relation
gives the entries of the payees, the session with the parts, and the settlements. -/
inductive Split (db : Db) (id : SessionId) (s : Session) (charge : Int) :
    List (AccountId × Int) → Session → Table SessionId Settlement → Prop
  | free (h : charge ≤ 0) : Split db id s charge [] s db.settlements
  | recycled {r : Settlement} (h : 0 < charge) (hpool : s.cooperativePoolId = some r.poolId)
      (hlease : s.coverageLeaseId = some r.coverageLeaseId) (hcharge : r.charge = charge)
      (hsum : charge = r.working + r.reserve + r.burned)
      (hparts : 0 ≤ r.working ∧ 0 ≤ r.reserve ∧ 0 ≤ r.burned)
      (hid : db.settlements.find? id = none) :
      Split db id s charge [(.coopWorking r.poolId, r.working),
        (.coopReserve r.poolId, r.reserve), (.coopBurn r.poolId, r.burned)] s
        (db.settlements.insert id r hid)
  | route {payments : List Int} (h : 0 < charge) (hpool : s.cooperativePoolId = none)
      (hroute : s.routeId.isSome)
      (hpay : splitByBps (charge - charge * 2000 / 10000) (s.participants.map (·.shareBps)) =
        .ok payments) :
      Split db id s charge
        ((payParticipants s.participants payments).map
          (fun p => (.available p.providerId, p.paid)) ++ [(.labWorking, charge * 2000 / 10000)])
        { s with participants := payParticipants s.participants payments } db.settlements
  | node {nodeId : NodeId} {node : Node} (h : 0 < charge) (hpool : s.cooperativePoolId = none)
      (hroute : s.routeId = none) (hid : s.nodeId = some nodeId)
      (hnode : db.registry.nodes.find? nodeId = some node) :
      Split db id s charge [(.available node.ownerId, charge - charge * 2000 / 10000),
        (.labWorking, charge * 2000 / 10000)] s db.settlements

/-- A settlement is recorded with the time at which its transaction started, for a pool and a
window that exist, under the policy of the pool. -/
structure Settlement.Recorded (r : Settlement) (t : Tx) (db : Db) : Prop where
  created : r.createdAt = t.now
  pool : (db.pools.find? r.poolId).isSome
  window : (db.windows.find? r.coverageLeaseId).isSome
  policy : (db.pools.find? r.poolId).map (·.policySha256) = some r.policySha256

/-- **An admission**: a queued session takes an offer that is ready, eligible and free in each of
its domains, with the current epochs of the nodes. -/
structure Admitted (tx : Tx) (db : Db) (s : Session) (o : Offer) (s' : Session) : Prop where
  queued : s.state = .queued
  offer : o ∈ admissible tx db s
  node : ∃ node, db.registry.nodes.find? o.rootNodeId = some node ∧
    s'.nodeId = some o.rootNodeId ∧ s'.resourceDomainId = some node.resourceDomainId ∧
    s'.nodeEpoch = some node.epoch
  members : ∃ members, admitMembers db (o.routeId.bind db.registry.routes.find?) = .ok members ∧
    s'.participants = s.participants ++ members
  coverage : ∃ coverage, admitCoverage tx db s o = .ok coverage ∧
    s'.coverageLeaseId = coverage.map (·.1) ∧
    s'.coverageTermsSha256 = coverage.map (·.2.termsSha256) ∧
    s'.executionDeadline = some (ofMs (admitDeadline tx coverage))
  row : s' = { s with
    state := .preparing, nodeId := s'.nodeId, resourceDomainId := s'.resourceDomainId
    attemptId := s'.attemptId, nodeEpoch := s'.nodeEpoch
    executionDeadline := s'.executionDeadline
    routeId := (o.routeId.bind db.registry.routes.find?).bind fun _ => o.routeId
    routeSha256 := (o.routeId.bind db.registry.routes.find?).map (·.routeSha256)
    coverageLeaseId := s'.coverageLeaseId, coverageTermsSha256 := s'.coverageTermsSha256
    domains := s.domains ++ o.domainIds, participants := s'.participants }

/-! ### Windows of routes -/

/-- The requests that sample or drain a window: its reconciliation and its cancellation. -/
def Request.advances (id : LeaseId) : Request → Bool
  | .background (.reconcileRoute i) => i = id
  | .user _ (.cancelRoute i) => i = id
  | _ => false

/-- **A window was offered**: on a ready route, with a budget that every member has a positive
part of, moved from the account that funds it into a new escrow. -/
structure RouteOffered (env : Env) (tx : Tx) (db : Db) (d : RouteOffer) (route : ExecutionRoute)
    (terms : LeaseTerms) (books : Books) : Prop where
  id : db.routeLeases.find? terms.leaseId = none
  found : db.registry.routes.find? terms.routeId = some route
  ready : db.registry.routeReady tx.now terms.routeId = true
  contracts : openContracts db terms.sponsorId < 4
  duration : 30 ≤ terms.durationSeconds ∧ terms.durationSeconds ≤ 3600
  rate : 0 < terms.rate
  budget : terms.budget = terms.rate * terms.durationSeconds
  sha : terms.routeSha256 = route.routeSha256
  members : ∃ maxima, splitByBps terms.budget (route.members.map (·.shareBps)) = .ok maxima ∧
    (∀ n ∈ maxima, 0 < n) ∧ terms.members = route.members.zip maxima
  check : checkRouteAvailabilityTerms route (newRouteLease env tx db.xid d terms)
  escrow : db.books.accounts.find? (.routeEscrow terms.leaseId) = none
  booked : Booked env db.xid (db.books.openAccount (.routeEscrow terms.leaseId) .leaseEscrow)
    (.routeFund terms.leaseId)
    [(fundingAccount terms.sponsorId terms.cooperative, -terms.budget),
      (.routeEscrow terms.leaseId, terms.budget)] books

/-- A provider accepts at most once. -/
def Acceptances (acceptances acceptances' : List LeaseAcceptance) : Prop :=
  (acceptances.map (·.providerId)).Nodup → (acceptances'.map (·.providerId)).Nodup

/-- A pool's window agrees with the plan of its pool and with the terms of its lease. -/
structure WindowMatches (db : Db) (terms : LeaseTerms) (w : CoopWindow) (p : Pool)
    (c : CoopContext) : Prop where
  pool : db.pools.find? w.poolId = some p
  sponsor : terms.sponsorId = p.creatorId
  context : terms.cooperative = some c
  poolId : c.poolId = w.poolId
  groupKey : c.groupKey = w.groupKey
  policy : c.policySha256 = p.policySha256
  source : c.source = w.source
  kind : w.kind = c.kind
  group : ∃ g ∈ p.groups, g.key = w.groupKey ∧ terms.rate = g.rate ∧
    terms.durationSeconds = g.durationSeconds
  single : groupCommitted db w.poolId w.groupKey w.kind = false

/-- The requests that classify the parties of users. -/
def Request.classifies : Request → Bool
  | .user _ (.party _) | .user _ (.affiliate _) | .user _ (.revokeAffiliation _) => true
  | _ => false

/-- The requests that open windows of pools. -/
def Request.opensWindows : Request → Bool
  | .user _ (.offerWindow ..) | .background (.attempt _) => true
  | _ => false

/-- The requests that sample or manage a pool. -/
def Request.samples : Request → Bool
  | .user _ (.manage ..) | .background (.reconcilePool _) => true
  | _ => false

/-- The requests that charge a session: the receipts of its nodes. -/
def Request.charges : Request → Bool
  | .node _ (.receipt _) | .node _ (.stageReceipt _) => true
  | _ => false

/-- The request that admits a session. -/
def Request.admits : Request → Bool
  | .gateway (.admitSession _) => true
  | _ => false

/-! ### Authority -/

/-- An authorization that may be closed, or noted with a status, and keeps everything else. -/
structure Authorization.Closes (a a' : Authorization) : Prop where
  row : a' = { a with
    state := a'.state, revokedAt := a'.revokedAt, lastStatus := a'.lastStatus
    lastAttemptAt := a'.lastAttemptAt }
  active : a'.state = .active → a.state = .active

/-- A mandate that may be closed and keeps everything else. -/
structure Mandate.Closes (m m' : Mandate) : Prop where
  row : m' = { m with state := m'.state, revokedAt := m'.revokedAt }
  active : m'.state = .active → m.state = .active

/-- A pool keeps its creator, policy and groups. -/
structure Pool.Same (p p' : Pool) : Prop where
  creator : p'.creatorId = p.creatorId
  policy : p'.policy = p.policy
  sha : p'.policySha256 = p.policySha256
  groups : p'.groups = p.groups

/-- An affiliation that may be revoked, and keeps everything else. -/
structure Affiliation.Revokes (a a' : Affiliation) : Prop where
  row : a' = { a with revokedAt := a'.revokedAt }
  current : a'.revokedAt = none → a.revokedAt = none

/-- No other affiliation of the user is current. -/
def Affiliation.OnlyOne (a : Affiliation) (id : AffiliationId)
    (affiliations : Table AffiliationId Affiliation) : Prop :=
  ∀ id' a', affiliations.find? id' = some a' → a'.userId = a.userId → a'.revokedAt = none →
    id' = id

/-- A write of affiliations by a transaction: one that exists may be revoked, and a new one is
created, at readings of its clock. -/
def AffiliationsDated (tx : Tx) (before after : Table AffiliationId Affiliation) : Prop :=
  before.Grows
    (fun a a' => a' = a ∨ a.revokedAt = none ∧ ∃ k, a' = { a with revokedAt := some (tx.wall k) })
    (fun _ a => ∃ k, a.createdAt = tx.wall k) after

/-- A support that may be revoked, and keeps everything else. -/
structure OperatingSupport.Revokes (s s' : OperatingSupport) : Prop where
  row : s' = { s with revokedAt := s'.revokedAt }

/-- A pool that may be managed or sampled, and keeps everything else. -/
structure Pool.Updates (p p' : Pool) : Prop where
  row : p' = { p with
    paused := p'.paused, supportUntil := p'.supportUntil, state := p'.state
    healthySince := p'.healthySince, sampleAt := p'.sampleAt }

/-- A declared support keeps its terms. -/
structure OperatingSupport.Same (s s' : OperatingSupport) : Prop where
  terms : s'.terms = s.terms
  sha : s'.termsSha256 = s.termsSha256

/-- An authorization that was left as it is was not reopened. -/
theorem Authorization.Closes.refl (a : Authorization) : a.Closes a := ⟨rfl, id⟩

/-- A mandate that was left as it is was not reopened. -/
theorem Mandate.Closes.refl (m : Mandate) : m.Closes m := ⟨rfl, id⟩

/-- A pool that was left as it is has the same plan. -/
theorem Pool.Same.refl (p : Pool) : p.Same p := ⟨rfl, rfl, rfl, rfl⟩

/-- An affiliation that was left as it is was not restored. -/
theorem Affiliation.Revokes.refl (a : Affiliation) : a.Revokes a := ⟨rfl, id⟩

/-- A support that was left as it is declares what it did. -/
theorem OperatingSupport.Revokes.refl (s : OperatingSupport) : s.Revokes s := ⟨rfl⟩

/-- A pool that was left as it is was at most updated. -/
theorem Pool.Updates.refl (p : Pool) : p.Updates p := ⟨rfl⟩

/-- A support that was left as it is has the same origin. -/
theorem OperatingSupport.Same.refl (s : OperatingSupport) : s.Same s := ⟨rfl, rfl⟩

/-- **An authorization was given** for a group of a pool, with nothing used yet. -/
structure Authorized (env : Env) (db : Db) (a : Authorization) : Prop where
  active : a.state = .active
  unused : a.windowsUsed = 0 ∧ a.workingCommitted = 0 ∧ a.reserveCommitted = 0
  windows : 1 ≤ a.maximumWindows
  limits : 0 ≤ a.maximumWorking ∧ 0 ≤ a.maximumReserve
  sha : a.termsSha256 = env.digest a.terms.toJs
  group : ∃ p g, db.pools.find? a.poolId = some p ∧ g ∈ p.groups ∧ g.key = a.groupKey ∧
    a.terms.windowBudget = g.cost ∧ (g.cost ≤ a.maximumWorking ∨ g.cost ≤ a.maximumReserve)

/-- **A mandate was given**, with nothing used yet. -/
structure Mandated (env : Env) (m : Mandate) : Prop where
  active : m.state = .active
  unused : m.windowsUsed = 0
  windows : 1 ≤ m.maximumWindows
  sha : m.termsSha256 = env.digest m.terms.toJs

/-! ### The moves -/

/-- The claims once a lease has ended: its own are deleted if it was running. -/
def releaseClaims (running : Bool) (claims : Table DomainId ClaimOwner) (owner : ClaimOwner) :
    Table DomainId ClaimOwner :=
  if running then deleteClaims claims owner else claims

/-- **The moves** of the control API, in the transaction of a request with the readings `tx`. -/
inductive Move (env : Env) (req : Request) (tx : Tx) (db : Db) : Db → Prop
  /-- The registry evolves; only an admission gives a user a turn. -/
  | registry {r : Registry} (h : db.registry.Evolves env r)
      (hturns : req.admits = false → db.registry.KeepsTurns r) :
      Move env req tx db { db with registry := r }
  /-- A user's accounts are opened. -/
  | accounts (u : UserId) : Move env req tx db { db with books := createAccounts db.books u }
  /-- Parties, affiliations and supports are declared or revoked. -/
  | economy {parties : Table PartyId Party} {affiliations : Table AffiliationId Affiliation}
      {supports : Table SupportId OperatingSupport}
      (h : db.supports.Grows OperatingSupport.Same
        (fun _ s => s.termsSha256 = env.digest s.terms.toJs) supports)
      (hone : db.affiliations.Grows Affiliation.Revokes
        (fun id a => a.OnlyOne id affiliations) affiliations)
      (hdated : affiliations = db.affiliations ∨
        req.classifies = true ∧ AffiliationsDated tx db.affiliations affiliations)
      (hrows : db.parties.Extends Eq parties ∧
        db.affiliations.Extends Affiliation.Revokes affiliations ∧
        db.supports.Extends OperatingSupport.Revokes supports) :
      Move env req tx db { db with parties, affiliations, supports }
  /-- A quote freezes the manifest of a published model and the price of its full context. -/
  | quoted {id : QuoteId} {q : Quote} {model : String} {row : Model}
      (hid : db.quotes.find? id = none) (hmodel : db.registry.models.find? model = some row)
      (hmanifest : q.manifest = row.manifest)
      (hmax : quoteMaximum q.manifest q.maxOutputTokens = .ok q.maximum) :
      Move env req tx db { db with quotes := db.quotes.insert id q hid }
  /-- Credits are granted to a user. -/
  | granted {key : BusinessKey} {user : UserId} {amount : Int} {books : Books}
      (hkey : key = .bootstrap ∨ ∃ k, key = .grant k)
      (hb : Booked env db.xid db.books key [(.issuer, -amount), (.available user, amount)] books) :
      Move env req tx db { db with books }
  /-- A session is created with its hold. -/
  | sessionCreated {t : Tx} {user : UserId} {d : CreateRequest} {quote : Quote}
      {id : SessionId} {books : Books} (hid : db.sessions.find? id = none)
      (hquote : db.quotes.find? d.quoteId = some quote) (hhold : 0 ≤ quote.maximum)
      (huser : (db.registry.users.find? user).isSome)
      (hb : BookedIf (0 < quote.maximum) env db.xid db.books (.hold id)
        [(.available user, -quote.maximum), (.held user, quote.maximum)] books) :
      Move env req tx db { db with
        books, sessions := db.sessions.insert id (newSession t user d quote) hid }
  /-- A session is admitted to an offer. -/
  | sessionAdmitted {t : Tx} {id : SessionId} {s s' : Session} {o : Offer}
      (hs : db.sessions.find? id = some s) (h : Admitted t db s o s') :
      Move env req tx db { db with sessions := db.sessions.set id s' }
  /-- A session goes on. -/
  | sessionUpdated {t : Tx} {id : SessionId} {s s' : Session}
      (hs : db.sessions.find? id = some s) (h : Updated env t db id s req s') :
      Move env req tx db { db with sessions := db.sessions.set id s' }
  /-- A session ends: its hold is divided into the charge and a refund. -/
  | sessionFinalized {t : Tx} {id : SessionId} {s₀ s s' : Session} {state : ReceiptState}
      {charge : Int} {error : Option String} {billing : Option BillingState}
      {entries : List (AccountId × Int)} {settlements : Table SessionId Settlement} {books : Books}
      (hs : db.sessions.find? id = some s₀) (hreport : Reporting env s₀ s)
      (hlive : s₀.state.terminal = false) (hcharge : 0 ≤ charge ∧ charge ≤ s.hold)
      (hbilling : billing = none ∨ billing = some .disputed)
      (hpaid : 0 < charge → Payable t db s state charge billing)
      (hsplit : Split db id s charge entries s' settlements)
      (hb : BookedIf (0 < s.hold) env db.xid db.books (.settle id)
        (holdEntries s charge ++ entries) books)
      (htimely : 0 < charge → t = tx ∧ s.overdue (tx.date 0) = false ∧ req.charges = true)
      (hrecorded : ∀ r, settlements.find? id = some r → db.settlements.find? id = none →
        r.Recorded t db) :
      Move env req tx db { db with
        books, settlements
        sessions := db.sessions.set id (s'.finished t state charge error billing) }
  /-- The consumption of a cooperative session is given back. -/
  | consumptionRefunded {id : SessionId} {s : Session} {row : Settlement} {r : CoopRefund}
      {books : Books} (hs : db.sessions.find? id = some s)
      (hrow : db.settlements.find? id = some row) (hid : db.refunds.find? id = none)
      (hb : Booked env db.xid db.books (.coopRefund id) (refundEntries s.userId row) books) :
      Move env req tx db { db with
        books
        refunds := db.refunds.insert id r hid
        sessions := db.sessions.set id { s with billingState := .refunded } }
  /-- A node's lease is offered, with its budget in escrow. -/
  | nodeLeaseOffered {id : LeaseId} {l : NodeLease} {books : Books}
      (hid : db.nodeLeases.find? id = none) (hstate : l.state = .offered)
      (hnew : l.paid = 0 ∧ l.credited = 0 ∧ l.sampleMs = none)
      (hbudget : l.budget = l.rate * l.durationSeconds) (hrate : 0 < l.rate)
      (hduration : 30 ≤ l.durationSeconds ∧ l.durationSeconds ≤ 3600)
      (hcontracts : openContracts db l.sponsorId < 4)
      (hb : Booked env db.xid (db.books.openAccount (.leaseEscrow id) .leaseEscrow) (.leaseFund id)
        [(.available l.sponsorId, -l.budget), (.leaseEscrow id, l.budget)] books) :
      Move env req tx db { db with books, nodeLeases := db.nodeLeases.insert id l hid }
  /-- A node's lease starts and claims its domain. -/
  | nodeLeaseActivated {id : LeaseId} {row : NodeLease} {now : Int} {epoch : Nat}
      {claims : Table DomainId ClaimOwner} (hrow : db.nodeLeases.find? id = some row)
      (hstate : row.state = .offered)
      (hclaims : insertClaims db.claims (.nodeLease id) [row.resourceDomainId] = .ok claims) :
      Move env req tx db { db with
        nodeLeases := db.nodeLeases.set id (row.activated now epoch), claims }
  /-- A node's lease is sampled and pays what the sample earned. -/
  | nodeLeaseSampled {id : LeaseId} {row : NodeLease} {node : NodeObservation}
      {now previous ends : Int} {books : Books} (hrow : db.nodeLeases.find? id = some row)
      (hstate : row.state = .active) (hprev : row.sampleMs = some previous)
      (hends : row.endsMs = some ends) (hnode : observeNode db row now = .ok node)
      (hvalid : (row.sampled node now previous ends).Valid)
      (hb : BookedIf (row.paid < (row.sampled node now previous ends).credited * row.rate / 1000)
        env db.xid db.books (.leasePay id (row.sampled node now previous ends).credited)
        [(.leaseEscrow id,
            row.paid - (row.sampled node now previous ends).credited * row.rate / 1000),
          (.available row.providerId,
            (row.sampled node now previous ends).credited * row.rate / 1000 - row.paid)] books) :
      Move env req tx db { db with
        books, nodeLeases := db.nodeLeases.set id (row.sampled node now previous ends) }
  /-- A node's lease ends: the rest of its budget returns. -/
  | nodeLeaseClosed {t : Tx} {id : LeaseId} {row : NodeLease} {state : NodeLeaseState}
      {books : Books} (hrow : db.nodeLeases.find? id = some row) (hopen : row.state.isOpen = true)
      (hstate : state.isOpen = false)
      (hb : BookedIf (0 < row.budget - row.paid) env db.xid db.books (.leaseRefund id)
        [(.leaseEscrow id, -(row.budget - row.paid)),
          (.available row.sponsorId, row.budget - row.paid)] books) :
      Move env req tx db { db with
        books
        nodeLeases := db.nodeLeases.set id (row.closed t state)
        claims := releaseClaims (row.state = .active) db.claims (.nodeLease id) }
  /-- A sponsor's window on a route is offered. -/
  | routeOffered {t : Tx} {d : RouteOffer} {route : ExecutionRoute} {terms : LeaseTerms}
      {books : Books} (h : RouteOffered env t db d route terms books)
      (hplain : terms.cooperative = none) :
      Move env req tx db { db with
        books
        routeLeases := db.routeLeases.insert terms.leaseId (newRouteLease env t db.xid d terms)
          h.id }
  /-- A pool's window on a route is offered. -/
  | windowOffered {t : Tx} {d : RouteOffer} {route : ExecutionRoute} {terms : LeaseTerms}
      {books : Books} {incidents : Table Nat Incident} {w : CoopWindow} {p : Pool} {c : CoopContext}
      (h : RouteOffered env t db d route terms books) (hmatch : WindowMatches db terms w p c)
      (hid : db.windows.find? terms.leaseId = none)
      (hkind : w.kind = .expansion → ∃ a, req = .background (.attempt a))
      (hopens : req.opensWindows = true) :
      Move env req tx db { db with
        books, incidents
        routeLeases := db.routeLeases.insert terms.leaseId (newRouteLease env t db.xid d terms) h.id
        windows := db.windows.insert terms.leaseId w hid }
  /-- A provider accepts an offered window. -/
  | routeAccepted {id : LeaseId} {row : RouteLease} {acceptances : List LeaseAcceptance}
      (hrow : db.routeLeases.find? id = some row) (hstate : row.state = .offered)
      (haccept : ∀ a ∈ row.acceptances, a ∈ acceptances)
      (hkeys : Acceptances row.acceptances acceptances) :
      Move env req tx db { db with routeLeases := db.routeLeases.set id { row with acceptances } }
  /-- A window starts, once all its providers have accepted it, and claims its domains. -/
  | routeActivated {id : LeaseId} {row : RouteLease} {acceptances : List LeaseAcceptance}
      {observation : Observation} {now : Int} {claims : Table DomainId ClaimOwner}
      (hrow : db.routeLeases.find? id = some row) (hstate : row.state = .offered)
      (haccept : ∀ a ∈ row.acceptances, a ∈ acceptances)
      (hall : ∀ m ∈ row.members, ∃ a ∈ acceptances, a.providerId = m.providerId)
      (hobs : observeRoute db { row with acceptances } now = .ok observation)
      (hjoint : observation.joint = true)
      (hclaims : insertClaims db.claims (.routeLease id)
        (({ row with acceptances } : RouteLease).activated observation now).domains = .ok claims)
      (hkeys : Acceptances row.acceptances acceptances) :
      Move env req tx db { db with
        routeLeases := db.routeLeases.set id
          (({ row with acceptances } : RouteLease).activated observation now)
        claims }
  /-- A running window is sampled and pays what the sample earned. -/
  | routeSampled {id : LeaseId} {row : RouteLease} {now previous ends : Int}
      {observation : Observation} {credits : List (LeaseMember × Bool)} {books : Books}
      {sampled : RouteLease} (hrow : db.routeLeases.find? id = some row)
      (hstate : row.state.running = true) (hprev : row.sampleMs = some previous)
      (hends : row.endsMs = some ends) (hnow : previous ≤ now)
      (hobs : observeRoute db row now = .ok observation)
      (hcredits : observation.members.mapM (creditMember row (max previous (min now ends) - previous)
        (now - previous ≤ 6000)) = .ok credits)
      (hsampled : sampled = row.sampled observation.joint (now - previous ≤ 6000)
        (max previous (min now ends) - previous) (max previous (min now ends)) credits)
      (hvalid : sampled.Valid)
      (hb : BookedIf (0 < sampled.paid - row.paid) env db.xid db.books (.routePay id sampled.paid)
        (paymentLines id row.members sampled.members (sampled.paid - row.paid)) books)
      (hreq : req.advances id = true) :
      Move env req tx db { db with books, routeLeases := db.routeLeases.set id sampled }
  /-- A running window drains. -/
  | routeDrained {t : Tx} {user : UserId} {id : LeaseId} {row : RouteLease}
      (hrow : db.routeLeases.find? id = some row) (hstate : row.state.running = true)
      (hreq : req.advances id = true) :
      Move env req tx db { db with routeLeases := db.routeLeases.set id (row.drained t user) }
  /-- A window ends, an offer by its expiry or cancellation, a running one at its end: the rest
  of the budget returns. -/
  | routeClosed {t : Tx} {id : LeaseId} {row : RouteLease} {state : RouteLeaseState} {paid : Int}
      {books : Books} (hrow : db.routeLeases.find? id = some row)
      (hend : (row.state = .offered ∧ (paid = 0 ∨ paid = row.paid) ∧
          (state = .cancelled ∨ (state = .expired ∧ toMs row.offerExpiresAt ≤ tx.clock 0))) ∨
        (row.state.running = true ∧ paid = row.paid ∧ state = .completed ∧
          ∃ ends, row.endsMs = some ends ∧ ends ≤ tx.clock 0))
      (hb : BookedIf (0 < row.budget - paid) env db.xid db.books (.routeRefund id)
        [(.routeEscrow id, -(row.budget - paid)),
          (fundingAccount row.sponsorId row.terms.cooperative, row.budget - paid)] books)
      (hreq : row.state.running = true → req.advances id = true) :
      Move env req tx db { db with
        books
        routeLeases := db.routeLeases.set id (row.closed t state)
        claims := releaseClaims row.state.running db.claims (.routeLease id) }
  /-- A pool is created with its three accounts. -/
  | poolCreated {id : PoolId} {p : Pool} (hid : db.pools.find? id = none)
      (hkeys : (p.groups.map (·.key)).Nodup) (hsha : p.policySha256 = env.digest p.policy.toJs)
      (hbooks : db.books.accounts.find? (.coopWorking id) = none ∧
        db.books.accounts.find? (.coopReserve id) = none ∧
        db.books.accounts.find? (.coopBurn id) = none)
      (hhealth : p.healthySince = none ∧ p.sampleAt = none)
      (hroutes : ∀ g ∈ p.groups, ∀ r ∈ g.routes, (db.registry.routes.find? r.routeId).isSome) :
      Move env req tx db { db with
        books := ((db.books.openAccount (.coopWorking id) .coopWorking).openAccount
          (.coopReserve id) .coopCoreReserve).openAccount (.coopBurn id) .coopBurn
        pools := db.pools.insert id p hid }
  /-- A pool is sampled or managed. -/
  | poolsUpdated {pools : Table PoolId Pool} (h : db.pools.Grows Pool.Same (fun _ _ => False) pools)
      (hreq : req.samples = true) (hrows : db.pools.Extends Pool.Updates pools) :
      Move env req tx db { db with pools }
  /-- A contribution is committed to a pool. -/
  | funded {id : Nat} {f : Funding} {books : Books} (hid : db.fundings.find? id = none)
      (hpool : (db.pools.find? f.poolId).isSome)
      (hb : Booked env db.xid db.books (.coopFunding id)
        [(.available f.userId, -f.amount), (f.destination.account f.poolId, f.amount)] books) :
      Move env req tx db { db with books, fundings := db.fundings.insert id f hid }
  /-- An authorization is given. -/
  | authorized {id : AuthorizationId} {a : Authorization} (hid : db.authorizations.find? id = none)
      (h : Authorized env db a) :
      Move env req tx db { db with authorizations := db.authorizations.insert id a hid }
  /-- Authorizations are closed or noted. -/
  | authorizationsClosed {authorizations : Table AuthorizationId Authorization}
      (h : db.authorizations.Grows Authorization.Closes (fun _ _ => False) authorizations)
      (hrows : db.authorizations.Extends Authorization.Closes authorizations) :
      Move env req tx db { db with authorizations }
  /-- A mandate is given. -/
  | mandated {id : MandateId} {m : Mandate} (hid : db.mandates.find? id = none)
      (h : Mandated env m) : Move env req tx db { db with mandates := db.mandates.insert id m hid }
  /-- Mandates are closed. -/
  | mandatesClosed {mandates : Table MandateId Mandate}
      (h : db.mandates.Grows Mandate.Closes (fun _ _ => False) mandates)
      (hrows : db.mandates.Extends Mandate.Closes mandates) :
      Move env req tx db { db with mandates }
  /-- The next transaction begins. -/
  | committed {xid : Nat} : Move env req tx db { db with xid }

/-- The demand of an expansion is that of the terms of its window, whose renewal has its run, and
its affiliation is that of the user of its session. -/
structure ExpansionDemand.Fits (db : Db) (lease : LeaseId) (e : ExpansionDemand) : Prop where
  run : (db.runs.find? lease).isSome
  window : (db.windows.find? lease).map (·.kind) = some .expansion
  terms : ((db.routeLeases.find? lease).bind (·.terms.cooperative)).bind (·.expansion) =
    some e.evidence
  named : e.evidence.sessionId = e.sessionId ∧ e.evidence.affiliationId = e.affiliationId
  consumer : ∃ s a, db.sessions.find? e.sessionId = some s ∧
    db.affiliations.find? e.affiliationId = some a ∧ a.userId = s.userId ∧
    a.partyId = e.consumerPartyId

/-- **The moves that consume renewal authority**, each for the window of one lease. -/
inductive Consumption (env : Env) (db : Db) : Db → Prop
  /-- A run consumes an authorization. -/
  | authority {tx : Tx} {lease : LeaseId} {run : RenewalRun} {a : Authorization} {l : RouteLease}
      {w : CoopWindow} (ha : db.authorizations.find? run.authorizationId = some a)
      (hl : db.routeLeases.find? lease = some l) (hw : db.windows.find? lease = some w)
      (hcovers : authorityCovers tx db.xid a l w run = true)
      (hvalid : (a.consume run.source l.budget).Valid) (hid : db.runs.find? lease = none)
      (hkind : a.kind = w.kind) (hsupport : w.kind = .expansion → supportCovers db a l = true) :
      Consumption env db { db with
        runs := db.runs.insert lease run hid
        authorizations := db.authorizations.set run.authorizationId
          (a.consume run.source l.budget) }
  /-- A usage consumes a mandate. -/
  | mandate {tx : Tx} {lease : LeaseId} {provider : UserId} {usage : MandateUsage} {m : Mandate}
      {l : RouteLease} (hm : db.mandates.find? usage.mandateId = some m)
      (hl : db.routeLeases.find? lease = some l) (hrun : (db.runs.find? lease).isSome)
      (hcovers : mandateCovers tx m l provider usage = true)
      (hused : m.windowsUsed + 1 ≤ m.maximumWindows)
      (hid : db.usages.find? (lease, provider) = none)
      (hkind : (db.windows.find? lease).map (·.kind) = some m.kind) :
      Consumption env db { db with
        usages := db.usages.insert (lease, provider) usage hid
        mandates := db.mandates.set usage.mandateId m.consume }
  /-- An expansion consumes a demand. -/
  | demand {lease : LeaseId} {e : ExpansionDemand} (hid : db.demands.find? lease = none)
      (hsha : e.evidenceSha256 = env.digest e.evidence.toJs)
      (hsession : ∀ d ∈ db.demands.rows, d.2.sessionId ≠ e.sessionId)
      (hfits : e.Fits db lease) :
      Consumption env db { db with demands := db.demands.insert lease e hid }

/-- A move of either kind. -/
def Change (env : Env) (req : Request) (tx : Tx) (db db' : Db) : Prop :=
  Move env req tx db db' ∨ Consumption env db db'

end NetworkAi
