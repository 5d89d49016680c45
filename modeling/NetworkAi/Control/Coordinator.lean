import NetworkAi.Control.Availability
import NetworkAi.Control.Market
import NetworkAi.Control.Renewals
import NetworkAi.Lib.Machine

set_option relaxedAutoImplicit false
set_option autoImplicit false

/-!
# The coordinator

The control API as a transition system: a state is the database, a step is one request or one
round of the background loop of `main.ts`, run as one serializable transaction that is committed
or leaves the database as it was.

## Main definitions

* `NetworkAi.Request` — what can reach the coordinator, by its sender.
* `NetworkAi.perform` — the operation a request runs.
* `NetworkAi.transaction` — the operation with the deferred check of its commit.
* `NetworkAi.controlSystem` — the system; `NetworkAi.Db.initial` — the database of `lab.mjs`.

## Implementation notes

A request is authenticated by a query of its own before its transaction starts, so an account
may have been disabled in between: the step demands only that the caller is a user with that role.
The node of a signed request and the gateway's secret are verified before the step, too.
-/

namespace NetworkAi

open Relational

/-- The requests of a signed-in user. -/
inductive UserRequest where
  | createUser (role : Role)
  | publishModel (manifest : ModelManifest)
  | qualifyModel (id : String) (state : Qualification)
  | domain (id : DomainId) (ownerId : UserId) (slots : Nat)
  | invite (id : NodeId) (tokenHash : String) (ownerId : UserId) (domainId : DomainId)
      (modelId : String) (kind : NodeKind)
  | nodeState (id : NodeId) (state : DesiredState)
  | publishRoute (d : PublishRoute)
  | consentRoute (id : RouteId) (routeSha256 : String)
  | withdrawRoute (id : RouteId)
  | qualifyRoute (id : RouteId) (state : Qualification)
  | quote (d : QuoteRequest)
  | grant (d : GrantRequest)
  | createSession (d : CreateRequest)
  | cancel (id : SessionId)
  | offerLease (d : LeaseOffer)
  | acceptLease (id : LeaseId)
  | cancelLease (id : LeaseId)
  | offerRoute (d : RouteOffer)
  | acceptRoute (id : LeaseId) (termsSha256 : String)
  | cancelRoute (id : LeaseId)
  | createPool (d : PlanRequest)
  | fund (id : PoolId) (d : FundRequest)
  | manage (id : PoolId) (d : ManageRequest)
  | offerWindow (id : PoolId) (d : WindowRequest)
  | refund (id : SessionId) (reason : String)
  | party (d : PartyRequest)
  | affiliate (d : AffiliationRequest)
  | revokeAffiliation (id : AffiliationId)
  | support (pool : PoolId) (d : SupportRequest)
  | revokeSupport (id : SupportId)
  | authorizeRenewal (id : PoolId) (d : AuthorizationRequest)
  | mandate (id : PoolId) (d : MandateRequest)
  | revokeAuthorization (id : AuthorizationId)
  | revokeMandate (id : MandateId)

/-- The requests of a node. -/
inductive NodeRequest where
  | resume (bootId : Nat)
  | heartbeat (epoch bootId : Nat) (state : NodeState) (loaded : List String)
      (profile : Option GenerationProfile)
  | claim (d : ClaimRequest)
  | stageClaim (d : ClaimRequest)
  | receipt (d : ReceiptData)
  | stageReceipt (d : StageReceiptData)

/-- The requests of the gateway. -/
inductive GatewayRequest where
  | admitSession (id : SessionId)
  | authorize (id : SessionId) (d : AuthorizeRequest)
  | fail (id : SessionId) (code : String)

/-- What the coordinator and its operator do on their own. -/
inductive Background where
  | register (tokenHash publicKey : String) (bootId : Nat)
  | reap (locked : List SessionId)
  | reconcileLease (id : LeaseId)
  | reconcileRoute (id : LeaseId)
  | reconcilePool (id : PoolId)
  | expireMandates
  | attempt (id : AuthorizationId)
  | retryPending (id : AuthorizationId)
  | setDisabled (id : UserId) (disabled : Bool)
  | bootstrap (user : UserId)

/-- A request, by its sender. -/
inductive Request where
  | user (caller : Actor) (r : UserRequest)
  | node (id : NodeId) (r : NodeRequest)
  | gateway (r : GatewayRequest)
  | background (r : Background)

/-- An operation of the registry alone. -/
def Db.withRegistry (db : Db) (x : Except Failure Registry) : Except Failure Db := do
  let registry ← x
  return { db with registry }

/-- The operation a user's request runs. -/
def performUser (env : Env) (tx : Tx) (db : Db) (user : Actor) :
    UserRequest → Except Failure Db
  | .createUser role => createUser tx db user role
  | .publishModel manifest => db.withRegistry (db.registry.publishModel env user manifest)
  | .qualifyModel id state => db.withRegistry (db.registry.qualifyModel user id state)
  | .domain id ownerId slots => db.withRegistry (db.registry.domain user id ownerId slots)
  | .invite id tokenHash ownerId domainId modelId kind =>
    db.withRegistry (db.registry.invite tx user id tokenHash ownerId domainId modelId kind)
  | .nodeState id state => db.withRegistry (db.registry.nodeState user id state)
  | .publishRoute d => db.withRegistry (db.registry.publish env tx user d)
  | .consentRoute id sha => db.withRegistry (db.registry.accept user id sha)
  | .withdrawRoute id => db.withRegistry (db.registry.withdraw tx user id)
  | .qualifyRoute id state => db.withRegistry (db.registry.qualify user id state)
  | .quote d => Prod.snd <$> quote tx db user d
  | .grant d => Prod.snd <$> grant env tx db user d
  | .createSession d => Prod.snd <$> createSession env tx db user d
  | .cancel id => Prod.snd <$> cancel env tx db user id
  | .offerLease d => Prod.snd <$> offerLease env tx db user d
  | .acceptLease id => acceptLease tx db user id
  | .cancelLease id => cancelLease env tx db user id
  | .offerRoute d => Prod.snd <$> offerRoute env tx db user d
  | .acceptRoute id sha => acceptRoute tx db user id sha
  | .cancelRoute id => cancelRoute env tx db user id
  | .createPool d => Prod.snd <$> createPool env tx db user d
  | .fund id d => Prod.snd <$> fundPool env tx db user id d
  | .manage id d => managePool env tx db user id d
  | .offerWindow id d => Prod.snd <$> offerWindow env tx db user id d
  | .refund id reason => refundConsumption env tx db user id reason
  | .party d => Prod.snd <$> declareParty env tx db user d
  | .affiliate d => Prod.snd <$> affiliate env tx db user d
  | .revokeAffiliation id => revokeAffiliation tx db user id
  | .support pool d => Prod.snd <$> declareSupport env tx db user pool d
  | .revokeSupport id => revokeSupport tx db user id
  | .authorizeRenewal id d => Prod.snd <$> authorizeRenewal env tx db user id d
  | .mandate id d => Prod.snd <$> mandateProvider env tx db user id d
  | .revokeAuthorization id => revokeAuthorization tx db user id
  | .revokeMandate id => revokeMandate tx db user id

/-- The operation a node's request runs. -/
def performNode (env : Env) (tx : Tx) (db : Db) (id : NodeId) : NodeRequest → Except Failure Db
  | .resume bootId => db.withRegistry (db.registry.resume tx id bootId)
  | .heartbeat epoch bootId state loaded profile =>
    db.withRegistry (db.registry.heartbeat tx id epoch bootId state loaded profile)
  | .claim d => claim tx db id d
  | .stageClaim d => stageClaim tx db id d
  | .receipt d => Prod.snd <$> receipt env tx db id d
  | .stageReceipt d => Prod.snd <$> stageReceipt env tx db id d

/-- The operation a request of the gateway runs. -/
def performGateway (env : Env) (tx : Tx) (db : Db) : GatewayRequest → Except Failure Db
  | .admitSession id => Prod.snd <$> admitSession env tx db id
  | .authorize id d => authorize tx db id d
  | .fail id code => fail env tx db id code

/-- The bootstrap grant of `lab.mjs`. -/
def bootstrap (env : Env) (tx : Tx) (db : Db) (user : UserId) : Except Failure Db :=
  Prod.snd <$> db.post env (tx.uuid 0) .bootstrap (tx.posting .labGrant)
    [(.issuer, -100000000), (.available user, 100000000)]

/-- The operation of a background round. -/
def performBackground (env : Env) (tx : Tx) (db : Db) : Background → Except Failure Db
  | .register tokenHash publicKey bootId =>
    db.withRegistry (db.registry.register tx tokenHash publicKey bootId)
  | .reap locked => reap env tx db locked
  | .reconcileLease id => reconcileLease env tx db id
  | .reconcileRoute id => reconcileRoute env tx db id
  | .reconcilePool id => reconcilePool tx db id
  | .expireMandates => return expireMandates tx db none
  | .attempt id => attempt env tx db id
  | .retryPending id => retryPending tx db id
  | .setDisabled id disabled => db.withRegistry (db.registry.setDisabled id disabled)
  | .bootstrap user => bootstrap env tx db user

/-- The authenticated caller of a request is a user with that role. -/
def Db.authenticated (db : Db) (caller : Actor) : Bool :=
  match db.registry.users.find? caller.id with
  | some u => u.role = caller.role
  | none => false

/-- The operation a request runs. -/
def perform (env : Env) (tx : Tx) (db : Db) : Request → Except Failure Db
  | .user caller r => do
    need (db.authenticated caller) 401 "authentication_required"
      "Sessão expirada ou chave inválida."
    performUser env tx db caller r
  | .node id r => performNode env tx db id r
  | .gateway r => performGateway env tx db r
  | .background r => performBackground env tx db r

/-- A request as a transaction: its operation, then the deferred check of the journal. -/
def transaction (env : Env) (tx : Tx) (db : Db) (r : Request) : Except Failure Db := do
  let db' ← perform env tx db r
  db'.books.commit db.xid
  return db'

/-- The database after the migrations and the first part of `lab.mjs`: the accounts of the
laboratory, and one administrator. -/
def Db.initial (admin : UserId) : Db where
  registry :=
    { users := ⟨[(admin, ⟨.admin, false, none⟩)], by simp⟩
      domains := Table.empty, models := Table.empty, nodes := Table.empty
      invites := Table.empty, routes := Table.empty, routeAcceptances := Table.empty }
  books := createAccounts
    ⟨⟨[(.issuer, ⟨.labIssuer, 0⟩), (.labWorking, ⟨.working, 0⟩)], by simp⟩, Table.empty, []⟩ admin
  quotes := Table.empty
  sessions := Table.empty
  nodeLeases := Table.empty
  routeLeases := Table.empty
  claims := Table.empty
  pools := Table.empty
  fundings := Table.empty
  incidents := Table.empty
  windows := Table.empty
  settlements := Table.empty
  refunds := Table.empty
  parties := Table.empty
  affiliations := Table.empty
  supports := Table.empty
  demands := Table.empty
  authorizations := Table.empty
  mandates := Table.empty
  runs := Table.empty
  usages := Table.empty
  xid := 1

/-- The control API: every request is one transaction, committed or rolled back. -/
def controlSystem (env : Env) : Machine.System Db (Tx × Request) where
  init db := ∃ admin, db = Db.initial admin
  step i db :=
    { Checked.settle (transaction env i.1 db i.2) db with xid := db.xid + 1 }

/-! ### A laboratory

One administrator, who owns four nodes in three physical domains, and one member who consumes. Two
routes serve one model; a pool covers them with windows of sixty seconds. The runs below are where
the results about every reachable database are tried out. -/

/-- The platform of the laboratory. Its hash is one character of the text, enough to tell the
documents of the laboratory apart: of an evidence the first one of the support's expiry, of a
route the last digit of its root, of a window whether it is an expansion. -/
def labEnv : Env where
  hash text := String.singleton <|
    match text.drop 2 with
    | 'a' :: rest => rest[1019]?.getD 'h'
    | 'm' :: rest => rest[98]?.getD 'h'
    | 'b' :: rest => rest[162]?.getD 'h'
    | _ => 'h'
  accountLe a b := match a, b with
    | .held _, .available _ => false
    | .available _, .issuer | .held _, .issuer => false
    | .routeEscrow _, .available _ | .available _, .coopWorking _ => false
    | _, _ => true
  instant _ := ofMs (86400000 + 7200000)

/-- The readings of the `i`-th transaction, at an instant of the second day. -/
def labTx (i : Nat) (ms : Int) : Tx where
  now := ofMs (86400000 + ms)
  date _ := 86400000 + ms
  wall _ := ofMs (86400000 + ms)
  uuid k := 1000 * i + k

/-- The model of the laboratory, at one microcredit per token. -/
def labManifest : ModelManifest where
  modelId := "m"
  displayName := "m"
  backendModel := "b"
  revision := "r"
  artifactSha256 := "a"
  licenseId := "l"
  sourceUrl := "u"
  maxContextTokens := 256
  maxOutputTokens := 64
  maxInputBytes := 128
  inputRateMicrotu := 1
  outputRateMicrotu := 1
  rateDenominator := 1
  description := "d"
  executionProfile := none
  generationProfile := none

/-- The administrator. -/
def labAdmin : Actor := ⟨0, .admin⟩

/-- The consumer. -/
def labConsumer : Actor := ⟨1000, .member⟩

/-- Every node reports that it is ready. -/
def labBeats (i : Nat) (ms : Int) : List (Tx × Request) :=
  [1, 2, 3, 4].map fun id => (labTx i ms, .node id (.heartbeat 1 1 .ready ["b"] none))

/-- The accounts, the model, the nodes and the two routes `19000` and `20000`. -/
def labSetup : List (Tx × Request) := [
    (labTx 1 0, .user labAdmin (.createUser .member)),
    (labTx 2 0, .user labAdmin (.publishModel labManifest)),
    (labTx 3 0, .user labAdmin (.qualifyModel "m" .localPreview)),
    (labTx 4 0, .user labAdmin (.domain 1 0 1)),
    (labTx 5 0, .user labAdmin (.domain 2 0 1)),
    (labTx 6 0, .user labAdmin (.domain 3 0 1)),
    (labTx 7 0, .user labAdmin (.invite 1 "t1" 0 1 "m" .routeRoot)),
    (labTx 8 0, .user labAdmin (.invite 2 "t2" 0 2 "m" .rpcStage)),
    (labTx 9 0, .user labAdmin (.invite 3 "t3" 0 3 "m" .routeRoot)),
    (labTx 10 0, .user labAdmin (.invite 4 "t4" 0 3 "m" .rpcStage)),
    (labTx 11 0, .background (.register "t1" "k1" 1)),
    (labTx 12 0, .background (.register "t2" "k2" 1)),
    (labTx 13 0, .background (.register "t3" "k3" 1)),
    (labTx 14 0, .background (.register "t4" "k4" 1))] ++
  labBeats 15 0 ++ [
    (labTx 19 0, .user labAdmin (.publishRoute ⟨"A", "m", 1, [⟨1, 5000⟩, ⟨2, 5000⟩]⟩)),
    (labTx 20 0, .user labAdmin (.publishRoute ⟨"B", "m", 2, [⟨3, 500⟩, ⟨4, 9500⟩]⟩)),
    (labTx 21 0, .user labAdmin (.consentRoute 19000 "1")),
    (labTx 22 0, .user labAdmin (.consentRoute 20000 "3")),
    (labTx 25 0, .user labAdmin (.qualifyRoute 19000 .localPreview)),
    (labTx 26 0, .user labAdmin (.qualifyRoute 20000 .localPreview))]

/-- The pool `29000`, funded, with its first window `36006` on the route `19000`, and the parties
of the two users. -/
def labPlan : List (Tx × Request) := [
    (labTx 27 0, .background (.bootstrap 0)),
    (labTx 28 0, .user labAdmin (.grant ⟨1000, 10000, 1, "g"⟩)),
    (labTx 29 0, .user labAdmin (.createPool ⟨"p", "2h", 1, [⟨"g", [19000, 20000], 1, 60⟩]⟩)),
    (labTx 30 0, .user labAdmin (.fund 29000 ⟨.working, 50000, "h", 1⟩)),
    (labTx 31 0, .user labAdmin (.fund 29000 ⟨.reserve, 300000, "h", 2⟩)),
    (labTx 32 0, .user labAdmin (.party ⟨⟨"e", "s", 1⟩, "X"⟩)),
    (labTx 33 0, .user labAdmin (.party ⟨⟨"e", "s", 2⟩, "Y"⟩)),
    (labTx 34 0, .user labAdmin (.affiliate ⟨⟨"e", "s", 1⟩, 0, 32000, "2h"⟩)),
    (labTx 35 0, .user labAdmin (.affiliate ⟨⟨"e", "s", 2⟩, 1000, 33000, "2h"⟩)),
    (labTx 36 0, .user labAdmin (.offerWindow 29000 ⟨"g", .working, "r", 1⟩)),
    (labTx 37 0, .user labAdmin (.acceptRoute 36006 "f"))]

/-- The consumer asks the pool for a session, which gets the identifier `1000 * (i + 1)`. -/
def labDemand (i : Nat) (ms : Int) : List (Tx × Request) := [
    (labTx i ms, .user labConsumer (.quote ⟨"m", 16, some 29000⟩)),
    (labTx (i + 1) ms, .user labConsumer
      (.createSession ⟨1000 * i, toString i, "s", 10, "m", 16, 10, 1⟩))]

/-- The session is admitted to the first route and starts to run. -/
def labStart (i : Nat) (ms : Int) : List (Tx × Request) := [
    (labTx (i + 2) ms, .gateway (.admitSession (1000 * (i + 1)))),
    (labTx (i + 3) ms, .gateway (.authorize (1000 * (i + 1)) ⟨"p", some [(2, "q")]⟩)),
    (labTx (i + 4) ms, .node 2 (.stageClaim ⟨1000 * (i + 1), 1000 * (i + 2), 1, "q"⟩)),
    (labTx (i + 5) ms, .node 1 (.claim ⟨1000 * (i + 1), 1000 * (i + 2), 1, "p"⟩))]

/-- The receipts of the stage and of the root. -/
def labReceipts (i : Nat) (ms : Int) : List (Tx × Request) := [
    (labTx (i + 6) ms, .node 2 (.stageReceipt
      ⟨1000 * (i + 1), 1000 * (i + 2), 1, "1", .completed, 1, 10, 10, "t", 100, none⟩)),
    (labTx (i + 7) ms, .node 1 (.receipt
      ⟨1000 * (i + 1), 1000 * (i + 2), 1, .completed, 100, 10, "o", true, some "stop", none, 100⟩))]

/-- The window is sampled; the session `41000` is settled, `51000` runs and `61000` waits. -/
def labWork : List (Tx × Request) :=
  labBeats 38 5000 ++ [(labTx 39 5000, .background (.reconcileRoute 36006))] ++
    labDemand 40 5000 ++ labStart 40 5000 ++ labReceipts 40 5000 ++ labDemand 50 6000 ++
    labStart 50 6000 ++ labDemand 60 7000

/-- The pool has been healthy for a day by the clock of the coordinator, which was a day behind
when it was sampled; an authorization and a mandate then expand its coverage with the window
`66039` on the route `20000`, for the session that waits. -/
def labExpansion : List (Tx × Request) :=
  labBeats 61 18000 ++ [
    ({ labTx 62 18000 with date := fun _ => 0 }, .background (.reconcilePool 29000)),
    (labTx 63 19000, .user labAdmin (.support 29000 ⟨⟨"e", "s", 3⟩, "h", "scope", "2h"⟩)),
    (labTx 64 19000, .user labAdmin (.authorizeRenewal 29000
      ⟨⟨"h", 2, "2h", 1, "r", some .expansion⟩, "g", 200, 0, some 63000⟩)),
    (labTx 65 19000, .user labAdmin (.mandate 29000
      ⟨⟨"h", 2, "2h", 1, "r", some .expansion⟩, 20000, true⟩)),
    (labTx 66 20000, .background (.attempt 64000))]

/-- The database of the laboratory after some requests. -/
def labDb (requests : List (Tx × Request)) : Db :=
  (controlSystem labEnv).run (Db.initial 0) requests

/-- What the examples' requests lead to is reachable. -/
theorem reachable_lab (requests : List (Tx × Request)) :
    Machine.Reachable (controlSystem labEnv) (labDb requests) :=
  Machine.reachable_run (M := controlSystem labEnv) (.init ⟨0, rfl⟩) requests

end NetworkAi
