import NetworkAi.Control.Registry
import NetworkAi.Runtime.Sse

set_option relaxedAutoImplicit false
set_option autoImplicit false

/-!
# Readiness declarations of a route

A stage without a backend of its own is ready while the coordinator declares so. The declaration
is a signed text that lives for at most four seconds and that ends six seconds after the root of
the route was last seen. The coordinator writes it in `readiness.ts`; the contributor checks it
in `readiness.mjs`, over the same members but with comparisons of its own.

## Main definitions

* `NetworkAi.Stage.Signing` — the signed texts and what the two sides use of the platform.
* `NetworkAi.Stage.verifyReadiness` — the contributor's check.
* `NetworkAi.Stage.stageReadiness` — the coordinator's declaration.

## Implementation notes

A token is the text of three parts in base64url, the third of 86 characters; any other text is
refused on both sides and is represented by its absence. An identifier of a payload is a number:
its text has the 36 characters of a UUID. The shape of a payload (the members it must have, and
no others, each of its type) is part of `Signing.payload`; the literal, range and pattern checks of
its schema are `ReadinessPayload.Valid`.
-/

namespace NetworkAi.Stage

/-! ### Patterns -/

/-- A character of `[A-Za-z0-9_-]`. -/
def isBase64Url (c : Char) : Bool := c.isAlphanum || c = '_' || c = '-'

/-- A character of `[a-f0-9]`. -/
def isLowerHex (c : Char) : Bool := c.isDigit || ('a' ≤ c && c ≤ 'f')

/-- The pattern of SHA-256 digests: `/^[a-f0-9]{64}$/`. -/
def isSha256 (s : String) : Prop := s.toList.length = 64 ∧ s.toList.all isLowerHex

/-- The pattern of nonces: `/^[A-Za-z0-9_-]{43}$/`. -/
def isNonce (s : String) : Prop := s.toList.length = 43 ∧ s.toList.all isBase64Url

instance (s : String) : Decidable (isSha256 s) := inferInstanceAs (Decidable (_ ∧ _))

instance (s : String) : Decidable (isNonce s) := inferInstanceAs (Decidable (_ ∧ _))

/-! ### Signed texts -/

/-- The header of a signed text. -/
structure TokenHeader where
  alg : String
  typ : String
  v : Nat
  deriving DecidableEq, Repr

/-- The payload of a readiness declaration. -/
structure ReadinessPayload where
  network : String
  aud : String
  version : Nat
  stageNodeId : NodeId
  stageEpoch : Nat
  routeId : RouteId
  routeSha256 : String
  manifestSha256 : String
  rootNodeId : NodeId
  rootEpoch : Nat
  rootBootId : Nat
  rootSeenMs : Int
  issuedMs : Int
  expiresMs : Int
  rpcGeneration : Nat
  requestNonce : String
  deriving DecidableEq, Repr

/-- The payload of a session capability, as far as a stage reads it. -/
structure Capability where
  network : String
  aud : String
  nodeId : NodeId
  epoch : Nat
  scope : String
  backendModel : String
  exp : Int
  sessionId : SessionId
  attemptId : Nat
  routeId : RouteId
  routeSha256 : String
  manifestSha256 : String
  prepareId : Option String
  deriving DecidableEq, Repr

/-- The number of characters that `base64url` makes of `n` bytes. -/
def base64UrlLength (n : Nat) : Nat := (4 * n + 2) / 3

/-- The bytes of a string in JSON text. -/
def stringBytes (s : String) : Nat := (utf8 (quoteString s)).length

/-- The bytes of an identifier in JSON text: its 36 characters in quotes. -/
def uuidBytes : Nat := 38

/-- The bytes of an integer in JSON text. -/
def integerBytes (n : Int) : Nat := (if n < 0 then 1 else 0) + (decimal n.natAbs).length

/-- The bytes of an object in JSON text, by its keys and the bytes of their values. -/
def objectBytes (members : List (String × Nat)) : Nat :=
  (members.map fun m => stringBytes m.1 + 1 + m.2).sum + (members.length - 1) + 2

/-- The bytes of `JSON.stringify` of a header. -/
def TokenHeader.bytes (h : TokenHeader) : Nat :=
  objectBytes [("alg", stringBytes h.alg), ("typ", stringBytes h.typ), ("v", integerBytes h.v)]

/-- The bytes of `JSON.stringify` of a payload. -/
def ReadinessPayload.bytes (p : ReadinessPayload) : Nat :=
  objectBytes [("network", stringBytes p.network), ("aud", stringBytes p.aud),
    ("version", integerBytes p.version), ("stage_node_id", uuidBytes),
    ("stage_epoch", integerBytes p.stageEpoch), ("route_id", uuidBytes),
    ("route_sha256", stringBytes p.routeSha256), ("manifest_sha256", stringBytes p.manifestSha256),
    ("root_node_id", uuidBytes), ("root_epoch", integerBytes p.rootEpoch),
    ("root_boot_id", uuidBytes), ("root_seen_ms", integerBytes p.rootSeenMs),
    ("issued_ms", integerBytes p.issuedMs), ("expires_ms", integerBytes p.expiresMs),
    ("rpc_generation", uuidBytes), ("request_nonce", stringBytes p.requestNonce)]

/-- The signed texts `header.payload`, with the functions of the platform on them. -/
structure Signing where
  /-- The texts of two parts. -/
  Text : Type
  /-- The signatures, in base64url. -/
  Signature : Type
  /-- `sign` under the coordinator's capability key. -/
  sign : Text → Signature
  /-- `verify` under the public half of that key. -/
  verify : Text → Signature → Bool
  /-- The number of characters. -/
  length : Text → Nat
  /-- The text of a header and a declaration: `JSON.stringify` of each, in base64url. -/
  write : TokenHeader → ReadinessPayload → Text
  /-- `JSON.parse` of the first part, if it has the shape of a header. -/
  header : Text → Option TokenHeader
  /-- `JSON.parse` of the second part, if it has the shape of a declaration. -/
  payload : Text → Option ReadinessPayload
  /-- `JSON.parse` of the second part, if it has the shape of a capability. -/
  capability : Text → Option Capability

/-- A text of three parts in base64url, the third of 86 characters. -/
structure Token (K : Signing) where
  text : K.Text
  signature : K.Signature

/-- The number of characters of a token. -/
def Token.length {K : Signing} (t : Token K) : Nat := K.length t.text + 1 + 86

/-! ### The contributor's check -/

/-- The route that a stage is bound to: `validateRpcBinding`. -/
structure RpcBinding where
  stageNodeId : NodeId
  routeId : RouteId
  routeSha256 : String
  manifestSha256 : String
  deriving DecidableEq, Repr

/-- Why a declaration is refused. -/
inductive ReadinessError where
  /-- `readiness_rejected`: "Invalid or expired private readiness declaration". -/
  | rejected
  /-- The header or the payload does not match its schema (`ZodError`, or no JSON text). -/
  | schema
  deriving DecidableEq, Repr

/-- `integer` of `readiness.mjs`. -/
def isInteger (n : Int) : Prop := 0 ≤ n ∧ n ≤ maxSafeInteger

instance (n : Int) : Decidable (isInteger n) := inferInstanceAs (Decidable (_ ∧ _))

/-- The schema of the header, with the check of its version. -/
def TokenHeader.Valid (h : TokenHeader) : Prop := h.alg = "EdDSA" ∧ h.typ = "NAI-READY" ∧ h.v = 1

instance (h : TokenHeader) : Decidable h.Valid := inferInstanceAs (Decidable (_ ∧ _))

/-- The literals, ranges and patterns of the schema `payload`. -/
def ReadinessPayload.Valid (p : ReadinessPayload) : Prop :=
  (p.network = "network-ai-private-lab" ∧ p.aud = "network-ai-rpc-stage-readiness" ∧
      p.version = 1) ∧
    (isInteger p.stageEpoch ∧ 0 < p.stageEpoch ∧ isInteger p.rootEpoch ∧ 0 < p.rootEpoch) ∧
    (isSha256 p.routeSha256 ∧ isSha256 p.manifestSha256 ∧ isNonce p.requestNonce) ∧
    isInteger p.rootSeenMs ∧ isInteger p.issuedMs ∧ isInteger p.expiresMs

instance (p : ReadinessPayload) : Decidable p.Valid := inferInstanceAs (Decidable (_ ∧ _))

/-- What the contributor asks a declaration to be about. -/
structure Expected where
  binding : RpcBinding
  epoch : Nat
  generation : Nat
  nonce : String
  deriving DecidableEq, Repr

/-- The declaration answers the request of the contributor. -/
def ReadinessPayload.Answers (p : ReadinessPayload) (e : Expected) : Prop :=
  p.stageNodeId = e.binding.stageNodeId ∧ p.stageEpoch = e.epoch ∧
    p.routeId = e.binding.routeId ∧ p.routeSha256 = e.binding.routeSha256 ∧
    p.manifestSha256 = e.binding.manifestSha256 ∧ p.rpcGeneration = e.generation ∧
    p.requestNonce = e.nonce

instance (p : ReadinessPayload) (e : Expected) : Decidable (p.Answers e) :=
  inferInstanceAs (Decidable (_ ∧ _))

/-- The declaration is in force at an instant of the contributor's clock. -/
def ReadinessPayload.InForce (p : ReadinessPayload) (nowMs : Int) : Prop :=
  p.rootSeenMs ≤ p.issuedMs ∧ p.issuedMs ≤ nowMs + 250 ∧ nowMs - 4000 ≤ p.issuedMs ∧
    nowMs < p.expiresMs ∧ p.issuedMs < p.expiresMs ∧ p.expiresMs ≤ p.issuedMs + 4000 ∧
    p.expiresMs ≤ p.rootSeenMs + 6000

instance (p : ReadinessPayload) (nowMs : Int) : Decidable (p.InForce nowMs) :=
  inferInstanceAs (Decidable (_ ∧ _))

/-- `verifyReadiness`. -/
def verifyReadiness (K : Signing) (token : Option (Token K)) (e : Expected) (nowMs : Int) :
    Except ReadinessError ReadinessPayload := do
  let token ← Checked.require token .rejected
  Checked.guard (token.length ≤ 3072) .rejected
  Checked.guard (K.verify token.text token.signature = true) .rejected
  let header ← Checked.require (K.header token.text) .schema
  Checked.guard header.Valid .schema
  let value ← Checked.require (K.payload token.text) .schema
  Checked.guard value.Valid .schema
  Checked.guard (value.Answers e ∧ value.InForce nowMs) .rejected
  return value

/-! ### The coordinator's declaration -/

/-- The request of `Readiness.stage`. -/
structure StageReadiness where
  epoch : Nat
  routeId : RouteId
  routeSha256 : String
  manifestSha256 : String
  rpcGeneration : Nat
  requestNonce : String
  deriving DecidableEq, Repr

/-- The schema of the request. -/
def StageReadiness.Valid (d : StageReadiness) : Prop :=
  isPositiveInt d.epoch ∧ isSha256 d.routeSha256 ∧ isSha256 d.manifestSha256 ∧
    isNonce d.requestNonce

instance (d : StageReadiness) : Decidable d.Valid := inferInstanceAs (Decidable (_ ∧ _))

/-- The row of the query: a route, its root, its model and the stage that asks. -/
structure StageRow where
  route : ExecutionRoute
  root : Node
  model : Model
  stage : Node

/-- The row of the query, if there is one. -/
def stageRow (r : Registry) (id : NodeId) (routeId : RouteId) : Option StageRow := do
  let route ← r.routes.find? routeId
  let root ← r.nodes.find? route.rootNodeId
  let model ← r.models.find? route.modelId
  let stage ← r.nodes.find? id
  if (∃ m ∈ route.members, m.nodeId = id ∧ m.role = .stage) ∧ stage.kind = .rpcStage then
    some { route, root, model, stage }
  else none

/-- A member of the route consents and could take part; it need not be ready yet. -/
def memberEligible (r : Registry) (id : RouteId) (route : ExecutionRoute) (m : RouteMember) : Bool :=
  match r.nodes.find? m.nodeId, r.users.find? m.providerId with
  | some part, some u =>
    match r.routeAcceptances.find? (id, m.providerId) with
    | some a =>
      a.withdrawnAt = none ∧ a.routeSha256 = route.routeSha256 ∧ u.disabled = false ∧
        part.ownerId = m.providerId ∧ part.resourceDomainId = m.resourceDomainId ∧
        part.modelId = route.modelId ∧ part.desiredState = .ready
    | none => false
  | _, _ => true

/-- The column `eligible` of the query. -/
def StageRow.eligible (r : Registry) (id : RouteId) (row : StageRow) : Bool :=
  row.route.state = .localPreview ∧ row.model.state = .localPreview ∧
    row.model.manifestSha256 = row.route.manifestSha256 ∧ row.root.kind = .routeRoot ∧
    row.root.publicKey ≠ none ∧ row.root.bootId ≠ none ∧ row.root.state = .ready ∧
    row.root.desiredState = .ready ∧ 0 < row.root.epoch ∧
    row.model.manifest.backendModel ∈ row.root.loadedBackendModels ∧
    ∀ m ∈ row.route.members, memberEligible r id row.route m

/-- The part of `Readiness.stage` up to the payload; nothing if the route is not ready. -/
def readinessPayload (r : Registry) (tx : Tx) (id : NodeId) (data : StageReadiness) :
    Except Failure (Option ReadinessPayload) := do
  parse data.Valid
  let row ← needRow (stageRow r id data.routeId) 403 "stage_readiness_scope"
    "A declaração não pertence à rota e ao modelo deste nó."
  need (row.route.routeSha256 = data.routeSha256 ∧ row.route.manifestSha256 = data.manifestSha256)
    403 "stage_readiness_scope" "A declaração não pertence à rota e ao modelo deste nó."
  need (row.stage.epoch = data.epoch ∧ row.stage.desiredState ≠ .revoked) 409 "epoch_fenced"
    "A época do nó mudou."
  let now := tx.clock 0
  -- `Number(null)` is zero
  let seen := (row.root.lastSeen.map toMs).getD 0
  let expires := min (now + 4000) (seen + 6000)
  if row.eligible r data.routeId = false ∨ ¬ (seen.natAbs ≤ maxSafeInteger) ∨ now < seen ∨
      expires ≤ now + 250 then
    return none
  else
    return some {
      network := "network-ai-private-lab"
      aud := "network-ai-rpc-stage-readiness"
      version := 1
      stageNodeId := id
      stageEpoch := data.epoch
      routeId := data.routeId
      routeSha256 := row.route.routeSha256
      manifestSha256 := row.route.manifestSha256
      rootNodeId := row.route.rootNodeId
      rootEpoch := row.root.epoch
      rootBootId := row.root.bootId.getD 0
      rootSeenMs := seen
      issuedMs := now
      expiresMs := expires
      rpcGeneration := data.rpcGeneration
      requestNonce := data.requestNonce }

/-- The header of a declaration. -/
def readinessHeader : TokenHeader := ⟨"EdDSA", "NAI-READY", 1⟩

/-- A payload with its signature. -/
def signReadiness (K : Signing) (p : ReadinessPayload) : Token K :=
  ⟨K.write readinessHeader p, K.sign (K.write readinessHeader p)⟩

/-- `Readiness.stage`: the lease, if the route is ready. -/
def stageReadiness (K : Signing) (r : Registry) (tx : Tx) (id : NodeId) (data : StageReadiness) :
    Except Failure (Option (Token K)) :=
  (Option.map (signReadiness K)) <$> readinessPayload r tx id data

end NetworkAi.Stage
