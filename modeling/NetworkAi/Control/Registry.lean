import Mathlib.Data.List.Dedup
import Mathlib.Data.List.Sort
import NetworkAi.Contracts
import NetworkAi.Control.Identifiers
import NetworkAi.Lib.Table

set_option relaxedAutoImplicit false
set_option autoImplicit false

/-!
# The registry: accounts, models, machines and routes

The tables that say who and what exists, with the operations of `auth.ts`, `market.ts`,
`nodes.ts` and `routes.ts` that write them: users, published models, physical resource domains,
nodes with their epoch and presence, and complete execution routes with the consent of their
providers. The view `ready_execution_offers` reads from them what can be admitted now.

## Main definitions

* `NetworkAi.Registry` — the tables; `Registry.readyOffers` — the view.
* `NetworkAi.CompleteRoute` — what the trigger `check_complete_route` demands of the members of
  a route, carried by every `ExecutionRoute`.
* `NetworkAi.Registry.publish`, `NetworkAi.Registry.heartbeat`, … — the operations.

## Implementation notes

The rows of `route_members` are written with their route and never again, so they are a field of
it. Signatures, nonces, passwords, sessions of the browser and API keys authenticate a caller
before the operation starts; an operation gets the authenticated caller.
-/

namespace NetworkAi

open Relational

/-! ### Rows -/

/-- The roles of a user. -/
inductive Role where
  | admin | member
  deriving DecidableEq, Repr

/-- A row of `users`. -/
structure User where
  role : Role
  disabled : Bool
  lastAdmittedAt : Option Micros
  deriving DecidableEq, Repr

/-- The authenticated caller of an operation. -/
structure Actor where
  id : UserId
  role : Role
  deriving DecidableEq, Repr

/-- A row of `resource_domains`: a physical machine with its slots. -/
structure ResourceDomain where
  ownerId : UserId
  slots : Nat
  deriving DecidableEq, Repr

/-- What an administrator says of a model or a route. -/
inductive Qualification where
  | candidate | localPreview | revoked
  deriving DecidableEq, Repr

/-- A row of `models`. -/
structure Model where
  manifest : ModelManifest
  manifestSha256 : String
  state : Qualification
  publisherId : UserId
  deriving DecidableEq, Repr

/-- A node serves as a root or as a stage. -/
inductive NodeKind where
  | inference | routeRoot | rpcStage
  deriving DecidableEq, Repr

/-- What a node reports of itself. -/
inductive NodeState where
  | offline | validating | ready | paused | draining | faulted | revoked
  deriving DecidableEq, Repr

/-- What its owner asks of a node. -/
inductive DesiredState where
  | ready | paused | revoked
  deriving DecidableEq, Repr

/-- A row of `nodes`. -/
structure Node where
  ownerId : UserId
  resourceDomainId : DomainId
  modelId : String
  kind : NodeKind
  publicKey : Option String
  bootId : Option Nat
  epoch : Nat
  state : NodeState
  desiredState : DesiredState
  lastSeen : Option Micros
  loadedBackendModels : List String
  deriving DecidableEq, Repr

/-- A row of `node_invites`. -/
structure NodeInvite where
  nodeId : NodeId
  expiresAt : Micros
  consumed : Bool
  deriving DecidableEq, Repr

/-- The places of a member on a route. -/
inductive MemberRole where
  | root | stage
  deriving DecidableEq, Repr

/-- The text of a member's role. -/
def MemberRole.text : MemberRole → String
  | .root => "ROOT"
  | .stage => "STAGE"

/-- A row of `route_members`. -/
structure RouteMember where
  nodeId : NodeId
  providerId : UserId
  resourceDomainId : DomainId
  ordinal : Nat
  role : MemberRole
  shareBps : Nat
  deriving DecidableEq, Repr

/-- A member as a value. -/
def RouteMember.toJs (m : RouteMember) : Js :=
  .obj [("node_id", .uuid m.nodeId), ("provider_id", .uuid m.providerId),
    ("resource_domain_id", .uuid m.resourceDomainId), ("ordinal", .nat m.ordinal),
    ("role", .str m.role.text), ("share_bps", .nat m.shareBps)]

/-- The keys and checks of `route_members` with the trigger `check_complete_route`, as far as
they concern the members alone: 2 to 16 distinct nodes in the order of their ordinals, the first
of them the root, with shares that sum to the whole. -/
structure CompleteRoute (rootNodeId : NodeId) (members : List RouteMember) : Prop where
  length : 2 ≤ members.length ∧ members.length ≤ 16
  shares : ∀ m ∈ members, 1 ≤ m.shareBps ∧ m.shareBps ≤ 10000
  total : (members.map (·.shareBps)).sum = 10000
  ordinals : members.map (·.ordinal) = List.range members.length
  nodes : (members.map (·.nodeId)).Nodup
  roles : ∀ m ∈ members, m.role = if m.ordinal = 0 then .root else .stage
  root : ∀ m ∈ members, m.role = .root → m.nodeId = rootNodeId

instance (rootNodeId : NodeId) (members : List RouteMember) :
    Decidable (CompleteRoute rootNodeId members) :=
  decidable_of_iff
    ((2 ≤ members.length ∧ members.length ≤ 16) ∧
      (∀ m ∈ members, 1 ≤ m.shareBps ∧ m.shareBps ≤ 10000) ∧
      (members.map (·.shareBps)).sum = 10000 ∧
      members.map (·.ordinal) = List.range members.length ∧
      (members.map (·.nodeId)).Nodup ∧
      (∀ m ∈ members, m.role = if m.ordinal = 0 then .root else .stage) ∧
      ∀ m ∈ members, m.role = .root → m.nodeId = rootNodeId)
    ⟨fun ⟨h1, h2, h3, h4, h5, h6, h7⟩ => ⟨h1, h2, h3, h4, h5, h6, h7⟩,
      fun ⟨h1, h2, h3, h4, h5, h6, h7⟩ => ⟨h1, h2, h3, h4, h5, h6, h7⟩⟩

/-- A row of `execution_routes` with its members. -/
structure ExecutionRoute where
  publisherId : UserId
  name : String
  modelId : String
  manifestSha256 : String
  rootNodeId : NodeId
  routeSha256 : String
  idempotencyKey : Nat
  requestSha256 : String
  state : Qualification
  members : List RouteMember
  complete : CompleteRoute rootNodeId members
  deriving DecidableEq

/-- The root node is a member of its route. -/
theorem CompleteRoute.root_mem {root : NodeId} {members : List RouteMember}
    (h : CompleteRoute root members) : ∃ m ∈ members, m.nodeId = root ∧ m.role = .root := by
  cases members with
  | nil => have := h.length; simp at this
  | cons m l =>
    have ho := h.ordinals
    rw [List.length_cons, List.range_succ_eq_map, List.map_cons, List.cons.injEq] at ho
    have hr := h.roles m (by simp)
    rw [if_pos ho.1] at hr
    exact ⟨m, by simp, h.root m (by simp) hr, hr⟩

/-- A row of `route_acceptances`. -/
structure RouteAcceptance where
  routeSha256 : String
  withdrawnAt : Option Micros
  deriving DecidableEq, Repr

/-- The registry's tables. -/
structure Registry where
  users : Table UserId User
  domains : Table DomainId ResourceDomain
  models : Table String Model
  nodes : Table NodeId Node
  invites : Table String NodeInvite
  routes : Table RouteId ExecutionRoute
  routeAcceptances : Table (RouteId × UserId) RouteAcceptance

/-! ### The view `ready_execution_offers` -/

/-- `offer_key`: the text `node:` or `route:` with an identifier. -/
inductive OfferKey where
  | node (id : NodeId)
  | route (id : RouteId)
  deriving DecidableEq, Repr

/-- The order of the offer keys as texts. -/
def OfferKey.le : OfferKey → OfferKey → Bool
  | .node a, .node b => a ≤ b
  | .node _, .route _ => true
  | .route _, .node _ => false
  | .route a, .route b => a ≤ b

/-- A row of the view: a node or a complete route that can be admitted now. -/
structure Offer where
  key : OfferKey
  routeId : Option RouteId
  modelId : String
  rootNodeId : NodeId
  domainIds : List DomainId
  lastSeen : Option Micros
  deriving DecidableEq, Repr

/-- `DISTINCT … ORDER BY` of resource domains. -/
def distinctDomains (ids : List DomainId) : List DomainId :=
  ids.dedup.insertionSort (· ≤ ·)

/-- Every domain of a list stands among the distinct ones. -/
theorem mem_distinctDomains {d : DomainId} {ids : List DomainId} :
    d ∈ distinctDomains ids ↔ d ∈ ids := by
  rw [distinctDomains, (List.perm_insertionSort _ _).mem_iff, List.mem_dedup]

/-- The distinct domains are distinct. -/
theorem nodup_distinctDomains (ids : List DomainId) : (distinctDomains ids).Nodup := by
  rw [distinctDomains, (List.perm_insertionSort _ _).nodup_iff]
  exact List.nodup_dedup ids

namespace Registry

/-- `last_seen > now() - interval '15 seconds'`. -/
def seenRecently (now : Micros) (lastSeen : Option Micros) : Bool :=
  match lastSeen with
  | some t => now - seconds 15 < t
  | none => false

/-- A node's row of the view, if it has one. -/
def nodeOffer (r : Registry) (now : Micros) (id : NodeId) (n : Node) : Option Offer :=
  match r.models.find? n.modelId, r.users.find? n.ownerId with
  | some m, some u =>
    if n.kind = .inference ∧ u.disabled = false ∧ m.state = .localPreview ∧ n.state = .ready ∧
        n.desiredState = .ready ∧ seenRecently now n.lastSeen ∧
        m.manifest.backendModel ∈ n.loadedBackendModels then
      some { key := .node id, routeId := none, modelId := n.modelId, rootNodeId := id
             domainIds := [n.resourceDomainId], lastSeen := n.lastSeen }
    else none
  | _, _ => none

/-- A member of a route is consenting, present and ready. The node and the provider of a member
always exist (foreign keys); without them the member would not be ready. -/
def memberReady (r : Registry) (now : Micros) (id : RouteId) (route : ExecutionRoute) (m : Model)
    (rm : RouteMember) : Bool :=
  match r.nodes.find? rm.nodeId, r.users.find? rm.providerId,
    r.routeAcceptances.find? (id, rm.providerId) with
  | some p, some u, some a =>
    a.withdrawnAt = none ∧ a.routeSha256 = route.routeSha256 ∧ u.disabled = false ∧
      p.ownerId = rm.providerId ∧ p.resourceDomainId = rm.resourceDomainId ∧
      p.modelId = route.modelId ∧ p.state = .ready ∧ p.desiredState = .ready ∧
      seenRecently now p.lastSeen ∧ m.manifest.backendModel ∈ p.loadedBackendModels
  | _, _, _ => false

/-- A route's row of the view, if it has one. -/
def routeOffer (r : Registry) (now : Micros) (id : RouteId) (route : ExecutionRoute) :
    Option Offer :=
  match r.nodes.find? route.rootNodeId, r.models.find? route.modelId with
  | some n, some m =>
    if route.state = .localPreview ∧ m.state = .localPreview ∧
        m.manifestSha256 = route.manifestSha256 ∧
        ∀ rm ∈ route.members, r.memberReady now id route m rm then
      some { key := .route id, routeId := some id, modelId := route.modelId
             rootNodeId := route.rootNodeId
             domainIds := distinctDomains (route.members.map (·.resourceDomainId))
             lastSeen := n.lastSeen }
    else none
  | _, _ => none

/-- The view `ready_execution_offers`. -/
def readyOffers (r : Registry) (now : Micros) : List Offer :=
  (r.nodes.rows.filterMap fun n => r.nodeOffer now n.1 n.2) ++
    r.routes.rows.filterMap fun e => r.routeOffer now e.1 e.2

/-- `EXISTS(SELECT 1 FROM ready_execution_offers o WHERE o.route_id = id)`. -/
def routeReady (r : Registry) (now : Micros) (id : RouteId) : Bool :=
  (r.readyOffers now).any fun o => o.routeId = some id

end Registry

/-! ### Operations -/

/-- `auth.admin`. -/
def Actor.admin (user : Actor) : Except Failure Unit :=
  need (user.role = .admin) 403 "admin_required" "Esta ação requer uma conta administradora."

namespace Registry

/-- `Market.publish`. -/
def publishModel (env : Env) (r : Registry) (user : Actor) (manifest : ModelManifest) :
    Except Failure Registry := do
  parse manifest.Valid
  let digest := env.digest manifest.toJs
  constraint (∀ m ∈ r.models.rows, m.2.manifestSha256 ≠ digest) "models_manifest_sha256_key"
  let models ← reference (r.models.insert? manifest.modelId
    { manifest, manifestSha256 := digest, state := .candidate, publisherId := user.id })
    "models_pkey"
  return { r with models }

/-- `Market.qualify`. -/
def qualifyModel (r : Registry) (user : Actor) (id : String) (state : Qualification) :
    Except Failure Registry := do
  user.admin
  parse (state ≠ .candidate)
  let model ← needRow (r.models.find? id) 404 "model_missing" "Modelo não encontrado."
  return { r with models := r.models.set id { model with state } }

/-- `Market.domain`. -/
def domain (r : Registry) (user : Actor) (id : DomainId) (ownerId : UserId) (slots : Nat) :
    Except Failure Registry := do
  user.admin
  parse (1 ≤ slots ∧ slots ≤ 16)
  constraint ((r.users.find? ownerId).isSome) "resource_domains_owner_id_fkey"
  let domains ← reference (r.domains.insert? id { ownerId, slots }) "resource_domains_pkey"
  return { r with domains }

/-- `Market.invite`: a new node, with the token that will register it. -/
def invite (r : Registry) (tx : Tx) (user : Actor) (id : NodeId) (tokenHash : String)
    (ownerId : UserId) (domainId : DomainId) (modelId : String) (kind : NodeKind) :
    Except Failure Registry := do
  user.admin
  let domain ← needRow (r.domains.find? domainId) 400 "domain_owner"
    "Domínio físico não pertence ao operador informado."
  need (domain.ownerId = ownerId) 400 "domain_owner"
    "Domínio físico não pertence ao operador informado."
  constraint ((r.models.find? modelId).isSome) "nodes_model_id_fkey"
  let nodes ← reference (r.nodes.insert? id
    { ownerId, resourceDomainId := domainId, modelId, kind, publicKey := none, bootId := none
      epoch := 0, state := .offline, desiredState := .ready, lastSeen := none
      loadedBackendModels := [] }) "nodes_pkey"
  let invites ← reference (r.invites.insert? tokenHash
    { nodeId := id, expiresAt := tx.now + seconds 86400, consumed := false })
    "node_invites_pkey"
  return { r with nodes, invites }

/-- `Market.nodeState`. -/
def nodeState (r : Registry) (user : Actor) (id : NodeId) (state : DesiredState) :
    Except Failure Registry := do
  let node ← needRow (r.nodes.find? id) 404 "node_missing" "Nó não encontrado ou já revogado."
  need ((user.role = .admin ∨ node.ownerId = user.id) ∧ node.desiredState ≠ .revoked) 404
    "node_missing" "Nó não encontrado ou já revogado."
  return { r with nodes := r.nodes.set id { node with
    desiredState := state
    state := if state = .revoked then .revoked else node.state } }

/-- `Nodes.register`, past the checks of its signature. -/
def register (r : Registry) (tx : Tx) (tokenHash publicKey : String) (bootId : Nat) :
    Except Failure Registry := do
  let invite ← needRow (r.invites.find? tokenHash) 401 "invite_invalid"
    "Convite inválido ou já utilizado."
  need (invite.consumed = false ∧ tx.now < invite.expiresAt) 401 "invite_invalid"
    "Convite inválido ou já utilizado."
  let node ← needRow (r.nodes.find? invite.nodeId) 409 "node_registered"
    "Nó indisponível para registro."
  need (node.publicKey = none ∧ node.desiredState ≠ .revoked) 409 "node_registered"
    "Nó indisponível para registro."
  constraint (∀ n ∈ r.nodes.rows, n.2.publicKey ≠ some publicKey) "nodes_public_key_key"
  return { r with
    nodes := r.nodes.set invite.nodeId { node with
      publicKey := some publicKey, bootId := some bootId, epoch := node.epoch + 1
      state := .validating, lastSeen := some tx.now }
    invites := r.invites.set tokenHash { invite with consumed := true } }

/-- `Nodes.resume`: a new boot identity starts a new epoch. -/
def resume (r : Registry) (tx : Tx) (id : NodeId) (bootId : Nat) :
    Except Failure Registry := do
  let node ← needRow (r.nodes.find? id) 401 "node_revoked" "Nó revogado."
  need (node.desiredState ≠ .revoked) 401 "node_revoked" "Nó revogado."
  return { r with nodes := r.nodes.set id { node with
    epoch := if node.bootId = some bootId then node.epoch else node.epoch + 1
    bootId := some bootId, state := .validating, lastSeen := some tx.now } }

/-- `Nodes.heartbeat`. -/
def heartbeat (r : Registry) (tx : Tx) (id : NodeId) (epoch bootId : Nat)
    (state : NodeState) (loaded : List String) (profile : Option GenerationProfile) :
    Except Failure Registry := do
  parse (isPositiveInt epoch ∧ state ≠ .offline ∧ state ≠ .revoked)
  let node ← needRow (r.nodes.find? id) 409 "epoch_fenced" "Época ou identidade do nó inválida."
  need (node.epoch = epoch ∧ node.bootId = some bootId ∧ node.desiredState ≠ .revoked) 409
    "epoch_fenced" "Época ou identidade do nó inválida."
  let model ← reference (r.models.find? node.modelId) "nodes_model_id_fkey"
  let serves := model.manifest.backendModel ∈ loaded ∧
    (node.kind = .rpcStage ∨ profile = model.manifest.generationProfile)
  return { r with nodes := r.nodes.set id { node with
    lastSeen := some tx.now, loadedBackendModels := loaded
    state :=
      if node.desiredState = .paused then .paused
      else if state = .ready then (if serves then .ready else .validating)
      else state } }

end Registry

/-! ### Execution routes -/

/-- A participant of a proposed route. -/
structure Participant where
  nodeId : NodeId
  shareBps : Nat
  deriving DecidableEq, Repr

/-- The request of `Routes.publish`. -/
structure PublishRoute where
  name : String
  modelId : String
  idempotencyKey : Nat
  participants : List Participant
  deriving DecidableEq, Repr

/-- The request as a value. -/
def PublishRoute.toJs (d : PublishRoute) : Js :=
  .obj [("name", .str d.name), ("model_id", .str d.modelId),
    ("idempotency_key", .uuid d.idempotencyKey),
    ("participants", .arr (d.participants.map fun p =>
      .obj [("node_id", .uuid p.nodeId), ("share_bps", .nat p.shareBps)]))]

/-- The bounds of the request's schema. -/
def PublishRoute.Valid (d : PublishRoute) : Prop :=
  (2 ≤ d.participants.length ∧ d.participants.length ≤ 16) ∧
    ∀ p ∈ d.participants, 1 ≤ p.shareBps ∧ p.shareBps ≤ 10000

instance PublishRoute.decidableValid (d : PublishRoute) : Decidable d.Valid :=
  inferInstanceAs (Decidable (_ ∧ _))

/-- The terms of a route, which its providers accept by their hash. -/
def routeTerms (id : RouteId) (modelId manifestSha256 : String) (members : List RouteMember) : Js :=
  .obj [("protocol", .str "private-rpc-route-v1"), ("route_id", .uuid id),
    ("model_id", .str modelId), ("manifest_sha256", .str manifestSha256),
    ("participants", .arr (members.map (·.toJs))), ("provider_pool_bps", .nat 8000)]

/-- The terms column of a stored route. -/
def ExecutionRoute.terms (r : ExecutionRoute) (id : RouteId) : Js :=
  routeTerms id r.modelId r.manifestSha256 r.members

namespace Registry

/-- The member that `Routes.publish` makes of one participant. -/
def routeMember (r : Registry) (user : Actor) (d : PublishRoute) (ordinal : Nat)
    (p : Participant) : Except Failure RouteMember := do
  let node ← needRow (r.nodes.find? p.nodeId) 409 "route_node"
    "Nó incompatível com o modelo ou a função na rota."
  let owner ← reference (r.users.find? node.ownerId) "nodes_owner_id_fkey"
  need (owner.disabled = false ∧ node.modelId = d.modelId ∧ node.desiredState ≠ .revoked ∧
      node.kind = if ordinal = 0 then .routeRoot else .rpcStage) 409 "route_node"
    "Nó incompatível com o modelo ou a função na rota."
  need (ordinal = 0 → node.ownerId = user.id) 403 "route_owner"
    "Somente o dono do nó principal pode propor a rota."
  return { nodeId := p.nodeId, providerId := node.ownerId
           resourceDomainId := node.resourceDomainId, ordinal
           role := if ordinal = 0 then .root else .stage, shareBps := p.shareBps }

/-- What the trigger `check_complete_route` compares between a member and its node. -/
def memberMatches (r : Registry) (modelId : String) (m : RouteMember) : Bool :=
  match r.nodes.find? m.nodeId with
  | some n => n.ownerId = m.providerId ∧ n.resourceDomainId = m.resourceDomainId ∧
      n.modelId = modelId ∧ n.kind = if m.role = .root then .routeRoot else .rpcStage
  | none => false

/-- Insert a route with its members; the trigger `check_complete_route` runs at the commit. -/
def insertRoute (r : Registry) (user : Actor) (d : PublishRoute) (id : RouteId)
    (manifestSha256 routeSha256 requestSha256 : String) (rootNodeId : NodeId)
    (members : List RouteMember) : Except Failure Registry := do
  constraint (∀ e ∈ r.routes.rows, e.2.routeSha256 ≠ routeSha256)
    "execution_routes_route_sha256_key"
  constraint (∀ m ∈ members, r.memberMatches d.modelId m) "invalid complete route"
  if complete : CompleteRoute rootNodeId members then
    let routes ← reference (r.routes.insert? id
      { publisherId := user.id, name := d.name, modelId := d.modelId, manifestSha256, rootNodeId
        routeSha256, idempotencyKey := d.idempotencyKey, requestSha256, state := .candidate
        members, complete }) "execution_routes_pkey"
    return { r with routes }
  else
    throw (.database "invalid complete route")

/-- A new route of `Routes.publish`: its members from the current nodes, and its terms. -/
def publishNew (env : Env) (tx : Tx) (r : Registry) (user : Actor) (d : PublishRoute) :
    Except Failure Registry := do
  need ((r.routes.rows.filter fun e =>
      e.2.publisherId = user.id ∧ e.2.state ≠ .revoked).length < 32) 429 "route_limit"
    "Encerre uma rota antes de publicar outra."
  let model ← needRow (r.models.find? d.modelId) 409 "model_unavailable"
    "Qualifique o modelo antes de propor uma rota."
  need (model.state = .localPreview) 409 "model_unavailable"
    "Qualifique o modelo antes de propor uma rota."
  let members ← (d.participants.zipIdx).mapM fun p => r.routeMember user d p.2 p.1
  let root ← reference members.head? "execution_routes_root_node_id_fkey"
  let id := tx.uuid 0
  r.insertRoute user d id model.manifestSha256
    (env.digest (routeTerms id d.modelId model.manifestSha256 members)) (env.digest d.toJs)
    root.nodeId members

/-- `Routes.publish`. -/
def publish (env : Env) (tx : Tx) (r : Registry) (user : Actor) (d : PublishRoute) :
    Except Failure Registry := do
  parse d.Valid
  need ((d.participants.map (·.nodeId)).Nodup ∧ (d.participants.map (·.shareBps)).sum = 10000) 400
    "route_shares" "A rota precisa de nós distintos e participação total de 10.000 pontos-base."
  match r.routes.rows.find? fun e =>
      e.2.publisherId = user.id ∧ e.2.idempotencyKey = d.idempotencyKey with
  | some existing =>
    need (existing.2.requestSha256 = env.digest d.toJs) 409 "idempotency_conflict"
      "Identificador usado com outros termos."
    return r
  | none => r.publishNew env tx user d

/-- `Routes.accept`. -/
def accept (r : Registry) (user : Actor) (id : RouteId) (routeSha256 : String) :
    Except Failure Registry := do
  let route ← needRow (r.routes.find? id) 404 "route_missing"
    "Rota não encontrada para este operador."
  need (route.state ≠ .revoked ∧ ∃ m ∈ route.members, m.providerId = user.id) 404 "route_missing"
    "Rota não encontrada para este operador."
  need (route.routeSha256 = routeSha256) 409 "route_terms"
    "A assinatura dos termos da rota difere da revisada."
  match r.routeAcceptances.find? (id, user.id) with
  | some old =>
    need (old.withdrawnAt = none) 409 "route_withdrawn"
      "Esta participação foi retirada; uma nova proposta é necessária."
    return r
  | none =>
    let routeAcceptances ← reference (r.routeAcceptances.insert? (id, user.id)
      { routeSha256, withdrawnAt := none }) "route_acceptances_pkey"
    return { r with routeAcceptances }

/-- `Routes.withdraw`. -/
def withdraw (tx : Tx) (r : Registry) (user : Actor) (id : RouteId) :
    Except Failure Registry := do
  let old ← needRow (r.routeAcceptances.find? (id, user.id)) 404 "route_missing"
    "Participação não encontrada."
  let withdrawnAt := some (old.withdrawnAt.getD tx.now)
  return { r with
    routeAcceptances := r.routeAcceptances.set (id, user.id) { old with withdrawnAt } }

/-- A member's provider accepts exactly the terms of the route. -/
def consents (r : Registry) (id : RouteId) (route : ExecutionRoute) (m : RouteMember) : Bool :=
  match r.routeAcceptances.find? (id, m.providerId) with
  | some a => a.withdrawnAt = none ∧ a.routeSha256 = route.routeSha256
  | none => false

/-- `Routes.qualify`. -/
def qualify (r : Registry) (user : Actor) (id : RouteId) (state : Qualification) :
    Except Failure Registry := do
  user.admin
  parse (state ≠ .candidate)
  let route ← needRow (r.routes.find? id) 404 "route_missing" "Rota inexistente ou encerrada."
  need (route.state ≠ .revoked) 404 "route_missing" "Rota inexistente ou encerrada."
  if state = .localPreview then
    need (∀ e ∈ r.routes.rows, e.2.rootNodeId = route.rootNodeId → e.2.state = .localPreview →
        e.1 = id) 409 "route_root_in_use"
      "Encerre a rota anterior deste nó principal antes de qualificar a nova proposta."
    need (∀ m ∈ route.members, r.consents id route m) 409 "route_consent"
      "Todos os operadores precisam aceitar os mesmos termos."
  return { r with routes := r.routes.set id { route with state } }

/-- `Auth.createUser`: the row of `users`. -/
def createUser (r : Registry) (user : Actor) (id : UserId) (role : Role) :
    Except Failure Registry := do
  user.admin
  let users ← reference (r.users.insert? id { role, disabled := false, lastAdmittedAt := none })
    "users_pkey"
  return { r with users }

/-- The operator's statement that disables an account, or enables it again. -/
def setDisabled (r : Registry) (id : UserId) (disabled : Bool) : Except Failure Registry := do
  let row ← reference (r.users.find? id) "users_pkey"
  return { r with users := r.users.set id { row with disabled } }

end Registry

end NetworkAi
