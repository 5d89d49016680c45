import NetworkAi.Control.Registry

set_option relaxedAutoImplicit false
set_option autoImplicit false

/-!
# The registry only grows

No operation deletes a row of the registry, and what identifies a row never changes: a domain
keeps its slots, a node its owner, machine and model, a route its members and terms.

## Main definitions

* `NetworkAi.Registry.Evolves` — what one operation may do to the registry.
* `NetworkAi.Registry.Operates` — the same of an operation that admits nobody.
* `NetworkAi.Registry.Sound` — what holds of every registry that operations built.

## Main results

* `NetworkAi.Registry.Evolves.sound` — an operation keeps the registry sound.
* `NetworkAi.Registry.publishNew_operates` and its like — each operation of the registry.
-/

namespace NetworkAi

open Relational

/-- A user keeps the role. -/
structure User.Same (u u' : User) : Prop where
  role : u'.role = u.role

/-- A user keeps the time of the last admission. -/
structure User.SameTurn (u u' : User) : Prop where
  turn : u'.lastAdmittedAt = u.lastAdmittedAt

/-- A model keeps its manifest and the hash of it. -/
structure Model.Same (m m' : Model) : Prop where
  manifest : m'.manifest = m.manifest
  sha : m'.manifestSha256 = m.manifestSha256

/-- A node keeps its owner, machine, model and kind, and its epoch does not go back. -/
structure Node.Same (n n' : Node) : Prop where
  owner : n'.ownerId = n.ownerId
  domain : n'.resourceDomainId = n.resourceDomainId
  model : n'.modelId = n.modelId
  kind : n'.kind = n.kind
  epoch : n.epoch ≤ n'.epoch

/-- A route keeps its members and terms. -/
structure ExecutionRoute.Same (e e' : ExecutionRoute) : Prop where
  model : e'.modelId = e.modelId
  manifest : e'.manifestSha256 = e.manifestSha256
  root : e'.rootNodeId = e.rootNodeId
  members : e'.members = e.members
  sha : e'.routeSha256 = e.routeSha256

/-- An acceptance of a route keeps its terms, and a withdrawn one stays withdrawn. -/
structure RouteAcceptance.Same (a a' : RouteAcceptance) : Prop where
  sha : a'.routeSha256 = a.routeSha256
  withdrawn : a.withdrawnAt ≠ none → a'.withdrawnAt ≠ none

/-- A user that was left as it is has the same role. -/
theorem User.Same.refl (u : User) : u.Same u := ⟨rfl⟩

/-- A user that was left as it is has the same turn. -/
theorem User.SameTurn.refl (u : User) : u.SameTurn u := ⟨rfl⟩

/-- A model that was left as it is has the same manifest. -/
theorem Model.Same.refl (m : Model) : m.Same m := ⟨rfl, rfl⟩

/-- A node that was left as it is has the same origin and epoch. -/
theorem Node.Same.refl (n : Node) : n.Same n := ⟨rfl, rfl, rfl, rfl, le_rfl⟩

/-- A route that was left as it is has the same terms. -/
theorem ExecutionRoute.Same.refl (e : ExecutionRoute) : e.Same e := ⟨rfl, rfl, rfl, rfl, rfl⟩

/-- An acceptance that was left as it is has the same terms. -/
theorem RouteAcceptance.Same.refl (a : RouteAcceptance) : a.Same a := ⟨rfl, id⟩

namespace Registry

/-- What one operation may do to the registry. -/
structure Evolves (env : Env) (r r' : Registry) : Prop where
  users : r.users.Grows User.Same (fun _ _ => True) r'.users
  domains : r.domains.Grows Eq (fun _ _ => True) r'.domains
  models : r.models.Grows Model.Same (fun _ m => m.manifest.Valid ∧
    m.manifestSha256 = env.digest m.manifest.toJs) r'.models
  nodes : r.nodes.Grows Node.Same (fun _ n => (r.domains.find? n.resourceDomainId).isSome) r'.nodes
  routes : r.routes.Grows ExecutionRoute.Same (fun id e => e.routeSha256 = env.digest (e.terms id) ∧
    ∀ m ∈ e.members, r.memberMatches e.modelId m = true) r'.routes
  acceptances : r.routeAcceptances.Grows RouteAcceptance.Same (fun _ _ => True) r'.routeAcceptances

/-- No user's last admission changes; a new user has had none. -/
def KeepsTurns (r r' : Registry) : Prop :=
  r.users.Grows User.SameTurn (fun _ u => u.lastAdmittedAt = none) r'.users

/-- What an operation of the registry that admits nobody may do to it. -/
structure Operates (env : Env) (r r' : Registry) : Prop extends r.Evolves env r' where
  turns : r.KeepsTurns r'

/-- A registry whose hashes are those of its documents, whose manifests are valid, whose nodes
stand on registered machines and whose routes have existing nodes as members. -/
structure Sound (env : Env) (r : Registry) : Prop where
  manifests : ∀ id m, r.models.find? id = some m → m.manifest.Valid
  models : ∀ id m, r.models.find? id = some m → m.manifestSha256 = env.digest m.manifest.toJs
  nodes : ∀ id n, r.nodes.find? id = some n → (r.domains.find? n.resourceDomainId).isSome
  terms : ∀ id e, r.routes.find? id = some e → e.routeSha256 = env.digest (e.terms id)
  members : ∀ id e, r.routes.find? id = some e → ∀ m ∈ e.members,
    ∃ n, r.nodes.find? m.nodeId = some n ∧ n.ownerId = m.providerId ∧
      n.resourceDomainId = m.resourceDomainId

variable {env : Env} {r r' : Registry}

/-- A registry that was left as it is evolves. -/
theorem Evolves.refl (env : Env) (r : Registry) : r.Evolves env r where
  users := .refl User.Same.refl _
  domains := .refl (fun _ => rfl) _
  models := .refl Model.Same.refl _
  nodes := .refl Node.Same.refl _
  routes := .refl ExecutionRoute.Same.refl _
  acceptances := .refl RouteAcceptance.Same.refl _

/-- A registry that was left as it is keeps the users' turns. -/
theorem KeepsTurns.refl (r : Registry) : r.KeepsTurns r :=
  Table.Grows.refl User.SameTurn.refl r.users

/-- A registry that was left as it is was operated on. -/
theorem Operates.refl (env : Env) (r : Registry) : r.Operates env r where
  toEvolves := .refl env r
  turns := .refl r

/-- A machine stays registered. -/
theorem Evolves.domain_isSome (h : r.Evolves env r') {d : DomainId}
    (hd : (r.domains.find? d).isSome) : (r'.domains.find? d).isSome :=
  h.domains.isSome hd

/-- **An operation keeps the registry sound.** -/
theorem Evolves.sound (h : r.Evolves env r') (hs : r.Sound env) : r'.Sound env where
  manifests id m hm := by
    rcases h.models.cases hm with ⟨m₀, hm₀, hsame⟩ | ⟨-, hnew, -⟩
    · rw [hsame.manifest]
      exact hs.manifests id m₀ hm₀
    · exact hnew
  models id m hm := by
    rcases h.models.cases hm with ⟨m₀, hm₀, hsame⟩ | ⟨-, -, hnew⟩
    · rw [hsame.sha, hsame.manifest, hs.models id m₀ hm₀]
    · exact hnew
  nodes id n hn := by
    rcases h.nodes.cases hn with ⟨n₀, hn₀, hsame⟩ | ⟨-, hnew⟩
    · rw [hsame.domain]
      exact h.domain_isSome (hs.nodes id n₀ hn₀)
    · exact h.domain_isSome hnew
  terms id e he := by
    rcases h.routes.cases he with ⟨e₀, he₀, hsame⟩ | ⟨-, hnew, -⟩
    · rw [hsame.sha, hs.terms id e₀ he₀]
      simp only [ExecutionRoute.terms, hsame.model, hsame.manifest, hsame.members]
    · exact hnew
  members id e he m hm := by
    have hold : ∃ n, r.nodes.find? m.nodeId = some n ∧ n.ownerId = m.providerId ∧
        n.resourceDomainId = m.resourceDomainId := by
      rcases h.routes.cases he with ⟨e₀, he₀, hsame⟩ | ⟨-, -, hnew⟩
      · exact hs.members id e₀ he₀ m (hsame.members ▸ hm)
      · have hmatch := hnew m hm
        unfold memberMatches at hmatch
        split at hmatch
        · rename_i n hn
          simp only [decide_eq_true_eq] at hmatch
          exact ⟨n, hn, hmatch.1, hmatch.2.1⟩
        · cases hmatch
    obtain ⟨n, hn, ho, hd⟩ := hold
    obtain ⟨n', hn', hsame⟩ := h.nodes.old hn
    exact ⟨n', hn', hsame.owner.trans ho, hsame.domain.trans hd⟩

/-! ### The operations -/

/-- A published model is one more row, with a manifest that is valid. -/
theorem publishModel_operates {user : Actor} {manifest : ModelManifest}
    (h : r.publishModel env user manifest = .ok r') : r.Operates env r' := by
  unfold publishModel at h
  simp only [Checked.bind_ok, parse_ok, constraint_ok, reference_ok, Checked.pure_ok,
    exists_const, Table.insert?_eq_some] at h
  obtain ⟨hvalid, -, _, ⟨hnew, rfl⟩, rfl⟩ := h
  exact { Operates.refl env r with models := .insert Model.Same.refl hnew ⟨hvalid, rfl⟩ }

/-- A qualification of a model keeps its manifest. -/
theorem qualifyModel_operates {user : Actor} {id : String} {state : Qualification}
    (h : r.qualifyModel user id state = .ok r') : r.Operates env r' := by
  unfold qualifyModel Actor.admin at h
  simp only [Checked.bind_ok, parse_ok, need_ok, needRow_ok, Checked.pure_ok, exists_const] at h
  obtain ⟨-, -, model, hmodel, rfl⟩ := h
  exact { Operates.refl env r with models := .set Model.Same.refl hmodel ⟨rfl, rfl⟩ }

/-- A domain is one more row. -/
theorem domain_operates {user : Actor} {id : DomainId} {owner : UserId} {slots : Nat}
    (h : r.domain user id owner slots = .ok r') : r.Operates env r' := by
  unfold domain Actor.admin at h
  simp only [Checked.bind_ok, parse_ok, need_ok, constraint_ok, reference_ok, Checked.pure_ok,
    exists_const, Table.insert?_eq_some] at h
  obtain ⟨-, -, -, _, ⟨hnew, rfl⟩, rfl⟩ := h
  exact { Operates.refl env r with domains := .insert (fun _ => rfl) hnew trivial }

/-- An invited node is one more row, without an epoch. -/
theorem invite_operates {tx : Tx} {user : Actor} {id : NodeId} {tokenHash : String}
    {owner : UserId} {domainId : DomainId} {model : String} {kind : NodeKind}
    (h : r.invite tx user id tokenHash owner domainId model kind = .ok r') :
    r.Operates env r' := by
  unfold invite Actor.admin at h
  simp only [Checked.bind_ok, need_ok, needRow_ok, constraint_ok, reference_ok, Checked.pure_ok,
    exists_const, Table.insert?_eq_some] at h
  obtain ⟨-, row, hrow, -, -, _, ⟨hnew, rfl⟩, _, ⟨-, rfl⟩, rfl⟩ := h
  exact { Operates.refl env r with nodes := .insert Node.Same.refl hnew (by simp [hrow]) }

/-- A desired state keeps the origin and the epoch of a node. -/
theorem nodeState_operates {user : Actor} {id : NodeId} {state : DesiredState}
    (h : r.nodeState user id state = .ok r') : r.Operates env r' := by
  unfold nodeState at h
  simp only [Checked.bind_ok, need_ok, needRow_ok, Checked.pure_ok, exists_const] at h
  obtain ⟨node, hnode, -, rfl⟩ := h
  exact { Operates.refl env r with
    nodes := .set Node.Same.refl hnode ⟨rfl, rfl, rfl, rfl, le_rfl⟩ }

/-- A registration raises the epoch of a node. -/
theorem register_operates {tx : Tx} {tokenHash publicKey : String} {bootId : Nat}
    (h : r.register tx tokenHash publicKey bootId = .ok r') : r.Operates env r' := by
  unfold register at h
  simp only [Checked.bind_ok, need_ok, needRow_ok, constraint_ok, Checked.pure_ok,
    exists_const] at h
  obtain ⟨invite, -, -, node, hnode, -, -, rfl⟩ := h
  exact { Operates.refl env r with
    nodes := .set Node.Same.refl hnode ⟨rfl, rfl, rfl, rfl, Nat.le_succ _⟩ }

/-- A resumption raises the epoch of a node that started anew. -/
theorem resume_operates {tx : Tx} {id : NodeId} {bootId : Nat}
    (h : r.resume tx id bootId = .ok r') : r.Operates env r' := by
  unfold resume at h
  simp only [Checked.bind_ok, need_ok, needRow_ok, Checked.pure_ok, exists_const] at h
  obtain ⟨node, hnode, -, rfl⟩ := h
  refine { Operates.refl env r with
    nodes := .set Node.Same.refl hnode ⟨rfl, rfl, rfl, rfl, ?_⟩ }
  show node.epoch ≤ if node.bootId = some bootId then node.epoch else node.epoch + 1
  split <;> omega

/-- A heartbeat keeps the origin and the epoch of a node. -/
theorem heartbeat_operates {tx : Tx} {id : NodeId} {epoch bootId : Nat} {state : NodeState}
    {loaded : List String} {profile : Option GenerationProfile}
    (h : r.heartbeat tx id epoch bootId state loaded profile = .ok r') : r.Operates env r' := by
  unfold heartbeat at h
  simp only [Checked.bind_ok, parse_ok, need_ok, needRow_ok, reference_ok, Checked.pure_ok,
    exists_const] at h
  obtain ⟨-, node, hnode, -, model, -, rfl⟩ := h
  exact { Operates.refl env r with
    nodes := .set Node.Same.refl hnode ⟨rfl, rfl, rfl, rfl, le_rfl⟩ }

/-- A new route is one more row, whose hash is the digest of its terms. -/
theorem insertRoute_operates {user : Actor} {d : PublishRoute} {id : RouteId}
    {manifestSha routeSha requestSha : String} {root : NodeId} {members : List RouteMember}
    (hsha : routeSha = env.digest (routeTerms id d.modelId manifestSha members))
    (h : r.insertRoute user d id manifestSha routeSha requestSha root members = .ok r') :
    r.Operates env r' := by
  unfold insertRoute at h
  simp only [Checked.bind_ok, constraint_ok, exists_const] at h
  obtain ⟨-, hmatch, h⟩ := h
  split at h
  · simp only [Checked.bind_ok, reference_ok, Checked.pure_ok, Table.insert?_eq_some] at h
    obtain ⟨_, ⟨hnew, rfl⟩, rfl⟩ := h
    exact { Operates.refl env r with
      routes := .insert ExecutionRoute.Same.refl hnew ⟨hsha, hmatch⟩ }
  · simp only [Checked.throw_ok] at h

/-- A new route's terms are of nodes that the registry has. -/
theorem publishNew_operates {tx : Tx} {user : Actor} {d : PublishRoute}
    (h : r.publishNew env tx user d = .ok r') : r.Operates env r' := by
  unfold publishNew at h
  simp only [Checked.bind_ok, need_ok, needRow_ok, reference_ok, exists_const] at h
  obtain ⟨-, model, -, -, members, -, root, -, h⟩ := h
  exact insertRoute_operates rfl h

/-- A route that was sent before changes nothing; a new one is one more row. -/
theorem publish_operates {tx : Tx} {user : Actor} {d : PublishRoute}
    (h : r.publish env tx user d = .ok r') : r.Operates env r' := by
  unfold publish at h
  simp only [Checked.bind_ok, parse_ok, need_ok, exists_const] at h
  obtain ⟨-, -, h⟩ := h
  split at h
  · simp only [Checked.bind_ok, need_ok, Checked.pure_ok, exists_const] at h
    obtain ⟨-, rfl⟩ := h
    exact .refl env r
  · exact publishNew_operates h

/-- An acceptance is one more row, or a row that is as before. -/
theorem accept_operates {user : Actor} {id : RouteId} {sha : String}
    (h : r.accept user id sha = .ok r') : r.Operates env r' := by
  unfold accept at h
  simp only [Checked.bind_ok, need_ok, needRow_ok, exists_const] at h
  obtain ⟨route, -, -, -, h⟩ := h
  split at h
  · simp only [Checked.bind_ok, need_ok, Checked.pure_ok, exists_const] at h
    obtain ⟨-, rfl⟩ := h
    exact .refl env r
  · simp only [Checked.bind_ok, reference_ok, Checked.pure_ok, Table.insert?_eq_some] at h
    obtain ⟨_, ⟨hnew, rfl⟩, rfl⟩ := h
    exact { Operates.refl env r with
      acceptances := .insert RouteAcceptance.Same.refl hnew trivial }

/-- A withdrawal closes an acceptance. -/
theorem withdraw_operates {tx : Tx} {user : Actor} {id : RouteId}
    (h : r.withdraw tx user id = .ok r') : r.Operates env r' := by
  unfold withdraw at h
  simp only [Checked.bind_ok, needRow_ok, Checked.pure_ok] at h
  obtain ⟨old, hold, rfl⟩ := h
  exact { Operates.refl env r with
    acceptances := .set RouteAcceptance.Same.refl hold ⟨rfl, fun _ => Option.some_ne_none _⟩ }

/-- A qualification of a route keeps its terms. -/
theorem qualify_operates {user : Actor} {id : RouteId} {state : Qualification}
    (h : r.qualify user id state = .ok r') : r.Operates env r' := by
  unfold qualify Actor.admin at h
  simp only [Checked.bind_ok, parse_ok, need_ok, needRow_ok, exists_const] at h
  obtain ⟨-, -, route, hroute, -, h⟩ := h
  have hr : r' = { r with routes := r.routes.set id { route with state } } := by
    split at h
    · simp only [Checked.bind_ok, need_ok, Checked.pure_ok, exists_const] at h
      exact h.2.2.symm
    · simp only [Checked.pure_ok] at h
      exact h.symm
  rw [hr]
  exact { Operates.refl env r with
    routes := .set ExecutionRoute.Same.refl hroute ⟨rfl, rfl, rfl, rfl, rfl⟩ }

/-- A created user is one more row. -/
theorem createUser_operates {user : Actor} {id : UserId} {role : Role}
    (h : r.createUser user id role = .ok r') : r.Operates env r' := by
  unfold createUser Actor.admin at h
  simp only [Checked.bind_ok, need_ok, reference_ok, Checked.pure_ok, exists_const,
    Table.insert?_eq_some] at h
  obtain ⟨-, _, ⟨hnew, rfl⟩, rfl⟩ := h
  exact { Operates.refl env r with
    users := .insert User.Same.refl hnew trivial
    turns := Table.Grows.insert User.SameTurn.refl hnew rfl }

/-- A disabled user keeps its role and turn. -/
theorem setDisabled_operates {id : UserId} {disabled : Bool}
    (h : r.setDisabled id disabled = .ok r') : r.Operates env r' := by
  unfold setDisabled at h
  simp only [Checked.bind_ok, reference_ok, Checked.pure_ok] at h
  obtain ⟨row, hrow, rfl⟩ := h
  exact { Operates.refl env r with
    users := .set User.Same.refl hrow ⟨rfl⟩
    turns := Table.Grows.set User.SameTurn.refl hrow ⟨rfl⟩ }

/-- An admission records the turn of its user. -/
theorem admitted_evolves (env : Env) (r : Registry) (user : UserId) (turn : Option Micros) :
    r.Evolves env
      { r with users := r.users.modify user fun u => { u with lastAdmittedAt := turn } } :=
  { Evolves.refl env r with users := .modify User.Same.refl fun _ _ => ⟨rfl⟩ }

end Registry

end NetworkAi
