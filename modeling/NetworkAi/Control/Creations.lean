import NetworkAi.Control.RenewalMoves

set_option relaxedAutoImplicit false
set_option autoImplicit false

/-!
# Creations under a key

Twelve endpoints create a record under an idempotency key of the caller. Each looks for the record
first: if it is there, the request is answered from it, when it is the same request, and refused
otherwise. The two ways to offer a window of a route look in the same table, a window of a pool
under the creator of the pool.

## Main definitions

* `NetworkAi.Creation` — the requests that create a record under a key.
* `NetworkAi.CreationKey`, `NetworkAi.Db.recorded` — where a record is found, and what is recorded.
* `NetworkAi.Creation.Accepted` — what an endpoint checks before it looks for the record.
* `NetworkAi.Creation.Agrees` — the record is of the same request.

## Main results

* `NetworkAi.Creation.run_recorded` — a request under a key with a record.
* `NetworkAi.Creation.run_fresh` — the record that a request under a new key leaves.
-/

namespace NetworkAi

open Relational

/-! ### Requests and keys -/

/-- The requests that create a record under a key. -/
inductive Creation where
  | session (d : CreateRequest)
  | nodeLease (d : LeaseOffer)
  | routeLease (d : RouteOffer)
  | plan (d : PlanRequest)
  | funding (id : PoolId) (d : FundRequest)
  | window (id : PoolId) (d : WindowRequest)
  | authorization (id : PoolId) (d : AuthorizationRequest)
  | mandate (id : PoolId) (d : MandateRequest)
  | party (d : PartyRequest)
  | affiliation (d : AffiliationRequest)
  | support (id : PoolId) (d : SupportRequest)
  | grant (d : GrantRequest)

/-- The request that a user sends. -/
def Creation.request : Creation → UserRequest
  | .session d => .createSession d
  | .nodeLease d => .offerLease d
  | .routeLease d => .offerRoute d
  | .plan d => .createPool d
  | .funding id d => .fund id d
  | .window id d => .offerWindow id d
  | .authorization id d => .authorizeRenewal id d
  | .mandate id d => .mandate id d
  | .party d => .party d
  | .affiliation d => .affiliate d
  | .support id d => .support id d
  | .grant d => .grant d

/-- What the endpoint answers, with the identifier of the record. -/
def Creation.run (env : Env) (tx : Tx) (db : Db) (user : Actor) :
    Creation → Except Failure (Nat × Db)
  | .session d => createSession env tx db user d
  | .nodeLease d => offerLease env tx db user d
  | .routeLease d => offerRoute env tx db user d
  | .plan d => createPool env tx db user d
  | .funding id d => fundPool env tx db user id d
  | .window id d => offerWindow env tx db user id d
  | .authorization id d => authorizeRenewal env tx db user id d
  | .mandate id d => mandateProvider env tx db user id d
  | .party d => declareParty env tx db user d
  | .affiliation d => affiliate env tx db user d
  | .support id d => declareSupport env tx db user id d
  | .grant d => NetworkAi.grant env tx db user d

/-- The endpoint of the request is the one that the coordinator runs. -/
theorem Creation.performUser_request (env : Env) (tx : Tx) (db : Db) (user : Actor)
    (c : Creation) : performUser env tx db user c.request = Prod.snd <$> c.run env tx db user := by
  cases c <;> rfl

/-- Where a record is found: the table, the owner of the record and the key. -/
inductive CreationKey where
  | session (user : UserId) (key : String)
  | nodeLease (sponsor : UserId) (key : String)
  | routeLease (sponsor : UserId) (key : Nat)
  | plan (creator : UserId) (key : Nat)
  | funding (user : UserId) (key : Nat)
  | authorization (user : UserId) (key : Nat)
  | mandate (provider : UserId) (key : Nat)
  | party (user : UserId) (key : Nat)
  | affiliation (user : UserId) (key : Nat)
  | support (user : UserId) (key : Nat)
  | grant (key : Nat)
  deriving DecidableEq, Repr

/-- What is recorded of a request: the identifier of the record, the digest of the request, the
digest of the request to the pool behind a window, and the text of a grant. -/
structure Recorded where
  id : Nat
  request : Option String
  window : Option String
  grant : Option (List Char)
  deriving DecidableEq, Repr

/-- The record under a key. -/
def Db.recorded (db : Db) : CreationKey → Option Recorded
  | .session user key =>
    (db.sessions.rows.find? fun s => s.2.userId = user ∧ s.2.idempotencyKey = key).map
      fun s => ⟨s.1, some s.2.requestSha256, none, none⟩
  | .nodeLease sponsor key =>
    (db.nodeLeases.rows.find? fun l => l.2.sponsorId = sponsor ∧ l.2.idempotencyKey = key).map
      fun l => ⟨l.1, some l.2.requestSha256, none, none⟩
  | .routeLease sponsor key =>
    (db.routeLeases.rows.find? fun l => l.2.sponsorId = sponsor ∧ l.2.idempotencyKey = key).map
      fun l => ⟨l.1, some l.2.requestSha256, l.2.terms.cooperative.map (·.requestSha256), none⟩
  | .plan creator key =>
    (db.pools.rows.find? fun p => p.2.creatorId = creator ∧ p.2.idempotencyKey = key).map
      fun p => ⟨p.1, some p.2.requestSha256, none, none⟩
  | .funding user key =>
    (db.fundings.rows.find? fun f => f.2.userId = user ∧ f.2.idempotencyKey = key).map
      fun f => ⟨f.1, some f.2.requestSha256, none, none⟩
  | .authorization user key =>
    (db.authorizations.rows.find? fun a => a.2.authorizedBy = user ∧ a.2.idempotencyKey = key).map
      fun a => ⟨a.1, some a.2.requestSha256, none, none⟩
  | .mandate provider key =>
    (db.mandates.rows.find? fun m => m.2.providerId = provider ∧ m.2.idempotencyKey = key).map
      fun m => ⟨m.1, some m.2.requestSha256, none, none⟩
  | .party user key =>
    (db.parties.rows.find? fun p => p.2.createdBy = user ∧ p.2.idempotencyKey = key).map
      fun p => ⟨p.1, some p.2.requestSha256, none, none⟩
  | .affiliation user key =>
    (db.affiliations.rows.find? fun a => a.2.createdBy = user ∧ a.2.idempotencyKey = key).map
      fun a => ⟨a.1, some a.2.requestSha256, none, none⟩
  | .support user key =>
    (db.supports.rows.find? fun s => s.2.createdBy = user ∧ s.2.idempotencyKey = key).map
      fun s => ⟨s.1, some s.2.requestSha256, none, none⟩
  | .grant key =>
    (db.books.findKey (.grant key)).bind fun j => (db.books.journal.find? j).map
      fun row => ⟨j, none, none, row.info.grant.map (canonical ·.toJs)⟩

/-- The key of a request: the owner is the caller, of a window the creator of the pool, and an
administrative grant has none. -/
def Creation.key (db : Db) (user : Actor) : Creation → Option CreationKey
  | .session d => some (.session user.id d.idempotencyKey)
  | .nodeLease d => some (.nodeLease user.id d.idempotencyKey)
  | .routeLease d => some (.routeLease user.id d.idempotencyKey)
  | .plan d => some (.plan user.id d.idempotencyKey)
  | .funding _ d => some (.funding user.id d.idempotencyKey)
  | .window id d => (db.pools.find? id).map fun p => .routeLease p.creatorId d.idempotencyKey
  | .authorization _ d => some (.authorization user.id d.idempotencyKey)
  | .mandate _ d => some (.mandate user.id d.idempotencyKey)
  | .party d => some (.party user.id d.idempotencyKey)
  | .affiliation d => some (.affiliation user.id d.idempotencyKey)
  | .support _ d => some (.support user.id d.idempotencyKey)
  | .grant d => some (.grant d.idempotencyKey)

/-- What an endpoint checks before it looks for the record: the bounds of the request, the role of
the caller, and the pool that the request names. -/
def Creation.Accepted (db : Db) (user : Actor) : Creation → Prop
  | .session d => d.Valid
  | .nodeLease d => d.Valid ∧ d.rate * d.durationSeconds ≤ maxAmount
  | .routeLease d => d.Valid ∧ d.rate * d.durationSeconds ≤ maxAmount
  | .plan d => d.Valid
  | .funding _ d => isAmount d.amount ∧ 0 < d.amount
  | .window id _ => ∃ p, db.pools.find? id = some p ∧ (p.creatorId = user.id ∨ user.role = .admin)
  | .authorization id d => d.Valid ∧
    (if d.kind = .expansion then d.operatingSupportId.isSome ∧ d.maximumReserve = 0
      else d.operatingSupportId = none) ∧
    ∃ p, db.pools.find? id = some p ∧ (user.id = p.creatorId ∨ user.role = .admin)
  | .mandate id d => (1 ≤ d.maximumWindows ∧ d.maximumWindows ≤ 10000) ∧
    (d.expansionConsent = true ↔ d.kind = .expansion) ∧ ∃ p, db.pools.find? id = some p
  | .party _ | .affiliation _ => user.role = .admin
  | .support id _ => user.role = .admin ∧ ∃ p, db.pools.find? id = some p
  | .grant d => user.role = .admin ∧ isAmount d.amount ∧ 0 < d.amount ∧ d.amount ≤ 1000000000

/-- The record is of the same request: it has the digest of the request, of a window the digest of
the request to the pool, and of a grant its canonical text. -/
def Creation.Agrees (env : Env) (r : Recorded) : Creation → Prop
  | .session d => r.request = some d.requestSha256
  | .nodeLease d => r.request = some (env.digest d.toJs)
  | .routeLease d => r.request = some (env.digest (d.toJs env none))
  | .plan d => r.request = some (env.digest d.toJs)
  | .funding id d => r.request = some (env.digest (d.toJs id))
  | .window id d => r.window = some (env.digest (d.toJs id .none))
  | .authorization id d => r.request = some (env.digest (d.toJs id))
  | .mandate id d => r.request = some (env.digest (d.toJs id))
  | .party d => r.request = some (env.digest d.toJs)
  | .affiliation d => r.request = some (env.digest d.toJs)
  | .support id d => r.request = some (env.digest (d.toJs id))
  | .grant d => r.grant = some (canonical d.toJs)

variable {env : Env} {tx : Tx} {db db' : Db} {user : Actor} {c : Creation} {k : CreationKey}
  {r : Recorded} {n : Nat}

/-! ### Requests under a key with a record -/

/-- **A request under a key with a record** is answered from the record, without any effect, when
it is accepted and the record is of the same request, and refused otherwise.

**Proof sketch.** One case per endpoint. It looks for its key right after its first checks and finds
the row of the record; the answer is then the id of that row, if the digest is the same. -/
theorem Creation.run_recorded (hk : c.key db user = some k) (hr : db.recorded k = some r) :
    c.run env tx db user = .ok (n, db') ↔
      c.Accepted db user ∧ c.Agrees env r ∧ n = r.id ∧ db' = db := by
  cases c with
  | session d =>
    obtain rfl := Option.some.inj hk
    obtain ⟨row, hrow, rfl⟩ := Option.map_eq_some_iff.1 hr
    simp only [Creation.run, createSession, Creation.Accepted, Creation.Agrees, hrow,
      Checked.bind_ok, parse_ok, need_ok, Checked.pure_ok, exists_const, Prod.mk.injEq,
      Option.some.injEq, @eq_comm _ n, @eq_comm _ db']
  | nodeLease d =>
    obtain rfl := Option.some.inj hk
    obtain ⟨row, hrow, rfl⟩ := Option.map_eq_some_iff.1 hr
    simp only [Creation.run, offerLease, Creation.Accepted, Creation.Agrees, hrow,
      Checked.bind_ok, parse_ok, need_ok, Checked.pure_ok, exists_const, Prod.mk.injEq,
      Option.some.injEq, @eq_comm _ n, @eq_comm _ db', and_assoc]
  | routeLease d =>
    obtain rfl := Option.some.inj hk
    obtain ⟨row, hrow, rfl⟩ := Option.map_eq_some_iff.1 hr
    simp only [Creation.run, offerRoute, offerRouteTransaction, Creation.Accepted,
      Creation.Agrees, hrow, Checked.bind_ok, parse_ok, need_ok, Checked.pure_ok, exists_const,
      Prod.mk.injEq, Option.some.injEq, @eq_comm _ n, @eq_comm _ db', and_assoc]
  | plan d =>
    obtain rfl := Option.some.inj hk
    obtain ⟨row, hrow, rfl⟩ := Option.map_eq_some_iff.1 hr
    simp only [Creation.run, createPool, Creation.Accepted, Creation.Agrees, hrow,
      Checked.bind_ok, parse_ok, need_ok, Checked.pure_ok, exists_const, Prod.mk.injEq,
      Option.some.injEq, @eq_comm _ n, @eq_comm _ db']
  | funding id d =>
    obtain rfl := Option.some.inj hk
    obtain ⟨row, hrow, rfl⟩ := Option.map_eq_some_iff.1 hr
    simp only [Creation.run, fundPool, Creation.Accepted, Creation.Agrees, hrow, Checked.bind_ok,
      parse_ok, need_ok, Checked.pure_ok, exists_const, Prod.mk.injEq, Option.some.injEq,
      @eq_comm _ n, @eq_comm _ db', and_assoc]
  | window id d =>
    obtain ⟨p, hp, rfl⟩ := Option.map_eq_some_iff.1 hk
    obtain ⟨row, hrow, rfl⟩ := Option.map_eq_some_iff.1 hr
    simp only [Creation.run, offerWindow, offerWindowTransaction, Creation.Accepted,
      Creation.Agrees, hp, needRow_ok, hrow, Checked.bind_ok, need_ok, Checked.pure_ok, exists_const,
      Prod.mk.injEq, Option.some.injEq, exists_eq_left', @eq_comm _ n, @eq_comm _ db']
  | authorization id d =>
    obtain rfl := Option.some.inj hk
    obtain ⟨row, hrow, rfl⟩ := Option.map_eq_some_iff.1 hr
    simp only [Creation.run, authorizeRenewal, Creation.Accepted, Creation.Agrees, hrow,
      Checked.bind_ok, parse_ok, needRow_ok, need_ok, Checked.pure_ok, exists_const,
      Prod.mk.injEq, Option.some.injEq, @eq_comm _ n, @eq_comm _ db']
    constructor
    · rintro ⟨hvalid, hkind, p, hp, howner, hsame⟩
      exact ⟨⟨hvalid, hkind, p, hp, howner⟩, hsame⟩
    · rintro ⟨⟨hvalid, hkind, p, hp, howner⟩, hsame⟩
      exact ⟨hvalid, hkind, p, hp, howner, hsame⟩
  | mandate id d =>
    obtain rfl := Option.some.inj hk
    obtain ⟨row, hrow, rfl⟩ := Option.map_eq_some_iff.1 hr
    simp only [Creation.run, mandateProvider, Creation.Accepted, Creation.Agrees, hrow,
      Checked.bind_ok, parse_ok, needRow_ok, need_ok, Checked.pure_ok, exists_const,
      Prod.mk.injEq, Option.some.injEq, @eq_comm _ n, @eq_comm _ db', and_assoc, exists_and_right]
  | party d =>
    obtain rfl := Option.some.inj hk
    obtain ⟨row, hrow, rfl⟩ := Option.map_eq_some_iff.1 hr
    simp only [Creation.run, declareParty, Creation.Accepted, Creation.Agrees, hrow,
      Checked.bind_ok, Actor.economicAdmin, need_ok, Checked.pure_ok, exists_const,
      Prod.mk.injEq, Option.some.injEq, @eq_comm _ n, @eq_comm _ db']
  | affiliation d =>
    obtain rfl := Option.some.inj hk
    obtain ⟨row, hrow, rfl⟩ := Option.map_eq_some_iff.1 hr
    simp only [Creation.run, affiliate, Creation.Accepted, Creation.Agrees, hrow,
      Checked.bind_ok, Actor.economicAdmin, need_ok, Checked.pure_ok, exists_const,
      Prod.mk.injEq, Option.some.injEq, @eq_comm _ n, @eq_comm _ db']
  | support id d =>
    obtain rfl := Option.some.inj hk
    obtain ⟨row, hrow, rfl⟩ := Option.map_eq_some_iff.1 hr
    simp only [Creation.run, declareSupport, Creation.Accepted, Creation.Agrees, hrow,
      Checked.bind_ok, Actor.economicAdmin, needRow_ok, need_ok, Checked.pure_ok, exists_const,
      Prod.mk.injEq, Option.some.injEq, @eq_comm _ n, @eq_comm _ db', and_assoc, exists_and_right]
  | grant d =>
    obtain rfl := Option.some.inj hk
    obtain ⟨j, hj, hfound⟩ := Option.bind_eq_some_iff.1 hr
    obtain ⟨row, hrow, rfl⟩ := Option.map_eq_some_iff.1 hfound
    simp only [Creation.run, NetworkAi.grant, Db.post, Ledger.post, Creation.Accepted,
      Creation.Agrees, Actor.admin, hj, hrow, Checked.bind_ok, parse_ok, need_ok, Checked.pure_ok,
      exists_const, Prod.mk.injEq, Option.some.injEq, Option.bind_some, Option.mem_def, forall_eq',
      exists_eq_left', @eq_comm _ n, @eq_comm _ db', and_assoc]

/-! ### Requests under a new key -/

section Rows

variable {K V : Type} [DecidableEq K] {t : Table K V} {q : K × V → Bool} {f : K × V → Recorded}

/-- The row that an insertion appends is the record, if there was none. -/
theorem recorded_insert {key : K} {v : V} (hnone : (t.rows.find? q).map f = none)
    (h : t.find? key = none) (hq : q (key, v) = true) :
    ((t.insert key v h).rows.find? q).map f = some (f (key, v)) := by
  show ((t.rows ++ [(key, v)]).find? q).map f = some (f (key, v))
  rw [List.find?_append, Option.map_eq_none_iff.1 hnone, List.find?_cons_of_pos hq]
  rfl

omit [DecidableEq K] in
/-- An update of every row that does not change which row is the record. -/
theorem recorded_mapRows {g : K → V → V} (hnone : (t.rows.find? q).map f = none)
    (hq : ∀ k v, q (k, g k v) = q (k, v)) : ((t.mapRows g).rows.find? q).map f = none := by
  show ((t.rows.map fun r => (r.1, g r.1 r.2)).find? q).map f = none
  rw [Option.map_eq_none_iff, List.find?_eq_none] at hnone ⊢
  intro r hr
  obtain ⟨r₀, hr₀, rfl⟩ := List.mem_map.1 hr
  rw [hq]
  exact hnone r₀ hr₀

end Rows

/-- A new session leaves its row under its key. -/
theorem createNewSession_leaves {d : CreateRequest}
    (hn : db.recorded (.session user.id d.idempotencyKey) = none)
    (h : createNewSession env tx db user d = .ok (n, db')) :
    db'.recorded (.session user.id d.idempotencyKey) =
      some ⟨n, some d.requestSha256, none, none⟩ := by
  unfold createNewSession at h
  simp only [Checked.bind_ok, needRow_ok, need_ok, Checked.pure_ok, exists_const,
    Prod.mk.injEq] at h
  obtain ⟨quote, -, row, -, -, -, -, -, -, -, db₁, hinsert, rfl, rfl⟩ := h
  unfold insertSession at hinsert
  simp only [Checked.ite_bind, Checked.bind_ok, constraint_ok, reference_ok, Checked.pure_ok,
    exists_const, Table.insert?_eq_some, Prod.exists] at hinsert
  obtain ⟨j, db₂, hpost, -, -, _, ⟨hid, rfl⟩, rfl⟩ := hinsert
  obtain ⟨books, -, rfl⟩ := Db.postIf_ok hpost
  exact recorded_insert hn hid (by simp [newSession])

/-- A new contract leaves its row under its key. -/
theorem offerNewLease_leaves {d : LeaseOffer}
    (hn : db.recorded (.nodeLease user.id d.idempotencyKey) = none)
    (h : offerNewLease env tx db user d = .ok (n, db')) :
    db'.recorded (.nodeLease user.id d.idempotencyKey) =
      some ⟨n, some (env.digest d.toJs), none, none⟩ := by
  unfold offerNewLease at h
  simp only [Checked.bind_ok, needRow_ok, need_ok, reference_ok, Checked.pure_ok, exists_const,
    Table.insert?_eq_some, Prod.mk.injEq, Prod.exists] at h
  obtain ⟨-, node, -, model, -, owner, -, -, books₁, -, j, db₁, hpost, _, ⟨hid, rfl⟩, rfl, rfl⟩ := h
  obtain ⟨books, -, rfl⟩ := Db.post_ok hpost
  exact recorded_insert hn hid (by simp)

/-- A new window of a sponsor leaves its row under its key. -/
theorem offerNewRoute_leaves {d : RouteOffer}
    (hn : db.recorded (.routeLease user.id d.idempotencyKey) = none)
    (h : offerNewRoute env tx db user.id d none = .ok (n, db')) :
    db'.recorded (.routeLease user.id d.idempotencyKey) =
      some ⟨n, some (env.digest (d.toJs env none)), none, none⟩ := by
  obtain ⟨route, terms, books, hoffer, rfl, -, hsponsor, -, -, hplain, rfl⟩ := offerNewRoute_ok h
  refine (recorded_insert hn hoffer.id (by simp [newRouteLease, hsponsor])).trans ?_
  simp only [newRouteLease, hplain, Option.map_none]

/-- A new window of a pool leaves its row under its key, for the pool's creator. -/
theorem offerNewWindow_leaves {id : PoolId} {p : Pool} {d : WindowRequest}
    (hp : db.pools.find? id = some p)
    (hn : db.recorded (.routeLease p.creatorId d.idempotencyKey) = none)
    (h : offerNewWindow env tx db id p d .none = .ok (n, db')) :
    ∃ r, db'.recorded (.routeLease p.creatorId d.idempotencyKey) = some r ∧ r.id = n ∧
      r.window = some (env.digest (d.toJs id .none)) := by
  have hnone := Option.map_eq_none_iff.1 hn
  obtain ⟨rd, route, terms, books, incidents, w, context, hnew, hid, rfl, hmatch, -, -,
    ⟨hkey, hsha⟩, -, -, rfl⟩ := offerNewWindow_ok hp hnone h
  refine ⟨_, recorded_insert hn hnew.id ?_, rfl, ?_⟩
  · simp [newRouteLease, hmatch.sponsor, hkey]
  · simp [newRouteLease, hmatch.context, hsha]

/-- A new pool leaves its row under its key. -/
theorem createNewPool_leaves {d : PlanRequest}
    (hn : db.recorded (.plan user.id d.idempotencyKey) = none)
    (h : createNewPool env tx db user d = .ok (n, db')) :
    db'.recorded (.plan user.id d.idempotencyKey) =
      some ⟨n, some (env.digest d.toJs), none, none⟩ := by
  unfold createNewPool at h
  simp only [Checked.bind_ok, need_ok, constraint_ok, reference_ok, Checked.pure_ok, exists_const,
    Table.insert?_eq_some, Prod.mk.injEq, Prod.exists] at h
  obtain ⟨-, -, -, scan, groups, -, -, books, -, -, _, ⟨hid, rfl⟩, rfl, rfl⟩ := h
  exact recorded_insert hn hid (by simp)

/-- A new funding leaves its row under its key. -/
theorem fundNew_leaves {id : PoolId} {d : FundRequest}
    (hn : db.recorded (.funding user.id d.idempotencyKey) = none)
    (h : fundNew env tx db user id d = .ok (n, db')) :
    db'.recorded (.funding user.id d.idempotencyKey) =
      some ⟨n, some (env.digest (d.toJs id)), none, none⟩ := by
  unfold fundNew at h
  simp only [Checked.bind_ok, needRow_ok, need_ok, constraint_ok, reference_ok, Checked.pure_ok,
    exists_const, Table.insert?_eq_some, Prod.mk.injEq, Prod.exists] at h
  obtain ⟨p, -, -, -, j, db₁, hpost, -, _, ⟨hid, rfl⟩, rfl, rfl⟩ := h
  obtain ⟨books, -, rfl⟩ := Db.post_ok hpost
  exact recorded_insert hn hid (by simp)

/-- A new authorization leaves its row under its key. -/
theorem authorizeNew_leaves {id : PoolId} {p : Pool} {d : AuthorizationRequest}
    (hn : db.recorded (.authorization user.id d.idempotencyKey) = none)
    (h : authorizeNew env tx db user id p d = .ok (n, db')) :
    db'.recorded (.authorization user.id d.idempotencyKey) =
      some ⟨n, some (env.digest (d.toJs id)), none, none⟩ := by
  unfold authorizeNew checkMandateExpiry at h
  simp only [Checked.bind_ok, need_ok, needRow_ok, constraint_ok, reference_ok, Checked.pure_ok,
    exists_const, Table.insert?_eq_some, Prod.mk.injEq] at h
  obtain ⟨-, -, g, -, -, -, -, -, -, _, ⟨hid, rfl⟩, rfl, rfl⟩ := h
  refine recorded_insert (recorded_mapRows hn fun _ a => ?_) hid (by simp)
  dsimp only
  split <;> rfl

/-- A new mandate leaves its row under its key. -/
theorem mandateNew_leaves {id : PoolId} {p : Pool} {d : MandateRequest}
    (hn : db.recorded (.mandate user.id d.idempotencyKey) = none)
    (h : mandateNew env tx db user id p d = .ok (n, db')) :
    db'.recorded (.mandate user.id d.idempotencyKey) =
      some ⟨n, some (env.digest (d.toJs id)), none, none⟩ := by
  unfold mandateNew checkMandateExpiry at h
  simp only [Checked.bind_ok, need_ok, needRow_ok, constraint_ok, reference_ok, Checked.pure_ok,
    exists_const, Table.insert?_eq_some, Prod.mk.injEq] at h
  obtain ⟨-, -, g, -, cr, -, route, -, -, -, -, shares, -, -, -, _, ⟨hid, rfl⟩, rfl, rfl⟩ := h
  refine recorded_insert (recorded_mapRows hn fun _ m => ?_) hid (by simp)
  dsimp only
  split <;> rfl

/-- A new affiliation leaves its row under its key. -/
theorem affiliateNew_leaves {d : AffiliationRequest}
    (hn : db.recorded (.affiliation user.id d.idempotencyKey) = none)
    (h : affiliateNew env tx db user d = .ok (n, db')) :
    db'.recorded (.affiliation user.id d.idempotencyKey) =
      some ⟨n, some (env.digest d.toJs), none, none⟩ := by
  unfold affiliateNew at h
  simp only [Checked.bind_ok, need_ok, constraint_ok, reference_ok, Checked.pure_ok,
    exists_const, Table.insert?_eq_some, Prod.mk.injEq] at h
  obtain ⟨-, -, -, -, -, -, _, ⟨hid, rfl⟩, rfl, rfl⟩ := h
  refine recorded_insert (recorded_mapRows hn fun _ a => ?_) hid (by simp)
  dsimp only
  split <;> rfl

/-- A new support leaves its row under its key. -/
theorem declareNewSupport_leaves {id : PoolId} {p : Pool} {d : SupportRequest}
    (hn : db.recorded (.support user.id d.idempotencyKey) = none)
    (h : declareNewSupport env tx db user id p d = .ok (n, db')) :
    db'.recorded (.support user.id d.idempotencyKey) =
      some ⟨n, some (env.digest (d.toJs id)), none, none⟩ := by
  unfold declareNewSupport at h
  simp only [Checked.bind_ok, need_ok, constraint_ok, reference_ok, Checked.pure_ok,
    exists_const, Table.insert?_eq_some, Prod.mk.injEq] at h
  obtain ⟨-, -, -, -, -, _, ⟨hid, rfl⟩, rfl, rfl⟩ := h
  exact recorded_insert hn hid (by simp)

/-- What a grant under a new key records: the entry of the journal, with the text of the request. -/
theorem grant_leaves {d : GrantRequest} (hkey : db.books.findKey (.grant d.idempotencyKey) = none)
    (h : NetworkAi.grant env tx db user d = .ok (n, db')) :
    (user.role = .admin ∧ isAmount d.amount ∧ 0 < d.amount ∧ d.amount ≤ 1000000000) ∧
      db'.recorded (.grant d.idempotencyKey) = some ⟨n, none, none, some (canonical d.toJs)⟩ := by
  simp only [NetworkAi.grant, Actor.admin, Db.post, Checked.bind_ok, parse_ok, need_ok,
    Checked.pure_ok, exists_const, Prod.mk.injEq, Prod.exists] at h
  obtain ⟨hadmin, hamount, hlimit, -, j, books, hpost, rfl, rfl⟩ := h
  refine ⟨⟨hadmin, hamount, hlimit⟩, ?_⟩
  rcases Ledger.post_cases hpost with ⟨hknown, -⟩ | ⟨rfl, hposted⟩
  · rw [hkey] at hknown
    cases hknown
  · unfold Db.recorded
    simp only [hposted.findKey_self, hposted.journal, Option.bind_some, Table.find?_insert_self,
      Option.map_some]

/-- **A request under a new key** that is answered is accepted, and leaves its record.

**Proof sketch.** One case per endpoint. Its key is not found, so that it goes on to create; what it
leaves is said by the lemma of the creation. -/
theorem Creation.run_fresh (hk : c.key db user = some k) (hn : db.recorded k = none)
    (h : c.run env tx db user = .ok (n, db')) :
    c.Accepted db user ∧ ∃ r, db'.recorded k = some r ∧ r.id = n ∧ c.Agrees env r := by
  cases c with
  | session d =>
    obtain rfl := Option.some.inj hk
    simp only [Creation.run, createSession, Option.map_eq_none_iff.1 hn, Checked.bind_ok, parse_ok,
      exists_const] at h
    exact ⟨h.1, _, createNewSession_leaves hn h.2, rfl, rfl⟩
  | nodeLease d =>
    obtain rfl := Option.some.inj hk
    simp only [Creation.run, offerLease, Option.map_eq_none_iff.1 hn, Checked.bind_ok, parse_ok,
      need_ok, exists_const] at h
    exact ⟨⟨h.1, h.2.1⟩, _, offerNewLease_leaves hn h.2.2, rfl, rfl⟩
  | routeLease d =>
    obtain rfl := Option.some.inj hk
    simp only [Creation.run, offerRoute, offerRouteTransaction, Option.map_eq_none_iff.1 hn,
      Checked.bind_ok, parse_ok, need_ok, exists_const] at h
    exact ⟨⟨h.1, h.2.1⟩, _, offerNewRoute_leaves hn h.2.2, rfl, rfl⟩
  | plan d =>
    obtain rfl := Option.some.inj hk
    simp only [Creation.run, createPool, Option.map_eq_none_iff.1 hn, Checked.bind_ok, parse_ok,
      exists_const] at h
    exact ⟨h.1, _, createNewPool_leaves hn h.2, rfl, rfl⟩
  | funding id d =>
    obtain rfl := Option.some.inj hk
    simp only [Creation.run, fundPool, Option.map_eq_none_iff.1 hn, Checked.bind_ok, parse_ok,
      exists_const] at h
    exact ⟨h.1, _, fundNew_leaves hn h.2, rfl, rfl⟩
  | window id d =>
    obtain ⟨p, hp, rfl⟩ := Option.map_eq_some_iff.1 hk
    simp only [Creation.run, offerWindow, offerWindowTransaction, needRow_ok, hp, Checked.bind_ok,
      need_ok, exists_const, Option.some.injEq, exists_eq_left', Option.map_eq_none_iff.1 hn] at h
    exact ⟨⟨p, hp, h.1⟩, offerNewWindow_leaves hp hn h.2⟩
  | authorization id d =>
    obtain rfl := Option.some.inj hk
    simp only [Creation.run, authorizeRenewal, Option.map_eq_none_iff.1 hn, Checked.bind_ok,
      parse_ok, need_ok, needRow_ok, exists_const] at h
    obtain ⟨hvalid, hkind, p, hp, howner, h⟩ := h
    exact ⟨⟨hvalid, hkind, p, hp, howner⟩, _, authorizeNew_leaves hn h, rfl, rfl⟩
  | mandate id d =>
    obtain rfl := Option.some.inj hk
    simp only [Creation.run, mandateProvider, Option.map_eq_none_iff.1 hn, Checked.bind_ok,
      parse_ok, need_ok, needRow_ok, exists_const] at h
    obtain ⟨hvalid, hkind, p, hp, h⟩ := h
    exact ⟨⟨hvalid, hkind, p, hp⟩, _, mandateNew_leaves hn h, rfl, rfl⟩
  | party d =>
    obtain rfl := Option.some.inj hk
    simp only [Creation.run, declareParty, Actor.economicAdmin, Option.map_eq_none_iff.1 hn,
      Checked.bind_ok, need_ok, reference_ok, Checked.pure_ok, exists_const, Prod.mk.injEq,
      Table.insert?_eq_some] at h
    obtain ⟨hadmin, _, ⟨hid, rfl⟩, rfl, rfl⟩ := h
    exact ⟨hadmin, _, recorded_insert hn hid (by simp), rfl, rfl⟩
  | affiliation d =>
    obtain rfl := Option.some.inj hk
    simp only [Creation.run, affiliate, Actor.economicAdmin, Option.map_eq_none_iff.1 hn,
      Checked.bind_ok, need_ok, exists_const] at h
    exact ⟨h.1, _, affiliateNew_leaves hn h.2, rfl, rfl⟩
  | support id d =>
    obtain rfl := Option.some.inj hk
    simp only [Creation.run, declareSupport, Actor.economicAdmin, Option.map_eq_none_iff.1 hn,
      Checked.bind_ok, need_ok, needRow_ok, exists_const] at h
    obtain ⟨hadmin, p, hp, h⟩ := h
    exact ⟨⟨hadmin, p, hp⟩, _, declareNewSupport_leaves hn h, rfl, rfl⟩
  | grant d =>
    obtain rfl := Option.some.inj hk
    have hkey : db.books.findKey (.grant d.idempotencyKey) = none := by
      by_contra hsome
      obtain ⟨j, hj⟩ := Option.ne_none_iff_exists'.1 hsome
      obtain ⟨row, hrow, -⟩ := Ledger.findKey_eq_some hj
      have hnone : (db.books.findKey (.grant d.idempotencyKey)).bind _ = none := hn
      rw [hj, Option.bind_some, hrow] at hnone
      cases hnone
    exact ⟨(grant_leaves hkey h).1, _, (grant_leaves hkey h).2, rfl, rfl⟩

end NetworkAi
