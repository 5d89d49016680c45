import NetworkAi.Control.CooperativeMoves
import NetworkAi.Control.Frames

set_option relaxedAutoImplicit false
set_option autoImplicit false

/-!
# The moves of renewals, and of every step

The operations of `renewals.ts` give, close and note authority by moves; the one that opens a
window also consumes authority, and then commits only with a usage for every provider of the
window. With this every step of the coordinator is known: a sequence of moves, or such a renewal.

## Main definitions

* `NetworkAi.Changes` — finitely many changes.
* `NetworkAi.Renewed` — a transaction that opened a renewal window.

## Main results

* `NetworkAi.openRenewal_renewed`, `NetworkAi.attempt_cases` — the renewal.
* `NetworkAi.perform_cases`, `NetworkAi.step_cases` — every operation, and every step.
* `NetworkAi.step_changes` — a step is a sequence of changes.
* `NetworkAi.reachable_of_changes` — the induction over reachable databases.
* `NetworkAi.reachable_registry` — the registry of a reachable database is sound.
-/

namespace NetworkAi

open Relational

variable {env : Env} {req : Request} {tx t : Tx} {db db' : Db}

/-- Finitely many changes of one transaction. -/
abbrev Changes (env : Env) (req : Request) (tx : Tx) : Db → Db → Prop :=
  Machine.Star (Change env req tx)

/-- Moves are changes. -/
theorem Moves.changes (h : Moves env req tx db db') : Changes env req tx db db' :=
  Machine.Star.preserves (P := Changes env req tx db) (fun _ _ hm hc => hc.tail (.inl hm)) h .refl

/-- **A renewal**: a sequence of changes after which every new run has a usage for each member of
its window. -/
structure Renewed (env : Env) (req : Request) (tx : Tx) (db db' : Db) : Prop where
  changes : Changes env req tx db db'
  complete : ∀ lease run, db'.runs.find? lease = some run → db.runs.find? lease = some run ∨
    ∃ l, db'.routeLeases.find? lease = some l ∧
      ∀ m ∈ l.members, (db'.usages.find? (lease, m.providerId)).isSome

/-! ### Giving and closing authority -/

/-- Authorizations that are over are closed in one change. -/
theorem expireAuthorizations_moves (db : Db) (pool : PoolId) :
    Moves env req tx db (expireAuthorizations t db pool) := by
  have hcloses : ∀ a : Authorization, a.Closes
      (if a.poolId = pool ∧ a.state = .active ∧ a.expiresAt ≤ t.now then
        { a with state := .expired } else a) := by
    intro a
    split
    · exact ⟨rfl, fun h => by cases h⟩
    · exact .refl a
  exact .single (.authorizationsClosed (.mapRows fun _ a _ => hcloses a)
    (.mapRows fun _ a _ => hcloses a))

/-- A new authorization is one more row, after those that are over are closed. -/
theorem authorizeNew_moves {user : Actor} {pool : PoolId} {p : Pool} {d : AuthorizationRequest}
    {id : AuthorizationId} (hd : d.Valid) (hp : db.pools.find? pool = some p)
    (h : authorizeNew env t db user pool p d = .ok (id, db')) : Moves env req tx db db' := by
  unfold authorizeNew checkMandateExpiry at h
  simp only [Checked.bind_ok, need_ok, needRow_ok, constraint_ok, reference_ok, Checked.pure_ok,
    exists_const, Table.insert?_eq_some, Prod.mk.injEq] at h
  obtain ⟨-, -, g, hg, -, -, ⟨-, hlimit⟩, -, -, _, ⟨hid, rfl⟩, -, rfl⟩ := h
  have hgmem := List.mem_of_find?_eq_some hg
  have hgkey : g.key = d.groupKey := by simpa using List.find?_some hg
  refine (expireAuthorizations_moves db pool).trans
    (.single (.authorized hid ⟨rfl, ⟨rfl, rfl, rfl⟩, hd.1.1, ?_, rfl, ?_⟩))
  · exact ⟨hd.2.1.1, hd.2.2.1⟩
  · exact ⟨p, g, hp, hgmem, rfl, rfl, hlimit⟩

/-- An authorization that was sent before changes nothing; a new one adds its row. -/
theorem authorizeRenewal_moves {user : Actor} {pool : PoolId} {d : AuthorizationRequest}
    {id : AuthorizationId} (h : authorizeRenewal env t db user pool d = .ok (id, db')) :
    Moves env req tx db db' := by
  unfold authorizeRenewal at h
  simp only [Checked.bind_ok, parse_ok, need_ok, needRow_ok, exists_const] at h
  obtain ⟨hd, -, p, hp, -, h⟩ := h
  split at h
  · simp only [Checked.bind_ok, need_ok, Checked.pure_ok, exists_const, Prod.mk.injEq] at h
    exact h.2.2 ▸ .refl db
  · exact authorizeNew_moves hd hp h

/-- Mandates that are over are closed in one change. -/
theorem expireMandates_moves (db : Db) (scope : Option (PoolId × UserId)) :
    Moves env req tx db (expireMandates t db scope) := by
  have hcloses : ∀ m : Mandate, m.Closes
      (if (∀ s ∈ scope, m.poolId = s.1 ∧ m.providerId = s.2) ∧ m.state = .active ∧
          m.expiresAt ≤ t.now then { m with state := .expired } else m) := by
    intro m
    split
    · exact ⟨rfl, fun h => by cases h⟩
    · exact .refl m
  exact .single (.mandatesClosed (.mapRows fun _ m _ => hcloses m)
    (.mapRows fun _ m _ => hcloses m))

/-- A mandate that was sent before changes nothing; a new one adds its row. -/
theorem mandateProvider_moves {user : Actor} {pool : PoolId} {d : MandateRequest} {id : MandateId}
    (h : mandateProvider env t db user pool d = .ok (id, db')) : Moves env req tx db db' := by
  unfold mandateProvider at h
  simp only [Checked.bind_ok, parse_ok, need_ok, needRow_ok, exists_const] at h
  obtain ⟨hwindows, -, p, -, h⟩ := h
  split at h
  · simp only [Checked.bind_ok, need_ok, Checked.pure_ok, exists_const, Prod.mk.injEq] at h
    exact h.2.2 ▸ .refl db
  unfold mandateNew checkMandateExpiry at h
  simp only [Checked.bind_ok, need_ok, needRow_ok, constraint_ok, reference_ok, Checked.pure_ok,
    exists_const, Table.insert?_eq_some, Prod.mk.injEq] at h
  obtain ⟨-, -, g, -, cr, -, route, -, -, -, -, shares, -, -, -, _, ⟨hid, rfl⟩, -, rfl⟩ := h
  exact (expireMandates_moves db _).trans
    (.single (.mandated hid ⟨rfl, rfl, hwindows.1, rfl⟩))

/-- A revoked authorization is one change of its row. -/
theorem revokeAuthorization_moves {user : Actor} {id : AuthorizationId}
    (h : revokeAuthorization t db user id = .ok db') : Moves env req tx db db' := by
  unfold revokeAuthorization at h
  simp only [Checked.bind_ok, need_ok, needRow_ok, exists_const] at h
  obtain ⟨row, hrow, p, -, -, h⟩ := h
  split at h <;> simp only [Checked.pure_ok] at h <;> subst h
  · exact .refl db
  · have hcloses : row.Closes { row with state := .revoked, revokedAt := some (t.wall 0) } :=
      ⟨rfl, fun h => by cases h⟩
    exact .single (.authorizationsClosed (.set Authorization.Closes.refl hrow hcloses)
      (.set Authorization.Closes.refl hrow hcloses))

/-- A revoked mandate is one change of its row. -/
theorem revokeMandate_moves {user : Actor} {id : MandateId}
    (h : revokeMandate t db user id = .ok db') : Moves env req tx db db' := by
  unfold revokeMandate at h
  simp only [Checked.bind_ok, need_ok, needRow_ok, exists_const] at h
  obtain ⟨row, hrow, p, -, -, h⟩ := h
  split at h <;> simp only [Checked.pure_ok] at h <;> subst h
  · exact .refl db
  · have hcloses : row.Closes { row with state := .revoked, revokedAt := some (t.wall 0) } :=
      ⟨rfl, fun h => by cases h⟩
    exact .single (.mandatesClosed (.set Mandate.Closes.refl hrow hcloses)
      (.set Mandate.Closes.refl hrow hcloses))

/-- A note of an attempt is one change of its authorization. -/
theorem note_moves (db : Db) (id : AuthorizationId) (status : RenewalStatus) :
    Moves env req tx db (note t db id status) :=
  .single (.authorizationsClosed (.modify Authorization.Closes.refl fun _ _ => ⟨rfl, fun h => h⟩)
    (.modify Authorization.Closes.refl fun _ _ => ⟨rfl, fun h => h⟩))

/-- An authorization is closed in one change. -/
theorem closeAuthorization_moves (db : Db) (id : AuthorizationId) {state : AuthorityState}
    (hstate : state ≠ .active) : Moves env req tx db (closeAuthorization db id state) :=
  .single (.authorizationsClosed
    (.modify Authorization.Closes.refl fun _ _ => ⟨rfl, fun h => absurd h hstate⟩)
    (.modify Authorization.Closes.refl fun _ _ => ⟨rfl, fun h => absurd h hstate⟩))

/-- A retry is at most a note on its authorization. -/
theorem retryPending_moves {id : AuthorizationId} (h : retryPending t db id = .ok db') :
    Moves env req tx db db' := by
  unfold retryPending at h
  split at h
  · simp only [Checked.throw_ok] at h
  simp only [Checked.bind_ok, needRow_ok] at h
  obtain ⟨p, -, h⟩ := h
  split at h <;> simp only [Checked.pure_ok] at h <;> subst h
  · exact .refl db
  · exact note_moves db id _

/-! ### Consuming authority -/

/-- What the consumption of an authorization changes, and the run that it records. -/
theorem consumeRenewalAuthority_change {lease : LeaseId} {run : RenewalRun}
    (h : consumeRenewalAuthority t db lease run = .ok db') :
    Change env req tx db db' ∧ ∃ hid, db'.runs = db.runs.insert lease run hid := by
  unfold consumeRenewalAuthority at h
  simp only [Checked.bind_ok, constraint_ok, reference_ok, Checked.pure_ok, exists_const,
    Table.insert?_eq_some] at h
  obtain ⟨a, ha, l, hl, w, hw, ⟨hkind, -⟩, hsupport, -, -, hcovers, hvalid, _, ⟨hid, rfl⟩, rfl⟩ := h
  exact ⟨.inr (.authority ha hl hw hcovers hvalid hid hkind hsupport), hid, rfl⟩

/-- What the consumption of a mandate changes; it records no run. -/
theorem consumeProviderMandate_change {lease : LeaseId} {provider : UserId} {usage : MandateUsage}
    (h : consumeProviderMandate t db lease provider usage = .ok db') :
    Change env req tx db db' ∧ db'.runs = db.runs := by
  unfold consumeProviderMandate at h
  simp only [Checked.bind_ok, constraint_ok, reference_ok, Checked.pure_ok, exists_const,
    Table.insert?_eq_some] at h
  obtain ⟨m, hm, l, hl, w, hw, hrun, ⟨hkind, -⟩, hcovers, hused, _, ⟨hid, rfl⟩, rfl⟩ := h
  have hsame : (db.windows.find? lease).map (·.kind) = some m.kind := by
    rw [hw, Option.map_some, hkind]
  exact ⟨.inr (.mandate hm hl hrun hcovers hused hid hsame), rfl⟩

/-- What the demand of an expansion changes; it records no run. -/
theorem recordDemand_changes {lease : LeaseId}
    {evidence : Option (WaitingDemand × ExpansionEvidence)}
    (h : recordDemand env t db lease evidence = .ok db') :
    Changes env req tx db db' ∧ db'.runs = db.runs := by
  unfold recordDemand at h
  split at h
  · simp only [Checked.pure_ok] at h
    subst h
    exact ⟨.refl, rfl⟩
  unfold validateExpansionDemand at h
  simp only [Checked.bind_ok, constraint_ok, reference_ok, Checked.pure_ok, exists_const,
    Table.insert?_eq_some] at h
  obtain ⟨l, hl, w, hw, s, hs, a, ha, p, -, ⟨hkind, -, -, -, huser, hparty, -, -, hmatches, -⟩, hrun,
    hsession, _, ⟨hid, rfl⟩, rfl⟩ := h
  simp only [evidenceMatches, Bool.decide_and, Bool.and_eq_true, decide_eq_true_eq] at hmatches
  obtain ⟨hterms, -, hnamed, -, haffiliation, -⟩ := hmatches
  refine ⟨Relation.ReflTransGen.single (.inr (.demand hid rfl hsession ?_)), rfl⟩
  exact ⟨hrun, by rw [hw, Option.map_some, hkind], by rw [hl]; exact hterms,
    ⟨hnamed, haffiliation⟩, s, a, hs, ha, huser, hparty⟩

/-- The providers of a window, in the order of its members. -/
def RouteLease.providers (l : RouteLease) : List UserId := l.members.map (·.providerId)

/-- A window keeps its providers. -/
theorem RouteLease.Keeps.providers {l l' : RouteLease} (h : l.Keeps l') :
    l'.providers = l.providers := by
  have hp := congrArg (List.map FrozenMember.providerId) h.members
  simp only [List.map_map, Function.comp_def, LeaseMember.frozen] at hp
  exact hp

/-- A window keeps its providers along any changes. -/
theorem Changes.providers {lease : LeaseId} {l : RouteLease} (h : Changes env req tx db db')
    (hl : db.routeLeases.find? lease = some l) :
    ∃ l', db'.routeLeases.find? lease = some l' ∧ l'.providers = l.providers := by
  refine Machine.Star.preserves (P := fun db' => ∃ l', db'.routeLeases.find? lease = some l' ∧
    l'.providers = l.providers) ?_ h ⟨l, hl, rfl⟩
  rintro db₁ db₂ hchange ⟨l₁, hl₁, hp⟩
  obtain ⟨l₂, hl₂, hkeeps⟩ := hchange.routeLeases.old hl₁
  exact ⟨l₂, hl₂, hkeeps.providers.trans hp⟩

/-- Moves leave the records of consumed authority alone. -/
theorem Moves.runs (h : Moves env req tx db db') : db'.runs = db.runs := by
  refine Machine.Star.preserves (P := fun db' => db'.runs = db.runs) ?_ h rfl
  intro db₁ db₂ hmove ih
  rw [hmove.authority.1, ih]

/-- The window of a renewal: the changes that open it, and its usages when it commits.

**Proof sketch.** The offer and the acceptances are moves, the authorization, the mandates and the
demand are changes, and only the authorization records a run. That run is of the window that was
offered; its providers stay as they are through all later changes, and were checked to have usages.
-/
theorem openRenewal_renewed {id : AuthorizationId} {a : Authorization} {p : Pool} {g : CoopGroup}
    {source : FundSource} {r : CoopRoute} {mandates : List (MandateId × Mandate)}
    {evidence : Option (WaitingDemand × ExpansionEvidence)} (hreq : req = .background (.attempt id))
    (h : openRenewal env t db id a p g source r mandates evidence = .ok db') :
    Renewed env req tx db db' := by
  unfold openRenewal at h
  simp only [Checked.bind_ok, reference_ok, constraint_ok, Checked.pure_ok, exists_const,
    Prod.exists] at h
  obtain ⟨creator, -, lease, db₁, hoffer, l, hl, db₂, haccept, db₃, hauthority, db₄, hmandates,
    db₅, hdemand, husages, -, rfl⟩ := h
  have h₁ : Moves env req tx db db₁ := offerWindowTransaction_moves
    (fun _ => ⟨id, hreq⟩) (by rw [hreq]; rfl) hoffer
  have h₂ : Moves env req tx db₁ db₂ :=
    Checked.foldlM_invariant (P := fun db' => Moves env req tx db₁ db') haccept (.refl db₁)
      fun _ _ _ _ ih hx => ih.trans (acceptRouteTransaction_moves hx)
  obtain ⟨h₃, hid, hruns₃⟩ : Change env req tx db₂ db₃ ∧ _ := consumeRenewalAuthority_change hauthority
  have h₄ : Changes env req tx db₃ db₄ ∧ db₄.runs = db₃.runs :=
    Checked.foldlM_invariant (P := fun db' => Changes env req tx db₃ db' ∧ db'.runs = db₃.runs)
      hmandates ⟨.refl, rfl⟩ fun _ _ _ _ ih hx =>
        have hc : Change env req tx _ _ ∧ _ := consumeProviderMandate_change hx
        ⟨ih.1.tail hc.1, hc.2.trans ih.2⟩
  have h₅ : Changes env req tx db₄ db₅ ∧ _ := recordDemand_changes hdemand
  have h₆ : Moves env req tx db₅ (note t db₅ id .renewed) := note_moves db₅ id .renewed
  have hrest : Changes env req tx db₁ (note t db₅ id .renewed) :=
    (((h₂.changes.tail h₃).trans h₄.1).trans h₅.1).trans h₆.changes
  refine ⟨h₁.changes.trans hrest, fun lease' run hrun => ?_⟩
  have hruns : (note t db₅ id .renewed).runs = db₃.runs := by
    rw [h₆.runs, h₅.2, h₄.2]
  rw [hruns, hruns₃] at hrun
  rcases Table.find?_insert_cases hrun with ⟨rfl, -⟩ | ⟨-, hrun⟩
  · -- the new run: its window has the providers that the usages were checked for
    obtain ⟨l', hl', hproviders⟩ := hrest.providers hl
    refine .inr ⟨l', hl', fun m hm => ?_⟩
    have hmem : m.providerId ∈ l.providers := hproviders ▸ List.mem_map.2 ⟨m, hm, rfl⟩
    obtain ⟨m₀, hm₀, he⟩ := List.mem_map.1 hmem
    have := husages m₀ hm₀
    rw [he] at this
    exact this
  · rw [h₂.runs, h₁.runs] at hrun
    exact .inl hrun

/-- **What an attempt did**: nothing, a note at its authorization, the end of the authorization, or
a renewal out of the source that the balances and both limits of the authorization allow. -/
inductive Attempted (env : Env) (t : Tx) (db : Db) (id : AuthorizationId) : Db → Prop
  | unchanged : Attempted env t db id db
  | noted (status : RenewalStatus) : Attempted env t db id (note t db id status)
  | closed {state : AuthorityState} (status : RenewalStatus) (hstate : state ≠ .active) :
      Attempted env t db id (note t (closeAuthorization db id state) id status)
  | renewed {db' : Db} {a : Authorization} {p : Pool} {g : CoopGroup} {source : FundSource}
      {r : CoopRoute} {mandates : List (MandateId × Mandate)}
      {evidence : Option (WaitingDemand × ExpansionEvidence)}
      (ha : db.authorizations.find? id = some a) (hp : db.pools.find? a.poolId = some p)
      (hg : p.groups.find? (fun g => g.key = a.groupKey) = some g)
      (hgates : ((attemptFacts t db a p g (cooperativeSnapshot (t.call 0) db a.poolId p)).bind
        fun f => f.view.gates.blockedBy.head?) = none)
      (hsource : renewalSource (cooperativeSnapshot (t.call 0) db a.poolId p) g.cost
        (a.maximumWorking - a.workingCommitted) (a.maximumReserve - a.reserveCommitted) =
          some source)
      (hdemand : selectDemand t db
        (attemptFacts t db a p g (cooperativeSnapshot (t.call 0) db a.poolId p)) = .ok evidence)
      (h : openRenewal env t db id a p g source r mandates evidence = .ok db') :
      Attempted env t db id db'

/-- The part of an attempt that chooses funds, route and mandates. -/
theorem attemptFunds_ok {id : AuthorizationId} {a : Authorization} {p : Pool} {g : CoopGroup}
    {earliestEnd : Int} (ha : db.authorizations.find? id = some a)
    (hp : db.pools.find? a.poolId = some p)
    (hg : p.groups.find? (fun g => g.key = a.groupKey) = some g)
    (h : attemptFunds env t db id a p g earliestEnd = .ok db') : Attempted env t db id db' := by
  unfold attemptFunds at h
  dsimp only at h
  split at h
  · simp only [Checked.pure_ok] at h
    exact h ▸ .closed _ (by decide)
  split at h
  · simp only [Checked.pure_ok] at h
    exact h ▸ .noted _
  rename_i hgates
  split at h
  · rename_i source hsource
    unfold attemptRoute at h
    dsimp only at h
    split at h
    · simp only [Checked.pure_ok] at h
      exact h ▸ .noted _
    split at h
    · simp only [Checked.pure_ok] at h
      exact h ▸ .noted _
    · simp only [Checked.bind_ok] at h
      obtain ⟨evidence, hdemand, h⟩ := h
      exact .renewed ha hp hg hgates hsource hdemand h
  split at h <;> simp only [Checked.pure_ok] at h <;> exact h ▸ .noted _

/-- **Every attempt that succeeds** did one of these. -/
theorem attempt_ok {id : AuthorizationId} (h : attempt env t db id = .ok db') :
    Attempted env t db id db' := by
  unfold attempt at h
  split at h
  · simp only [Checked.pure_ok] at h
    exact h ▸ .unchanged
  rename_i a ha
  simp only [Checked.bind_ok, needRow_ok] at h
  obtain ⟨p, hp, h⟩ := h
  split at h
  · simp only [Checked.pure_ok] at h
    exact h ▸ .unchanged
  split at h
  · simp only [Checked.pure_ok] at h
    exact h ▸ .closed _ (by decide)
  unfold attemptActive at h
  split at h
  · simp only [Checked.pure_ok] at h
    exact h ▸ .noted _
  split at h
  · simp only [Checked.pure_ok] at h
    exact h ▸ .noted _
  simp only [Checked.bind_ok, need_ok, reference_ok, exists_const] at h
  obtain ⟨-, g, hg, h⟩ := h
  split at h
  · simp only [Checked.pure_ok] at h
    exact h ▸ .noted _
  split at h
  · simp only [Checked.pure_ok] at h
    exact h ▸ .noted _
  exact attemptFunds_ok ha hp hg h

/-- **An attempt** is a sequence of moves, or a renewal. -/
theorem attempt_cases {id : AuthorizationId} (hreq : req = .background (.attempt id))
    (h : attempt env t db id = .ok db') : Moves env req tx db db' ∨ Renewed env req tx db db' := by
  cases attempt_ok h with
  | unchanged => exact .inl (.refl db)
  | noted status => exact .inl (note_moves db id status)
  | closed status hstate =>
    exact .inl ((closeAuthorization_moves db id hstate).trans (note_moves _ id status))
  | renewed _ _ _ _ _ _ h => exact .inr (openRenewal_renewed hreq h)

/-! ### Every step -/

/-- An operation with a reply. -/
theorem replied_moves {α : Type} {x : Except Failure (α × Db)}
    (hx : ∀ a db', x = .ok (a, db') → Moves env req tx db db') (h : Prod.snd <$> x = .ok db') :
    Moves env req tx db db' := by
  rw [Checked.map_ok] at h
  obtain ⟨⟨a, db₁⟩, h, rfl⟩ := h
  exact hx a db₁ h

/-- Every request of a user is a chain of changes. -/
theorem performUser_moves {user : Actor} {r : UserRequest}
    (huser : (db.registry.users.find? user.id).isSome)
    (h : performUser env tx db user r = .ok db') : Moves env (.user user r) tx db db' := by
  cases r with
  | createUser => exact createUser_moves h
  | publishModel => exact withRegistry_moves (fun _ => Registry.publishModel_operates) h
  | qualifyModel => exact withRegistry_moves (fun _ => Registry.qualifyModel_operates) h
  | domain => exact withRegistry_moves (fun _ => Registry.domain_operates) h
  | invite => exact withRegistry_moves (fun _ => Registry.invite_operates) h
  | nodeState => exact withRegistry_moves (fun _ => Registry.nodeState_operates) h
  | publishRoute => exact withRegistry_moves (fun _ => Registry.publish_operates) h
  | consentRoute => exact withRegistry_moves (fun _ => Registry.accept_operates) h
  | withdrawRoute => exact withRegistry_moves (fun _ => Registry.withdraw_operates) h
  | qualifyRoute => exact withRegistry_moves (fun _ => Registry.qualify_operates) h
  | acceptLease => exact acceptLease_moves h
  | cancelLease => exact cancelLease_moves h
  | acceptRoute => exact acceptRouteTransaction_moves h
  | cancelRoute => exact cancelRoute_moves (by simp [Request.advances]) h
  | manage => exact managePool_moves rfl h
  | refund => exact refundConsumption_moves h
  | revokeAffiliation => exact revokeAffiliation_moves rfl h
  | revokeSupport => exact revokeSupport_moves h
  | revokeAuthorization => exact revokeAuthorization_moves h
  | revokeMandate => exact revokeMandate_moves h
  | quote => exact replied_moves (fun _ _ => quote_moves) h
  | grant => exact replied_moves (fun _ _ => grant_moves) h
  | createSession => exact replied_moves (fun _ _ => createSession_moves huser) h
  | cancel => exact replied_moves (fun _ _ => cancel_moves) h
  | offerLease => exact replied_moves (fun _ _ => offerLease_moves) h
  | offerRoute => exact replied_moves (fun _ _ => offerRoute_moves) h
  | createPool => exact replied_moves (fun _ _ => createPool_moves) h
  | fund => exact replied_moves (fun _ _ => fundPool_moves) h
  | offerWindow =>
    exact replied_moves
      (fun _ _ => offerWindowTransaction_moves (fun hkind => by cases hkind) rfl) h
  | party => exact replied_moves (fun _ _ => declareParty_moves rfl) h
  | affiliate => exact replied_moves (fun _ _ => affiliate_moves rfl) h
  | support => exact replied_moves (fun _ _ => declareSupport_moves) h
  | authorizeRenewal => exact replied_moves (fun _ _ => authorizeRenewal_moves) h
  | mandate => exact replied_moves (fun _ _ => mandateProvider_moves) h

/-- Every request of a node is a chain of changes. -/
theorem performNode_moves {id : NodeId} {r : NodeRequest}
    (h : performNode env tx db id r = .ok db') : Moves env (.node id r) tx db db' := by
  cases r with
  | resume => exact withRegistry_moves (fun _ => Registry.resume_operates) h
  | heartbeat => exact withRegistry_moves (fun _ => Registry.heartbeat_operates) h
  | claim => exact (claim_ok h).moves
  | stageClaim => exact (stageClaim_ok h).moves
  | receipt => exact replied_moves (fun _ _ => receipt_moves) h
  | stageReceipt => exact replied_moves (fun _ _ => stageReceipt_moves) h

/-- Every request of the gateway is a chain of changes. -/
theorem performGateway_moves {r : GatewayRequest} (h : performGateway env tx db r = .ok db') :
    Moves env (.gateway r) tx db db' := by
  cases r with
  | admitSession => exact replied_moves (fun _ _ => admitSession_moves rfl) h
  | authorize => exact (authorize_ok h).moves
  | fail => exact fail_moves h

/-- A background step is a chain of changes, or a renewal. -/
theorem performBackground_cases {r : Background} (h : performBackground env tx db r = .ok db') :
    Moves env (.background r) tx db db' ∨ Renewed env (.background r) tx db db' := by
  cases r with
  | register => exact .inl (withRegistry_moves (fun _ => Registry.register_operates) h)
  | reap => exact .inl (reap_moves h)
  | reconcileLease => exact .inl (reconcileLease_moves h)
  | reconcileRoute => exact .inl (reconcileRoute_moves (by simp [Request.advances]) h)
  | reconcilePool => exact .inl (reconcilePool_moves rfl h)
  | expireMandates =>
    simp only [performBackground, Checked.pure_ok] at h
    exact .inl (h ▸ expireMandates_moves db none)
  | attempt => exact attempt_cases rfl h
  | retryPending => exact .inl (retryPending_moves h)
  | setDisabled => exact .inl (withRegistry_moves (fun _ => Registry.setDisabled_operates) h)
  | bootstrap => exact .inl (bootstrap_moves h)

/-- The caller of an authenticated request is a user. -/
theorem authenticated_isSome {caller : Actor} (h : db.authenticated caller = true) :
    (db.registry.users.find? caller.id).isSome := by
  unfold Db.authenticated at h
  split at h
  · rename_i u hu
    rw [hu]
    rfl
  · cases h

/-- **Every operation** that commits is a sequence of moves, or a renewal. -/
theorem perform_cases (h : perform env tx db req = .ok db') :
    Moves env req tx db db' ∨ Renewed env req tx db db' := by
  cases req with
  | user caller r =>
    simp only [perform, Checked.bind_ok, need_ok, exists_const] at h
    exact .inl (performUser_moves (authenticated_isSome h.1) h.2)
  | node => exact .inl (performNode_moves h)
  | gateway => exact .inl (performGateway_moves h)
  | background => exact performBackground_cases h

/-- **Every step** of the coordinator is a sequence of moves, or a renewal. -/
theorem step_cases (i : Tx × Request) (db : Db) :
    Moves env i.2 i.1 db ((controlSystem env).step i db) ∨
      Renewed env i.2 i.1 db ((controlSystem env).step i db) := by
  have hstep : (controlSystem env).step i db =
    { Checked.settle (transaction env i.1 db i.2) db with xid := db.xid + 1 } := rfl
  rcases Checked.settle_cases (transaction env i.1 db i.2) db with ⟨db', hdb', hset⟩ | hset
  · rw [hstep, hset]
    simp only [transaction, Checked.bind_ok, Checked.pure_ok] at hdb'
    obtain ⟨db₁, hperform, _, -, rfl⟩ := hdb'
    -- the identifier of the next transaction is no row of any table
    have hnext : Move env i.2 i.1 db₁ { db₁ with xid := db.xid + 1 } := .committed
    rcases perform_cases hperform with h | h
    · exact .inl (h.trans (.single hnext))
    · exact .inr ⟨h.changes.tail (.inl hnext), h.complete⟩
  · rw [hstep, hset]
    exact .inl (.single .committed)

/-- Every step of the coordinator is a sequence of changes. -/
theorem step_changes (i : Tx × Request) (db : Db) :
    Changes env i.2 i.1 db ((controlSystem env).step i db) := by
  rcases step_cases i db with h | h
  · exact h.changes
  · exact h.changes

/-- **The induction over reachable databases**: what holds initially and what every change
preserves holds in every reachable state. -/
theorem reachable_of_changes {P : Db → Prop} (h0 : ∀ admin, P (Db.initial admin))
    (hc : ∀ req tx db db', P db → Change env req tx db db' → P db')
    (h : Machine.Reachable (controlSystem env) db) : P db := by
  refine h.invariant (P := P) (fun s hs => ?_) (fun s i _ ih => ?_)
  · obtain ⟨admin, rfl⟩ := hs
    exact h0 admin
  · exact (step_changes i s).preserves (fun a b hab ha => hc i.2 i.1 a b ha hab) ih

/-- **The registry of every reachable database** is sound. -/
theorem reachable_registry (h : Machine.Reachable (controlSystem env) db) :
    db.registry.Sound env := by
  refine reachable_of_changes (P := fun db => db.registry.Sound env) (fun admin => ?_)
    (fun _ _ _ _ hs hc => hc.registry.sound hs) h
  constructor <;> intro id row hrow <;> cases hrow

end NetworkAi
