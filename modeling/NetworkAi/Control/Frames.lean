import NetworkAi.Control.Moves

set_option relaxedAutoImplicit false
set_option autoImplicit false

/-!
# What a change leaves alone

Table by table, what any change may do: no row is deleted, the terms of a row never change, and
most changes do not touch a given table at all. An invariant that speaks about the frozen part of
a row needs nothing else.

## Main definitions

* `NetworkAi.Session.Keeps`, `NetworkAi.RouteLease.Keeps`, `NetworkAi.Authorization.Keeps`,
  `NetworkAi.Mandate.Keeps` — the frozen part of a row.

## Main results

* `NetworkAi.Change.registry`, `NetworkAi.Change.sessions`, `NetworkAi.Change.routeLeases`, … —
  what a change does to each table.
* `NetworkAi.Move.authority` — a move that consumes no authority leaves its records alone.
-/

namespace NetworkAi

open Relational

variable {env : Env} {req : Request} {tx t : Tx} {db db' : Db} {s s' : Session}

/-! ### Rows -/

/-- A session keeps its owner, its quote and its hold; once it has ended, only its billing state
may still change. -/
structure Session.Keeps (s s' : Session) : Prop where
  user : s'.userId = s.userId
  quote : s'.quoteId = s.quoteId
  hold : s'.hold = s.hold
  pool : s'.cooperativePoolId = s.cooperativePoolId
  policy : s'.cooperativePolicySha256 = s.cooperativePolicySha256
  ended : s.state.terminal = true → s' = { s with billingState := s'.billingState }

/-- The fields of a member that its offer freezes. -/
structure FrozenMember where
  nodeId : NodeId
  providerId : UserId
  resourceDomainId : DomainId
  ordinal : Nat
  role : MemberRole
  shareBps : Nat
  maximum : Int
  deriving DecidableEq, Repr

/-- The frozen part of a member. -/
def LeaseMember.frozen (m : LeaseMember) : FrozenMember :=
  ⟨m.nodeId, m.providerId, m.resourceDomainId, m.ordinal, m.role, m.shareBps, m.maximum⟩

/-- A window keeps its terms and its members; its end is fixed when it starts, and once it has
ended nothing changes. -/
structure RouteLease.Keeps (l l' : RouteLease) : Prop where
  sponsor : l'.sponsorId = l.sponsorId
  route : l'.routeId = l.routeId
  routeSha : l'.routeSha256 = l.routeSha256
  terms : l'.terms = l.terms
  sha : l'.termsSha256 = l.termsSha256
  rate : l'.rate = l.rate
  duration : l'.durationSeconds = l.durationSeconds
  budget : l'.budget = l.budget
  expires : l'.offerExpiresAt = l.offerExpiresAt
  members : l'.members.map (·.frozen) = l.members.map (·.frozen)
  earned : (l.members.map (·.paid)).sum ≤ (l'.members.map (·.paid)).sum
  started : l.state ≠ .offered → l'.state ≠ .offered ∧ l'.startedMs = l.startedMs ∧
    l'.endsMs = l.endsMs
  ended : l.state.funded = false → l' = l

/-- A node's lease keeps its terms, and its credited time never shrinks. -/
structure NodeLease.Keeps (l l' : NodeLease) : Prop where
  sponsor : l'.sponsorId = l.sponsorId
  provider : l'.providerId = l.providerId
  domain : l'.resourceDomainId = l.resourceDomainId
  rate : l'.rate = l.rate
  duration : l'.durationSeconds = l.durationSeconds
  budget : l'.budget = l.budget
  credited : l.credited ≤ l'.credited
  ended : l.state.isOpen = false → l' = l

/-- An authorization keeps its terms and its limits, and never returns to the active state. -/
structure Authorization.Keeps (a a' : Authorization) : Prop where
  pool : a'.poolId = a.poolId
  group : a'.groupKey = a.groupKey
  windows : a'.maximumWindows = a.maximumWindows
  working : a'.maximumWorking = a.maximumWorking
  reserve : a'.maximumReserve = a.maximumReserve
  terms : a'.terms = a.terms
  sha : a'.termsSha256 = a.termsSha256
  expires : a'.expiresAt = a.expiresAt
  active : a'.state = .active → a.state = .active

/-- A mandate keeps its terms and its limit, and never returns to the active state. -/
structure Mandate.Keeps (m m' : Mandate) : Prop where
  provider : m'.providerId = m.providerId
  windows : m'.maximumWindows = m.maximumWindows
  terms : m'.terms = m.terms
  sha : m'.termsSha256 = m.termsSha256
  expires : m'.expiresAt = m.expiresAt
  active : m'.state = .active → m.state = .active

/-- A session keeps its frozen part with itself. -/
theorem Session.Keeps.refl (s : Session) : s.Keeps s := ⟨rfl, rfl, rfl, rfl, rfl, fun _ => rfl⟩

/-- A window keeps its frozen part with itself. -/
theorem RouteLease.Keeps.refl (l : RouteLease) : l.Keeps l :=
  ⟨rfl, rfl, rfl, rfl, rfl, rfl, rfl, rfl, rfl, rfl, le_rfl, fun h => ⟨h, rfl, rfl⟩, fun _ => rfl⟩

/-- A contract keeps its frozen part with itself. -/
theorem NodeLease.Keeps.refl (l : NodeLease) : l.Keeps l :=
  ⟨rfl, rfl, rfl, rfl, rfl, rfl, le_rfl, fun _ => rfl⟩

/-- An authorization keeps its frozen part with itself. -/
theorem Authorization.Keeps.refl (a : Authorization) : a.Keeps a :=
  ⟨rfl, rfl, rfl, rfl, rfl, rfl, rfl, rfl, id⟩

/-- A mandate keeps its frozen part with itself. -/
theorem Mandate.Keeps.refl (m : Mandate) : m.Keeps m := ⟨rfl, rfl, rfl, rfl, rfl, id⟩

/-- A closed authorization keeps its frozen part. -/
theorem Authorization.Closes.keeps {a a' : Authorization} (h : a.Closes a') : a.Keeps a' := by
  rw [h.row]
  exact ⟨rfl, rfl, rfl, rfl, rfl, rfl, rfl, rfl, h.active⟩

/-- A closed mandate keeps its frozen part. -/
theorem Mandate.Closes.keeps {m m' : Mandate} (h : m.Closes m') : m.Keeps m' := by
  rw [h.row]
  exact ⟨rfl, rfl, rfl, rfl, rfl, h.active⟩

/-- Participants that differ only in what an admission does not freeze. -/
theorem map_frozen {f : SessionParticipant → SessionParticipant} (hf : ∀ p, (f p).frozen = p.frozen)
    (ps : List SessionParticipant) : (ps.map f).map (·.frozen) = ps.map (·.frozen) := by
  rw [List.map_map]
  exact List.map_congr_left fun p _ => hf p

/-- A stage's claim leaves the frozen parts of the participants. -/
theorem frozen_claimParticipant (t : Tx) (nodeId : NodeId) (ps : List SessionParticipant) :
    (claimParticipant t nodeId ps).map (·.frozen) = ps.map (·.frozen) :=
  map_frozen (fun p => by split <;> rfl) ps

/-- A preparation leaves the frozen parts of the participants. -/
theorem frozen_prepareParticipants (d : AuthorizeRequest) (stages : List (NodeId × String))
    (ps : List SessionParticipant) :
    (prepareParticipants d stages ps).map (·.frozen) = ps.map (·.frozen) := by
  unfold prepareParticipants
  rw [List.map_map]
  rfl

/-- A stage's receipt leaves the frozen parts of the participants. -/
theorem frozen_recordStage (nodeId : NodeId) (r : StageReceipt) (ps : List SessionParticipant) :
    (recordStage nodeId r ps).map (·.frozen) = ps.map (·.frozen) :=
  map_frozen (fun p => by split <;> rfl) ps

/-- An authorization leaves the frozen parts of the participants. -/
theorem authorizeParticipants_ok {d : AuthorizeRequest} {ps : List SessionParticipant}
    (h : authorizeParticipants t db s d = .ok ps) :
    ps.map (·.frozen) = s.participants.map (·.frozen) := by
  unfold authorizeParticipants at h
  split at h
  · simp only [Checked.bind_ok, need_ok, Checked.pure_ok, exists_const] at h
    obtain ⟨-, -, -, rfl⟩ := h
    exact frozen_prepareParticipants _ _ _
  · simp only [Checked.bind_ok, need_ok, Checked.pure_ok, exists_const] at h
    rw [← h.2]

/-- An update lets a session go on. -/
theorem Updated.continues {t : Tx} {id : SessionId} {s s' : Session}
    (h : Updated env t db id s req s') : s.Continues s' := by
  cases h with
  | authorized hstate _ hps =>
    exact ⟨rfl, authorizeParticipants_ok hps, by rw [hstate]; rfl, rfl, by rw [hstate]; rfl⟩
  | claimed _ hstate _ _ _ _ =>
    refine ⟨rfl, ?_, by rw [hstate]; rfl, rfl, by rw [hstate]; rfl⟩
    dsimp only
    split
    · exact frozen_claimParticipant _ _ _
    · rfl
  | stageClaimed _ _ hstate =>
    have hlive : s.state.terminal = false := by rw [hstate]; rfl
    exact ⟨rfl, frozen_claimParticipant _ _ _, hlive, hlive, rfl⟩
  | stageReported _ _ hlive => exact ⟨rfl, frozen_recordStage _ _ _, hlive, hlive, rfl⟩
  | reported _ _ hstate =>
    have hlive : s.state.terminal = false := by rw [hstate]; rfl
    exact ⟨rfl, rfl, hlive, hlive, rfl⟩
  | cancelling hstate =>
    refine ⟨rfl, rfl, ?_, rfl, ?_⟩
    · rcases hstate with hstate | hstate
      · rw [hstate]
        rfl
      · rw [hstate]
        rfl
    · rcases hstate with hstate | hstate
      · rw [hstate]
        rfl
      · rw [hstate]

/-- A receipt of the root changes nothing but the record of its usage. -/
theorem Reporting.row {s s' : Session} (h : Reporting env s s') :
    s' = { s with
      receipt := s'.receipt, promptTokens := s'.promptTokens
      completionTokens := s'.completionTokens, elapsedMs := s'.elapsedMs } := by
  cases h <;> rfl

/-- A session that continues keeps its frozen part. -/
theorem Session.Continues.keeps {s s' : Session} (h : s.Continues s') : s.Keeps s' := by
  have hlive := h.live
  rw [h.row]
  exact ⟨rfl, rfl, rfl, rfl, rfl, fun ht => by rw [hlive] at ht; cases ht⟩

/-- An admission keeps the frozen part of a session, whose offer is still open. -/
theorem Admitted.keeps {t : Tx} {s s' : Session} {o : Offer} (h : Admitted t db s o s') :
    s.Keeps s' := by
  have hqueued := h.queued
  rw [h.row]
  exact ⟨rfl, rfl, rfl, rfl, rfl, fun ht => by rw [hqueued] at ht; cases ht⟩

/-- The division of a charge keeps the frozen part of the session. -/
theorem Split.same {id : SessionId} {s s' : Session} {charge : Int}
    {entries : List (AccountId × Int)} {settlements : Table SessionId Settlement}
    (h : Split db id s charge entries s' settlements) :
    s' = { s with participants := s'.participants } := by
  cases h <;> rfl

/-- The end of a live session keeps its frozen part. -/
theorem Split.finished_keeps {t : Tx} {id : SessionId} {s₀ s s' : Session} {charge : Int}
    {entries : List (AccountId × Int)} {settlements : Table SessionId Settlement}
    {state : ReceiptState} {error : Option String} {billing : Option BillingState}
    (h : Split db id s charge entries s' settlements) (hreport : Reporting env s₀ s)
    (hlive : s₀.state.terminal = false) :
    s₀.Keeps (s'.finished t state charge error billing) := by
  rw [h.same, hreport.row]
  exact ⟨rfl, rfl, rfl, rfl, rfl, fun ht => by rw [hlive] at ht; cases ht⟩

/-! ### Members of a window under observation -/

/-- An observation is about the members of its window, in their order. -/
theorem observeRoute_members {row : RouteLease} {now : Int} {observation : Observation}
    (h : observeRoute db row now = .ok observation) :
    observation.members.map (·.member) = row.members := by
  unfold observeRoute at h
  simp only [Checked.bind_ok, Checked.pure_ok] at h
  obtain ⟨members, hmembers, rfl⟩ := h
  have hm := Checked.mapM_map_eq hmembers (g := (·.member)) (k := id) fun p o ho => by
    unfold observeMember at ho
    simp only [Checked.bind_ok, reference_ok, Checked.pure_ok] at ho
    obtain ⟨n, -, u, -, m, -, rfl⟩ := ho
    rfl
  rw [List.map_id] at hm
  exact hm

/-- What a sample credits to a member does not touch its frozen part. -/
theorem creditMember_frozen {row : RouteLease} {elapsed : Int} {contiguous : Bool}
    {o : ObservedMember} {c : LeaseMember × Bool}
    (h : creditMember row elapsed contiguous o = .ok c) : c.1.frozen = o.member.frozen := by
  unfold creditMember at h
  simp only [Checked.bind_ok, need_ok, Checked.pure_ok, exists_const] at h
  obtain ⟨-, rfl⟩ := h
  rfl

/-- The frozen parts of the members after a sample. -/
theorem credits_frozen {row : RouteLease} {now elapsed : Int} {contiguous : Bool}
    {observation : Observation} {credits : List (LeaseMember × Bool)}
    (hobs : observeRoute db row now = .ok observation)
    (h : observation.members.mapM (creditMember row elapsed contiguous) = .ok credits) :
    (credits.map Prod.fst).map (·.frozen) = row.members.map (·.frozen) := by
  rw [← observeRoute_members hobs, List.map_map, List.map_map]
  exact Checked.mapM_map_eq h fun _ _ => creditMember_frozen

/-- No member loses earnings by a sample. -/
theorem credits_earned {row : RouteLease} {now elapsed : Int} {contiguous : Bool}
    {observation : Observation} {credits : List (LeaseMember × Bool)}
    (hobs : observeRoute db row now = .ok observation)
    (h : observation.members.mapM (creditMember row elapsed contiguous) = .ok credits) :
    (row.members.map (·.paid)).sum ≤ (credits.map (·.1.paid)).sum := by
  rw [← observeRoute_members hobs, List.map_map]
  rw [Checked.mapM_ok] at h
  generalize observation.members = members at h
  induction h with
  | nil => exact le_rfl
  | cons hoc _ ih =>
    unfold creditMember at hoc
    simp only [Checked.bind_ok, need_ok, Checked.pure_ok, exists_const] at hoc
    obtain ⟨⟨hpos, -⟩, rfl⟩ := hoc
    simp only [List.map_cons, List.sum_cons, Function.comp_apply]
    have := sub_nonneg.1 hpos
    exact add_le_add this ih

/-- The earnings of the members of a window that starts. -/
theorem activated_earned {row : RouteLease} {now : Int} {observation : Observation}
    (hobs : observeRoute db row now = .ok observation) :
    (row.activated observation now).members.map (·.paid) = row.members.map (·.paid) := by
  rw [← observeRoute_members hobs]
  simp only [RouteLease.activated, List.map_map]
  rfl

/-- The earnings of the members of a window that drains. -/
theorem drained_earned (row : RouteLease) (t : Tx) (user : UserId) :
    (row.drained t user).members.map (·.paid) = row.members.map (·.paid) := by
  simp only [RouteLease.drained, List.map_map]
  refine List.map_congr_left fun p _ => ?_
  simp only [Function.comp_apply]
  split <;> rfl

/-- The frozen parts of the members of a window that starts. -/
theorem activated_frozen {row : RouteLease} {now : Int} {observation : Observation}
    (hobs : observeRoute db row now = .ok observation) :
    (row.activated observation now).members.map (·.frozen) = row.members.map (·.frozen) := by
  rw [← observeRoute_members hobs]
  simp only [RouteLease.activated, List.map_map]
  rfl

/-- The frozen parts of the members of a window that drains. -/
theorem drained_frozen (row : RouteLease) (t : Tx) (user : UserId) :
    (row.drained t user).members.map (·.frozen) = row.members.map (·.frozen) := by
  simp only [RouteLease.drained, List.map_map]
  refine List.map_congr_left fun p _ => ?_
  simp only [Function.comp_apply]
  split <;> rfl

/-! ### The tables -/

/-- The registry evolves. -/
theorem Change.registry (h : Change env req tx db db') : db.registry.Evolves env db'.registry := by
  rcases h with h | h
  · cases h with
    | registry h _ => exact h
    | _ => exact .refl env _
  · cases h <;> exact .refl env _

/-- No session is deleted, and a new one of a known user is queued under a quote. -/
theorem Change.sessions (h : Change env req tx db db') :
    db.sessions.Grows Session.Keeps (fun _ s => (db.registry.users.find? s.userId).isSome ∧
      ∃ t user d quote, db.quotes.find? d.quoteId = some quote ∧ s = newSession t user d quote)
      db'.sessions := by
  rcases h with h | h
  · cases h with
    | sessionCreated hid hquote _ huser _ =>
      exact .insert Session.Keeps.refl hid ⟨huser, _, _, _, _, hquote, rfl⟩
    | sessionAdmitted hs h => exact .set Session.Keeps.refl hs h.keeps
    | sessionUpdated hs h => exact .set Session.Keeps.refl hs h.continues.keeps
    | sessionFinalized hs hreport hlive _ _ _ hsplit _ =>
      exact .set Session.Keeps.refl hs (hsplit.finished_keeps hreport hlive)
    | consumptionRefunded hs _ _ _ =>
      exact .set Session.Keeps.refl hs ⟨rfl, rfl, rfl, rfl, rfl, fun _ => rfl⟩
    | _ => exact .refl Session.Keeps.refl _
  · cases h <;> exact .refl Session.Keeps.refl _

/-- No lease of a node is deleted, and a new one is offered. -/
theorem Change.nodeLeases (h : Change env req tx db db') :
    db.nodeLeases.Grows NodeLease.Keeps (fun _ l => l.state = .offered ∧ l.credited = 0)
      db'.nodeLeases := by
  rcases h with h | h
  · cases h with
    | nodeLeaseOffered hid hstate hnew =>
      exact .insert NodeLease.Keeps.refl hid ⟨hstate, hnew.2.1⟩
    | nodeLeaseActivated hrow hstate =>
      exact .set NodeLease.Keeps.refl hrow ⟨rfl, rfl, rfl, rfl, rfl, rfl, le_rfl,
        fun h => by rw [hstate] at h; cases h⟩
    | nodeLeaseSampled hrow hstate =>
      refine .set NodeLease.Keeps.refl hrow ⟨rfl, rfl, rfl, rfl, rfl, rfl, ?_,
        fun h => by rw [hstate] at h; cases h⟩
      simp only [NodeLease.sampled]
      split <;> omega
    | nodeLeaseClosed hrow hopen =>
      exact .set NodeLease.Keeps.refl hrow ⟨rfl, rfl, rfl, rfl, rfl, rfl, le_rfl,
        fun h => by rw [hopen] at h; cases h⟩
    | _ => exact .refl NodeLease.Keeps.refl _
  · cases h <;> exact .refl NodeLease.Keeps.refl _

/-- No window is deleted, and a new one is offered under its terms.

**Proof sketch.** By the move. A new window is one that was offered. A write of an old one keeps the
terms; an activation, a sample and a drain keep the members up to their samples (`activated_frozen`,
`credits_frozen`, `drained_frozen`), earn no less, and none of them leaves an ended state. -/
theorem Change.routeLeases (h : Change env req tx db db') :
    db.routeLeases.Grows RouteLease.Keeps (fun id l => ∃ t d route terms books,
      RouteOffered env t db d route terms books ∧ terms.leaseId = id ∧
        l = newRouteLease env t db.xid d terms) db'.routeLeases := by
  rcases h with h | h
  · cases h with
    | routeOffered h _ => exact .insert RouteLease.Keeps.refl h.id ⟨_, _, _, _, _, h, rfl, rfl⟩
    | windowOffered h _ _ => exact .insert RouteLease.Keeps.refl h.id ⟨_, _, _, _, _, h, rfl, rfl⟩
    | routeAccepted hrow hstate _ =>
      exact .set RouteLease.Keeps.refl hrow ⟨rfl, rfl, rfl, rfl, rfl, rfl, rfl, rfl, rfl, rfl,
        le_rfl, fun h => ⟨h, rfl, rfl⟩, fun h => by rw [hstate] at h; cases h⟩
    | routeActivated hrow hstate _ _ hobs _ _ =>
      exact .set RouteLease.Keeps.refl hrow ⟨rfl, rfl, rfl, rfl, rfl, rfl, rfl, rfl, rfl,
        activated_frozen hobs, by rw [activated_earned hobs], fun h => absurd hstate h,
        fun h => by rw [hstate] at h; cases h⟩
    | @routeSampled _ row _ _ _ observation _ _ _ hrow hstate _ _ _ hobs hcredits hsampled _ _ =>
      subst hsampled
      refine .set RouteLease.Keeps.refl hrow ⟨rfl, rfl, rfl, rfl, rfl, rfl, rfl, rfl, rfl,
        credits_frozen hobs hcredits, ?_, fun h => ⟨?_, rfl, rfl⟩, fun h => ?_⟩
      · simp only [RouteLease.sampled, List.map_map]
        exact credits_earned hobs hcredits
      · show (if observation.joint = true then row.state else .draining) ≠ .offered
        split
        · exact h
        · exact RouteLeaseState.noConfusion
      · revert hstate h
        cases row.state <;> simp [RouteLeaseState.funded, RouteLeaseState.running]
    | @routeDrained t user _ row hrow hstate =>
      refine .set RouteLease.Keeps.refl hrow ⟨rfl, rfl, rfl, rfl, rfl, rfl, rfl, rfl, rfl,
        drained_frozen row t user, by rw [drained_earned],
        fun _ => ⟨RouteLeaseState.noConfusion, rfl, rfl⟩, fun h => ?_⟩
      revert hstate h
      cases row.state <;> simp [RouteLeaseState.funded, RouteLeaseState.running]
    | @routeClosed t _ row state _ _ hrow hend _ =>
      refine .set RouteLease.Keeps.refl hrow ⟨rfl, rfl, rfl, rfl, rfl, rfl, rfl, rfl, rfl, rfl,
        le_rfl, fun h => ⟨?_, rfl, rfl⟩, fun h => ?_⟩
      · show state ≠ .offered
        rcases hend with ⟨hstate, -⟩ | ⟨-, -, rfl, -⟩
        · exact absurd hstate h
        · exact RouteLeaseState.noConfusion
      · rcases hend with ⟨hstate, -⟩ | ⟨hstate, -⟩
        · rw [hstate] at h
          cases h
        · revert hstate h
          cases row.state <;> simp [RouteLeaseState.funded, RouteLeaseState.running]
    | _ => exact .refl RouteLease.Keeps.refl _
  · cases h <;> exact .refl RouteLease.Keeps.refl _

/-- A window of a pool is never changed, and a new one is offered with its lease. -/
theorem Change.windows (h : Change env req tx db db') :
    db.windows.Grows Eq (fun id w => ∃ t d route terms books p c,
      RouteOffered env t db d route terms books ∧ WindowMatches db terms w p c ∧
        terms.leaseId = id ∧
        db'.routeLeases.find? id = some (newRouteLease env t db.xid d terms) ∧
        (w.kind = .expansion → ∃ a, req = .background (.attempt a))) db'.windows := by
  rcases h with h | h
  · cases h with
    | windowOffered h hmatch hid hkind =>
      exact .insert (fun _ => rfl) hid
        ⟨_, _, _, _, _, _, _, h, hmatch, rfl, Table.find?_insert_self (h := h.id), hkind⟩
    | _ => exact .refl (fun _ => rfl) _
  · cases h <;> exact .refl (fun _ => rfl) _

/-- A pool keeps its policy and groups. -/
theorem Change.pools (h : Change env req tx db db') :
    db.pools.Grows Pool.Same (fun _ p => (p.groups.map (·.key)).Nodup ∧
      p.policySha256 = env.digest p.policy.toJs) db'.pools := by
  rcases h with h | h
  · cases h with
    | poolCreated hid hkeys hsha _ => exact .insert Pool.Same.refl hid ⟨hkeys, hsha⟩
    | poolsUpdated h => exact ⟨h.1, fun k p hp hn => (h.2 k p hp hn).elim⟩
    | _ => exact .refl Pool.Same.refl _
  · cases h <;> exact .refl Pool.Same.refl _

/-- An affiliation may be revoked; a new one is the only current one of its user. -/
theorem Change.affiliations (h : Change env req tx db db') :
    db.affiliations.Grows Affiliation.Revokes (fun id a => a.OnlyOne id db'.affiliations)
      db'.affiliations := by
  rcases h with h | h
  · cases h with
    | economy _ hone => exact hone
    | _ => exact .refl Affiliation.Revokes.refl _
  · cases h <;> exact .refl Affiliation.Revokes.refl _

/-- An authorization keeps its terms, under their hash. -/
theorem Change.authorizations (h : Change env req tx db db') :
    db.authorizations.Grows Authorization.Keeps (fun _ a => Authorized env db a)
      db'.authorizations := by
  rcases h with h | h
  · cases h with
    | authorized hid h => exact .insert Authorization.Keeps.refl hid h
    | authorizationsClosed h =>
      exact ⟨fun k a ha => (h.1 k a ha).imp fun _ hr => ⟨hr.1, hr.2.keeps⟩,
        fun k a ha hn => (h.2 k a ha hn).elim⟩
    | _ => exact .refl Authorization.Keeps.refl _
  · cases h with
    | authority ha _ _ hcovers _ _ =>
      refine .set Authorization.Keeps.refl ha ⟨rfl, rfl, rfl, rfl, rfl, rfl, rfl, rfl, fun _ => ?_⟩
      simp only [authorityCovers, Bool.decide_and, Bool.and_eq_true, decide_eq_true_eq] at hcovers
      exact hcovers.1
    | _ => exact .refl Authorization.Keeps.refl _

/-- A mandate keeps its terms, under their hash. -/
theorem Change.mandates (h : Change env req tx db db') :
    db.mandates.Grows Mandate.Keeps (fun _ m => Mandated env m) db'.mandates := by
  rcases h with h | h
  · cases h with
    | mandated hid h => exact .insert Mandate.Keeps.refl hid h
    | mandatesClosed h =>
      exact ⟨fun k m hm => (h.1 k m hm).imp fun _ hr => ⟨hr.1, hr.2.keeps⟩,
        fun k m hm hn => (h.2 k m hm hn).elim⟩
    | _ => exact .refl Mandate.Keeps.refl _
  · cases h with
    | mandate hm _ _ hcovers _ _ =>
      refine .set Mandate.Keeps.refl hm ⟨rfl, rfl, rfl, rfl, rfl, fun _ => ?_⟩
      simp only [mandateCovers, Bool.decide_and, Bool.and_eq_true, decide_eq_true_eq] at hcovers
      exact hcovers.1
    | _ => exact .refl Mandate.Keeps.refl _

/-- Quotes, fundings, settlements and refunds are never changed. -/
theorem Change.frozen (h : Change env req tx db db') :
    db.quotes.Grows Eq (fun _ _ => True) db'.quotes ∧
      db.fundings.Grows Eq (fun _ _ => True) db'.fundings ∧
      db.settlements.Grows Eq (fun _ _ => True) db'.settlements ∧
      db.refunds.Grows Eq (fun _ _ => True) db'.refunds := by
  have hr : ∀ {K V : Type} [DecidableEq K] {New : K → V → Prop} (t : Table K V),
      t.Grows Eq New t := fun t => .refl (fun _ => rfl) t
  rcases h with h | h
  · cases h with
    | quoted hid => exact ⟨.insert (fun _ => rfl) hid trivial, hr _, hr _, hr _⟩
    | funded hid => exact ⟨hr _, .insert (fun _ => rfl) hid trivial, hr _, hr _⟩
    | sessionFinalized _ _ _ _ _ _ hsplit =>
      refine ⟨hr _, hr _, ?_, hr _⟩
      cases hsplit with
      | recycled _ _ _ _ _ _ hid => exact .insert (fun _ => rfl) hid trivial
      | _ => exact hr _
    | consumptionRefunded _ _ hid => exact ⟨hr _, hr _, hr _, .insert (fun _ => rfl) hid trivial⟩
    | _ => exact ⟨hr _, hr _, hr _, hr _⟩
  · cases h <;> exact ⟨hr _, hr _, hr _, hr _⟩

/-- The records of consumed authority are never changed. -/
theorem Change.records (h : Change env req tx db db') :
    db.runs.Grows Eq (fun _ _ => True) db'.runs ∧
      db.usages.Grows Eq (fun _ _ => True) db'.usages ∧
      db.demands.Grows Eq (fun _ e => e.evidenceSha256 = env.digest e.evidence.toJs)
        db'.demands := by
  have hr : ∀ {K V : Type} [DecidableEq K] {New : K → V → Prop} (t : Table K V),
      t.Grows Eq New t := fun t => .refl (fun _ => rfl) t
  rcases h with h | h
  · cases h <;> exact ⟨hr _, hr _, hr _⟩
  · cases h with
    | authority _ _ _ _ _ hid => exact ⟨.insert (fun _ => rfl) hid trivial, hr _, hr _⟩
    | mandate _ _ _ _ _ hid => exact ⟨hr _, .insert (fun _ => rfl) hid trivial, hr _⟩
    | demand hid hsha => exact ⟨hr _, hr _, .insert (fun _ => rfl) hid hsha⟩

/-- A move that consumes no authority leaves its records alone. -/
theorem Move.authority (h : Move env req tx db db') :
    db'.runs = db.runs ∧ db'.usages = db.usages ∧ db'.demands = db.demands := by
  cases h <;> exact ⟨rfl, rfl, rfl⟩

end NetworkAi
