import NetworkAi.Invariants.Handshake

set_option relaxedAutoImplicit false
set_option autoImplicit false

/-!
# The start of a session

The claim of the root is the only way into execution. It consumes the authorization of the
session, once in every run, and on a route it finds every stage claimed with the preparation that
was authorized for it and every node at the epoch that the admission recorded. A request that names
something else changes nothing.

## Main definitions

* `NetworkAi.Starts` — a step makes a session `RUNNING`.
* `NetworkAi.Addressed` — a request of a node names what was authorized for it.

## Main results

* `NetworkAi.Starts.claimed` — only a committed claim of the root starts a session.
* `NetworkAi.addressed_of_committed` — a committed request of a node was addressed.
* `NetworkAi.route_execution` — the safety of the handshake.
-/

namespace NetworkAi

open Relational

variable {env : Env} {req : Request} {tx t : Tx} {db db' : Db} {id : SessionId} {s s' : Session}
  {history : List Request}

/-! ### Starting a session -/

/-- A session is `RUNNING`. -/
def Db.running (db : Db) (id : SessionId) : Prop :=
  ∃ s, db.sessions.find? id = some s ∧ s.state = .running

/-- A step makes a session `RUNNING`. -/
def Starts (env : Env) (db : Db) (i : Tx × Request) (id : SessionId) : Prop :=
  ¬ db.running id ∧ ((controlSystem env).step i db).running id

/-- A change by another request starts nothing. -/
theorem Change.not_running (h : Change env req tx db db') (hreq : ¬ req.Handshakes id)
    (hn : ¬ db.running id) : ¬ db'.running id := by
  rintro ⟨s', hs', hstate⟩
  rcases h.session_cases hs' with ⟨-, t, user, d, quote, -, rfl⟩ | ⟨s, hs, hstep⟩
  · cases hstate
  · rcases hstep.quiet hreq with hquiet | ⟨t, o, hadmission⟩
    · rcases hquiet.state with heq | heq | heq
      · exact hn ⟨s, hs, heq ▸ hstate⟩
      · rw [hstate] at heq
        cases heq
      · rw [hstate] at heq
        cases heq
    · rw [hadmission.row] at hstate
      cases hstate

/-- **Only a committed claim of the root starts a session**, one that was authorized for it. -/
theorem Starts.claimed {i : Tx × Request} (h : Starts env db i id) :
    ∃ s nodeId d db', db.sessions.find? id = some s ∧ i.2 = .node nodeId (.claim d) ∧
      transaction env i.1 db i.2 = .ok db' ∧ d.sessionId = id ∧ s.state = .authorized ∧
      (s.nodeId = some nodeId ∧ s.attemptId = some d.attemptId ∧ s.nodeEpoch = some d.epoch ∧
        s.prepareId = some d.prepareId) ∧
      (s.routeId.isSome → currentParticipants i.1 db s true = .ok () ∧
        ∀ p ∈ s.stages, p.claimedAt ≠ none) := by
  obtain ⟨hbefore, hafter⟩ := h
  cases hi : transaction env i.1 db i.2 with
  | error e =>
    rw [step_rejected hi] at hafter
    exact absurd hafter hbefore
  | ok db' =>
    by_cases hreq : i.2.Handshakes id
    · obtain ⟨s, s', hs, hupdated, rfl⟩ := handshake_letGo hreq hi
      rw [step_committed hi] at hafter
      obtain ⟨s₁, hs₁, hstate⟩ := hafter
      have hfound : (db.sessions.set id s').find? id = some s' := Table.find?_set_self hs
      have hs₁ : (db.sessions.set id s').find? id = some s₁ := hs₁
      rw [hfound, Option.some.injEq] at hs₁
      subst hs₁
      generalize i.2 = req at hupdated hreq
      cases hupdated with
      | authorized => cases hstate
      | claimed hfor hauthorized hid _ _ hroute =>
        exact ⟨s, _, _, _, hs, rfl, rfl, hfor, hauthorized, hid, hroute⟩
      | stageClaimed _ _ hauthorized =>
        have hstate : s.state = .running := hstate
        rw [hauthorized] at hstate
        cases hstate
      | stageReported | reported | cancelling => exact hreq.elim
    · exact absurd hafter (Machine.Star.preserves (P := fun db => ¬ db.running id)
        (fun a b hc hp => hc.not_running hreq hp) (step_changes i db) hbefore)

/-- A committed claim of a session as a whole starts it. -/
theorem starts_of_claim {i : Tx × Request} {nodeId : NodeId} {d : ClaimRequest}
    (hi : i.2 = .node nodeId (.claim d)) (hcommit : transaction env i.1 db i.2 = .ok db') :
    Starts env db i d.sessionId ∧
      ∃ s, db.sessions.find? d.sessionId = some s ∧ s.state = .authorized := by
  have hreq : i.2.Handshakes d.sessionId := by rw [hi]; rfl
  obtain ⟨s, s', hs, hupdated, rfl⟩ := handshake_letGo hreq hcommit
  rw [hi] at hupdated
  cases hupdated with
  | claimed _ hauthorized =>
    refine ⟨⟨?_, ?_⟩, s, hs, hauthorized⟩
    · rintro ⟨s₁, hs₁, hstate⟩
      rw [hs, Option.some.injEq] at hs₁
      rw [← hs₁, hauthorized] at hstate
      cases hstate
    · rw [step_committed hcommit]
      exact ⟨_, Table.find?_set_self hs, rfl⟩

/-! ### Requests that name something else -/

/-- A request of a node names what was authorized for it: a claim the attempt, the epoch and the
preparation, a receipt the attempt and the epoch, of a stage also the hash of the route. -/
def Addressed (db : Db) (nodeId : NodeId) : NodeRequest → Prop
  | .claim d => ∃ s, db.sessions.find? d.sessionId = some s ∧ s.nodeId = some nodeId ∧
      s.attemptId = some d.attemptId ∧ s.nodeEpoch = some d.epoch ∧ s.prepareId = some d.prepareId
  | .stageClaim d => ∃ s, db.sessions.find? d.sessionId = some s ∧
      s.attemptId = some d.attemptId ∧ ∃ p ∈ s.stages, p.nodeId = nodeId ∧
        p.nodeEpoch = d.epoch ∧ p.prepareId = some d.prepareId
  | .receipt d => ∃ s, db.sessions.find? d.sessionId = some s ∧ s.nodeId = some nodeId ∧
      s.attemptId = some d.attemptId ∧ s.nodeEpoch = some d.epoch
  | .stageReceipt d => ∃ s, db.sessions.find? d.sessionId = some s ∧
      s.attemptId = some d.attemptId ∧ s.routeSha256 = some d.routeSha256 ∧ ∃ p ∈ s.stages,
        p.nodeId = nodeId ∧ p.nodeEpoch = d.epoch
  | _ => True

/-- A committed request of a node was addressed. -/
theorem addressed_of_committed {nodeId : NodeId} {r : NodeRequest}
    (h : transaction env tx db (.node nodeId r) = .ok db') : Addressed db nodeId r := by
  simp only [transaction, Checked.bind_ok, Checked.pure_ok] at h
  obtain ⟨db₁, hperform, -⟩ := h
  cases r with
  | resume | heartbeat => trivial
  | claim d =>
    have hgo : LetGo env tx db d.sessionId (.node nodeId (.claim d)) db₁ := claim_ok hperform
    obtain ⟨s, s', hs, hupdated, -⟩ := hgo
    cases hupdated with
    | claimed _ _ hid => exact ⟨s, hs, hid⟩
  | stageClaim d =>
    have hgo : LetGo env tx db d.sessionId (.node nodeId (.stageClaim d)) db₁ :=
      stageClaim_ok hperform
    obtain ⟨s, s', hs, hupdated, -⟩ := hgo
    cases hupdated with
    | stageClaimed _ _ _ hid _ hp hclaim =>
      exact ⟨s, hs, hid, _, List.mem_of_find?_eq_some hp, by simpa using List.find?_some hp,
        hclaim.1, hclaim.2.1⟩
  | receipt d =>
    simp only [perform, performNode, Checked.map_ok] at hperform
    obtain ⟨_, hreceipt, -⟩ := hperform
    unfold receipt at hreceipt
    simp only [Checked.bind_ok, parse_ok, needRow_ok, need_ok, exists_const] at hreceipt
    obtain ⟨-, s, hs, hid, -⟩ := hreceipt
    exact ⟨s, hs, hid⟩
  | stageReceipt d =>
    simp only [perform, performNode, Checked.map_ok] at hperform
    obtain ⟨_, hreceipt, -⟩ := hperform
    unfold stageReceipt at hreceipt
    simp only [Checked.bind_ok, parse_ok, needRow_ok, need_ok, exists_const] at hreceipt
    obtain ⟨-, s, hs, p, hp, ⟨-, hattempt, hsha, hepoch⟩, -⟩ := hreceipt
    exact ⟨s, hs, hattempt, hsha, p, List.mem_of_find?_eq_some hp,
      by simpa using List.find?_some hp, hepoch⟩

/-- **Route execution safety.** In every run, with the history of its committed requests:
at most one claim of the root is ever committed for a session, and a committed claim takes the
session from `AUTHORIZED` to `RUNNING`; a session becomes `RUNNING` only by such a claim, for a
single authorization, and, on a route, only when every participant is at the epoch that its
admission recorded and every stage has claimed exactly once, with the preparation that was
authorized for it; a session that has become `RUNNING` never becomes so again; the record of an
admission never changes; and a request of a node that names another attempt, epoch, preparation or
route changes nothing.

**Proof sketch.** The handshake of a session ties its row to the history: how often the root and
each stage have claimed, and for what. A session starts by a claim of its root alone, which asks for
the authorized preparation and, on a route, for participants at their epochs that have all claimed.
A second start would be a second claim in one history. The participants are written once, by the
admission. -/
theorem route_execution (h : History env db history) (id : SessionId) :
    (rootClaims id history).length ≤ 1 ∧
      (∀ i nodeId d db', i.2 = .node nodeId (.claim d) → d.sessionId = id →
        transaction env i.1 db i.2 = .ok db' → Starts env db i id ∧
          ∃ s, db.sessions.find? id = some s ∧ s.state = .authorized) ∧
      (∀ i, Starts env db i id → ∃ s nodeId d a db', db.sessions.find? id = some s ∧
        i.2 = .node nodeId (.claim d) ∧ transaction env i.1 db i.2 = .ok db' ∧
        d.sessionId = id ∧ s.state = .authorized ∧
        (s.nodeId = some nodeId ∧ s.attemptId = some d.attemptId ∧ s.nodeEpoch = some d.epoch) ∧
        rootClaims id history = [] ∧ authorizations id history = [a] ∧
        a.prepareId = d.prepareId ∧ (s.routeId.isSome →
          (∀ p ∈ s.participants, ∃ n, db.registry.nodes.find? p.nodeId = some n ∧
            p.nodeEpoch = n.epoch) ∧
          ∀ p ∈ s.stages, ∃ c, stageClaims id p.nodeId history = [c] ∧
            (p.nodeId, c.prepareId) ∈ a.participants.getD [] ∧ p.nodeEpoch = c.epoch ∧
            s.attemptId = some c.attemptId)) ∧
      (∀ i, Starts env db i id → ∀ is j,
        ¬ Starts env ((controlSystem env).run ((controlSystem env).step i db) is) j id) ∧
      (∀ s, db.sessions.find? id = some s → s.state ≠ .queued → ∀ is, ∃ s',
        ((controlSystem env).run db is).sessions.find? id = some s' ∧
        s'.participants.map (·.admitted) = s.participants.map (·.admitted)) ∧
      ∀ tx nodeId r, ¬ Addressed db nodeId r →
        (controlSystem env).step (tx, .node nodeId r) db = { db with xid := db.xid + 1 } := by
  have hat := h.handshakes id
  have hlength : ∀ {db history}, History env db history → (rootClaims id history).length ≤ 1 := by
    intro db history h
    have hat := h.handshakes id
    cases hs : db.sessions.find? id with
    | none => simp [(hat.absent hs).rootClaims]
    | some s =>
      have hh := hat.present s hs
      by_cases hnone : s.startedAt = none
      · simp [hh.unstarted hnone]
      · obtain ⟨d, hd⟩ := hh.started hnone
        simp [hd]
  refine ⟨hlength h, fun i nodeId d db' hi hfor hcommit => hfor ▸ starts_of_claim hi hcommit,
    fun i hstarts => ?_, fun i hstarts is j hagain => ?_, fun s hs hqueued is => ?_,
    fun tx nodeId r hother => ?_⟩
  · obtain ⟨s, nodeId, d, db', hs, hi, hcommit, hfor, hstate, ⟨hnode, ha, he, hp⟩, hroute⟩ :=
      hstarts.claimed
    have hh := hat.present s hs
    obtain ⟨hstarted, hprepared⟩ := hh.waiting hstate
    obtain ⟨a, hauthorized, hprepare, hstages⟩ := hh.authorized hprepared
    rw [hprepare, Option.some.injEq] at hp
    refine ⟨s, nodeId, d, a, db', hs, hi, hcommit, hfor, hstate, ⟨hnode, ha, he⟩,
      hh.unstarted hstarted, hauthorized, hp, fun hsome => ?_⟩
    obtain ⟨hcurrent, hclaimed⟩ := hroute hsome
    refine ⟨fun p hp => participantCurrent_epoch ((currentParticipants_ok hcurrent).2 p hp),
      fun p hp => ?_⟩
    obtain ⟨c, hc, hprep, hepoch, hattempt⟩ := hh.claimed p hp (hclaimed p hp)
    obtain ⟨x, hx, hmem⟩ := hstages hsome p hp
    rw [hprep, Option.some.injEq] at hx
    exact ⟨c, hc, hx ▸ hmem, hepoch, hattempt⟩
  · obtain ⟨s, nodeId, d, db', hs, hi, hcommit, hfor, -⟩ := hstarts.claimed
    obtain ⟨more, hmore⟩ := (h.committed hcommit).run is
    obtain ⟨s₂, n₂, d₂, db₂, hs₂, hj, hcommit₂, hfor₂, -⟩ := hagain.claimed
    have htwice := hlength (hmore.committed hcommit₂)
    have hfirst : rootClaims id [i.2] = [d] := by simp [rootClaims, Request.claims, hi, hfor]
    have hsecond : rootClaims id [j.2] = [d₂] := by simp [rootClaims, Request.claims, hj, hfor₂]
    rw [rootClaims_append, rootClaims_append, rootClaims_append, hfirst, hsecond] at htwice
    simp only [List.length_append, List.length_singleton] at htwice
    omega
  · refine run_of_changes (P := fun db => ∃ s', db.sessions.find? id = some s' ∧
      s'.state ≠ .queued ∧ s'.participants.map (·.admitted) = s.participants.map (·.admitted))
      (fun _ _ a b hp hc => ?_) ⟨s, hs, hqueued, rfl⟩ is |>.imp fun s' hs' => ⟨hs'.1, hs'.2.2⟩
    obtain ⟨s₁, hs₁, hq, hsame⟩ := hp
    obtain ⟨s₂, hs₂, hstep⟩ := hc.session_step hs₁
    rcases hstep.place with hplace | ⟨t, o, hadmission⟩
    · exact ⟨s₂, hs₂, fun h => hq (hplace.queued h), hplace.participants.trans hsame⟩
    · exact absurd hadmission.queued hq
  · cases hcommit : transaction env tx db (.node nodeId r) with
    | error e =>
      have hreject : transaction env (tx, Request.node nodeId r).1 db
          (tx, Request.node nodeId r).2 = .error e := hcommit
      exact step_rejected hreject
    | ok db' => exact absurd (addressed_of_committed hcommit) hother

/-- The laboratory up to the claim of the root: the session `41000` is authorized, and its stage on
the node `2` has claimed. -/
def labPrepared : List (Tx × Request) :=
  labSetup ++ labPlan ++ labBeats 38 5000 ++ labDemand 40 5000 ++ (labStart 40 5000).take 3

/-- The claim of the root then starts the session, after one authorization and one claim of its
stage with the preparation that was authorized. -/
theorem route_execution_lab :
    ∃ history a c, History labEnv (labDb labPrepared) history ∧
      Starts labEnv (labDb labPrepared)
        (labTx 45 5000, .node 1 (.claim ⟨41000, 42000, 1, "p"⟩)) 41000 ∧
      authorizations 41000 history = [a] ∧ a.prepareId = "p" ∧
      stageClaims 41000 2 history = [c] ∧ (2, c.prepareId) ∈ a.participants.getD [] := by
  have hfacts : ((labDb labPrepared).sessions.find? 41000).map
        (fun s => (s.state, s.routeId.isSome, s.stages.map (·.nodeId))) =
        some (.authorized, true, [2]) ∧
      (transaction labEnv (labTx 45 5000) (labDb labPrepared)
        (.node 1 (.claim ⟨41000, 42000, 1, "p"⟩))).toOption.isSome := by
    decide +kernel
  obtain ⟨hsession, hcommit⟩ := hfacts
  obtain ⟨s, hs, hrow⟩ := Option.map_eq_some_iff.1 hsession
  simp only [Prod.mk.injEq] at hrow
  obtain ⟨-, hroute, hstages⟩ := hrow
  obtain ⟨db', hdb'⟩ := Checked.ok_of_toOption hcommit
  obtain ⟨history, hhistory⟩ := reachable_iff_history.1 (reachable_lab labPrepared)
  have hstarts : Starts labEnv (labDb labPrepared)
      (labTx 45 5000, .node 1 (.claim ⟨41000, 42000, 1, "p"⟩)) 41000 :=
    (starts_of_claim (i := (labTx 45 5000, .node 1 (.claim ⟨41000, 42000, 1, "p"⟩))) rfl hdb').1
  obtain ⟨s₁, nodeId, d, a, _, hs₁, hi, -, -, -, -, -, ha, hprepare, hall⟩ :=
    (route_execution hhistory 41000).2.2.1 _ hstarts
  rw [hs, Option.some.injEq] at hs₁
  subst hs₁
  have hd : d = ⟨41000, 42000, 1, "p"⟩ := by
    have hi : Request.node 1 (.claim ⟨41000, 42000, 1, "p"⟩) = .node nodeId (.claim d) := hi
    simp only [Request.node.injEq, NodeRequest.claim.injEq] at hi
    exact hi.2.symm
  obtain ⟨p, hp, hnode⟩ : ∃ p ∈ s.stages, p.nodeId = 2 := by
    have hmem : 2 ∈ s.stages.map (·.nodeId) := by rw [hstages]; simp
    exact List.mem_map.1 hmem
  obtain ⟨c, hc, hmem, -⟩ := (hall hroute).2 p hp
  rw [hnode] at hc hmem
  exact ⟨history, a, c, hhistory, hstarts, ha, by rw [hprepare, hd], hc, hmem⟩

end NetworkAi
