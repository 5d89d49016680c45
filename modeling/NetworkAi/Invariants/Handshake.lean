import NetworkAi.Invariants.Epochs

set_option relaxedAutoImplicit false
set_option autoImplicit false

/-!
# The handshake of a route

Before a route executes, every stage prepares on its own, the gateway authorizes what they
prepared, every stage claims its part, and the root claims the whole. Five operations guard parts of
this protocol; over a whole run they add up: the columns of a session say exactly which of these
requests have been committed, and none of them can be committed twice.

## Main definitions

* `NetworkAi.History` — the databases of the runs, with the requests that were committed.
* `NetworkAi.authorizations`, `NetworkAi.rootClaims`, `NetworkAi.stageClaims` — the requests of the
  handshake of one session.
* `NetworkAi.Session.Handshake` — the columns of a session agree with the history.

## Main results

* `NetworkAi.Updated.handshake` — a request of the handshake extends both the columns and the
  history.
* `NetworkAi.History.handshakes` — the columns of every session agree with the history.
-/

namespace NetworkAi

open Relational

variable {env : Env} {req : Request} {tx t : Tx} {db db' : Db} {id : SessionId} {s s' : Session}
  {history : List Request}

/-! ### Histories -/

/-- The databases of the runs, with the requests that were committed, oldest first. -/
inductive History (env : Env) : Db → List Request → Prop
  | start (admin : UserId) : History env (Db.initial admin) []
  | committed {db db' : Db} {history : List Request} {i : Tx × Request}
      (h : History env db history) (hcommit : transaction env i.1 db i.2 = .ok db') :
      History env ((controlSystem env).step i db) (history ++ [i.2])
  | rejected {db : Db} {history : List Request} {i : Tx × Request} {e : Failure}
      (h : History env db history) (hreject : transaction env i.1 db i.2 = .error e) :
      History env ((controlSystem env).step i db) history

/-- A history continues with every step. -/
theorem History.step (h : History env db history) (i : Tx × Request) :
    ∃ more, History env ((controlSystem env).step i db) (history ++ more) := by
  cases hi : transaction env i.1 db i.2 with
  | error e => exact ⟨[], by rw [List.append_nil]; exact h.rejected hi⟩
  | ok db' => exact ⟨[i.2], h.committed hi⟩

/-- A history continues along every run. -/
theorem History.run (h : History env db history) (is : List (Tx × Request)) :
    ∃ more, History env ((controlSystem env).run db is) (history ++ more) := by
  induction is generalizing db history with
  | nil => exact ⟨[], by rw [List.append_nil]; exact h⟩
  | cons i is ih =>
    obtain ⟨more₁, h₁⟩ := h.step i
    obtain ⟨more₂, h₂⟩ := ih h₁
    exact ⟨more₁ ++ more₂, by rw [← List.append_assoc]; exact h₂⟩

/-- The databases with a history are the reachable ones. -/
theorem reachable_iff_history :
    Machine.Reachable (controlSystem env) db ↔ ∃ history, History env db history := by
  constructor
  · intro h
    induction h with
    | init h =>
      obtain ⟨admin, rfl⟩ := h
      exact ⟨[], .start admin⟩
    | step i _ ih =>
      obtain ⟨history, h⟩ := ih
      obtain ⟨more, h'⟩ := h.step i
      exact ⟨_, h'⟩
  · rintro ⟨history, h⟩
    induction h with
    | start admin => exact .init ⟨admin, rfl⟩
    | committed _ _ ih => exact ih.step _
    | rejected _ _ ih => exact ih.step _

/-- What a history leads to is reachable. -/
theorem History.reachable (h : History env db history) :
    Machine.Reachable (controlSystem env) db := reachable_iff_history.2 ⟨history, h⟩

/-! ### The requests of a handshake -/

/-- What a request authorizes of a session. -/
def Request.authorizes (id : SessionId) : Request → Option AuthorizeRequest
  | .gateway (.authorize i d) => if i = id then some d else none
  | _ => none

/-- What a request claims of a session as a whole. -/
def Request.claims (id : SessionId) : Request → Option ClaimRequest
  | .node _ (.claim d) => if d.sessionId = id then some d else none
  | _ => none

/-- What a request of a node claims of its stage of a session. -/
def Request.claimsStage (id : SessionId) (nodeId : NodeId) : Request → Option ClaimRequest
  | .node n (.stageClaim d) => if n = nodeId ∧ d.sessionId = id then some d else none
  | _ => none

/-- The requests that authorized a session. -/
def authorizations (id : SessionId) (history : List Request) : List AuthorizeRequest :=
  history.filterMap (·.authorizes id)

/-- The requests that claimed a session as a whole. -/
def rootClaims (id : SessionId) (history : List Request) : List ClaimRequest :=
  history.filterMap (·.claims id)

/-- The requests of a node that claimed its stage of a session. -/
def stageClaims (id : SessionId) (nodeId : NodeId) (history : List Request) : List ClaimRequest :=
  history.filterMap (·.claimsStage id nodeId)

/-- The authorizations of a longer history. -/
@[simp] theorem authorizations_append (more : List Request) :
    authorizations id (history ++ more) = authorizations id history ++ authorizations id more :=
  List.filterMap_append

/-- The root's claims of a longer history. -/
@[simp] theorem rootClaims_append (more : List Request) :
    rootClaims id (history ++ more) = rootClaims id history ++ rootClaims id more :=
  List.filterMap_append

/-- A stage's claims of a longer history. -/
@[simp] theorem stageClaims_append (n : NodeId) (more : List Request) :
    stageClaims id n (history ++ more) = stageClaims id n history ++ stageClaims id n more :=
  List.filterMap_append

/-- A request is part of the handshake of a session. -/
def Request.Handshakes (id : SessionId) : Request → Prop
  | .gateway (.authorize i _) => i = id
  | .node _ (.claim d) | .node _ (.stageClaim d) => d.sessionId = id
  | _ => False

/-- No request of the handshake of a session is in the history. -/
structure Untouched (id : SessionId) (history : List Request) : Prop where
  authorizations : authorizations id history = []
  rootClaims : rootClaims id history = []
  stageClaims : ∀ n, stageClaims id n history = []

/-- Another request is not part of the handshake. -/
theorem untouched_single (h : ¬ req.Handshakes id) : Untouched id [req] := by
  have hnone : req.authorizes id = none ∧ req.claims id = none ∧
      ∀ n, req.claimsStage id n = none := by
    unfold Request.Handshakes at h
    split at h
    · exact ⟨if_neg h, rfl, fun _ => rfl⟩
    · exact ⟨rfl, if_neg h, fun _ => rfl⟩
    · exact ⟨rfl, rfl, fun _ => if_neg fun hc => h hc.2⟩
    · rename_i hauthorize hclaim hstage
      refine ⟨?_, ?_, fun n => ?_⟩
      · unfold Request.authorizes
        split
        · exact (hauthorize _ _ rfl).elim
        · rfl
      · unfold Request.claims
        split
        · exact (hclaim _ _ rfl).elim
        · rfl
      · unfold Request.claimsStage
        split
        · exact (hstage _ _ rfl).elim
        · rfl
  refine ⟨?_, ?_, fun n => ?_⟩
  · simp [authorizations, hnone.1]
  · simp [rootClaims, hnone.2.1]
  · simp [stageClaims, hnone.2.2 n]

/-! ### The columns of a session -/

/-- **The columns of a session agree with the history**: they say which requests of its handshake
have been committed, each of them once. -/
structure Session.Handshake (s : Session) (id : SessionId) (history : List Request) : Prop where
  unprepared : s.state = .queued ∨ s.state = .preparing → s.prepareId = none
  waiting : s.state = .authorized → s.startedAt = none ∧ s.prepareId ≠ none
  untouched : s.prepareId = none → Untouched id history ∧ s.startedAt = none ∧
    ∀ p ∈ s.participants, p.claimedAt = none
  authorized : s.prepareId ≠ none → ∃ d, authorizations id history = [d] ∧
    s.prepareId = some d.prepareId ∧ (s.routeId.isSome → ∀ p ∈ s.stages, ∃ x,
      p.prepareId = some x ∧ (p.nodeId, x) ∈ d.participants.getD [])
  unstarted : s.startedAt = none → rootClaims id history = []
  started : s.startedAt ≠ none → ∃ d, rootClaims id history = [d]
  unclaimed : ∀ p ∈ s.stages, p.claimedAt = none → stageClaims id p.nodeId history = []
  claimed : ∀ p ∈ s.stages, p.claimedAt ≠ none → ∃ d, stageClaims id p.nodeId history = [d] ∧
    p.prepareId = some d.prepareId ∧ p.nodeEpoch = d.epoch ∧ s.attemptId = some d.attemptId

/-- What the handshake writes of a participant. -/
def SessionParticipant.reserved (p : SessionParticipant) :
    NodeId × MemberRole × Nat × Option String × Option Micros :=
  (p.nodeId, p.role, p.nodeEpoch, p.prepareId, p.claimedAt)

/-- A write to a session that is no part of its handshake. -/
structure Session.Quiet (s s' : Session) : Prop where
  prepared : s'.prepareId = s.prepareId
  started : s'.startedAt = s.startedAt
  attempt : s'.attemptId = s.attemptId
  route : s'.routeId = s.routeId
  reserved : s'.participants.map (·.reserved) = s.participants.map (·.reserved)
  state : s'.state = s.state ∨ s'.state = .cancelling ∨ s'.state.terminal = true

/-- A session that was left as it is was quiet. -/
theorem Session.Quiet.refl (s : Session) : s.Quiet s := ⟨rfl, rfl, rfl, rfl, rfl, .inl rfl⟩

/-- A participant after a quiet write is one before it, as far as the handshake goes. -/
theorem exists_reserved {ps ps' : List SessionParticipant}
    (h : ps'.map (·.reserved) = ps.map (·.reserved)) {p : SessionParticipant} (hp : p ∈ ps') :
    ∃ q ∈ ps, q.reserved = p.reserved := by
  have hmem : p.reserved ∈ ps'.map (·.reserved) := List.mem_map_of_mem hp
  rw [h] at hmem
  exact List.mem_map.1 hmem

/-- The fields of a participant, read off what the handshake writes. -/
theorem SessionParticipant.reserved_eq {p q : SessionParticipant} (h : q.reserved = p.reserved) :
    q.nodeId = p.nodeId ∧ q.role = p.role ∧ q.nodeEpoch = p.nodeEpoch ∧
      q.prepareId = p.prepareId ∧ q.claimedAt = p.claimedAt := by
  simpa only [SessionParticipant.reserved, Prod.mk.injEq] using h

/-- The reservation of a stage stays while its session is quiet. -/
theorem exists_reserved_stage (h : s.Quiet s') {p : SessionParticipant} (hp : p ∈ s'.stages) :
    ∃ q ∈ s.stages, q.reserved = p.reserved := by
  obtain ⟨hmem, hrole⟩ := List.mem_filter.1 hp
  obtain ⟨q, hq, heq⟩ := exists_reserved h.reserved hmem
  refine ⟨q, List.mem_filter.2 ⟨hq, ?_⟩, heq⟩
  rw [(SessionParticipant.reserved_eq heq).2.1]
  exact hrole

/-- **A quiet write** keeps the columns in agreement.

**Proof sketch.** A quiet write leaves the columns that the handshake speaks of, so that each of its
parts is that from before, for the same stages. -/
theorem Session.Handshake.quiet (h : s.Handshake id history) (hq : s.Quiet s') :
    s'.Handshake id history where
  unprepared hstate := by
    rw [hq.prepared]
    rcases hq.state with heq | heq | heq
    · exact h.unprepared (heq ▸ hstate)
    · rw [heq] at hstate
      rcases hstate with hstate | hstate <;> cases hstate
    · rcases hstate with hstate | hstate <;> rw [hstate] at heq <;> cases heq
  waiting hstate := by
    rw [hq.prepared, hq.started]
    rcases hq.state with heq | heq | heq
    · exact h.waiting (heq ▸ hstate)
    · rw [heq] at hstate
      cases hstate
    · rw [hstate] at heq
      cases heq
  untouched hnone := by
    obtain ⟨huntouched, hstarted, hclaims⟩ := h.untouched (hq.prepared ▸ hnone)
    refine ⟨huntouched, hq.started.trans hstarted, fun p hp => ?_⟩
    obtain ⟨q, hmem, heq⟩ := exists_reserved hq.reserved hp
    rw [← (SessionParticipant.reserved_eq heq).2.2.2.2]
    exact hclaims q hmem
  authorized hsome := by
    obtain ⟨d, hd, hprepare, hstages⟩ := h.authorized (hq.prepared ▸ hsome)
    refine ⟨d, hd, hq.prepared.trans hprepare, fun hroute p hp => ?_⟩
    obtain ⟨q, hmem, heq⟩ := exists_reserved_stage hq hp
    obtain ⟨hnode, -, -, hprep, -⟩ := SessionParticipant.reserved_eq heq
    rw [← hnode, ← hprep]
    exact hstages (hq.route ▸ hroute) q hmem
  unstarted hnone := h.unstarted (hq.started ▸ hnone)
  started hsome := h.started (hq.started ▸ hsome)
  unclaimed p hp hnone := by
    obtain ⟨q, hmem, heq⟩ := exists_reserved_stage hq hp
    obtain ⟨hnode, -, -, -, hclaim⟩ := SessionParticipant.reserved_eq heq
    rw [← hnode]
    exact h.unclaimed q hmem (hclaim.trans hnone)
  claimed p hp hsome := by
    obtain ⟨q, hmem, heq⟩ := exists_reserved_stage hq hp
    obtain ⟨hnode, -, hepoch, hprep, hclaim⟩ := SessionParticipant.reserved_eq heq
    rw [← hnode, ← hprep, ← hepoch, hq.attempt]
    exact h.claimed q hmem (hclaim ▸ hsome)

/-- An admission keeps the columns in agreement: nothing has been prepared yet. -/
theorem Session.Handshake.admitted {o : Offer} (h : s.Handshake id history)
    (hplaced : s.Placed db.registry) (ha : Admitted t db s o s') : s'.Handshake id history := by
  have hnone : s.prepareId = none := h.unprepared (.inl ha.queued)
  obtain ⟨huntouched, hstarted, -⟩ := h.untouched hnone
  have hnone' : s'.prepareId = none := by rw [ha.row]; exact hnone
  have hstarted' : s'.startedAt = none := by rw [ha.row]; exact hstarted
  obtain ⟨members, hmembers, hps⟩ := ha.members
  have hunclaimed : ∀ p ∈ s'.participants, p.claimedAt = none := by
    intro p hp
    rw [hps, (hplaced.queued ha.queued).2.2, List.nil_append] at hp
    exact ((admitMembers_ok hmembers).2 p hp).2.2.2.1
  refine ⟨fun _ => hnone', fun hstate => ?_, fun _ => ⟨huntouched, hstarted', hunclaimed⟩,
    fun hsome => absurd hnone' hsome, fun _ => huntouched.rootClaims,
    fun hsome => absurd hstarted' hsome, fun _ _ _ => huntouched.stageClaims _,
    fun p hp hsome => absurd (hunclaimed p (List.mem_filter.1 hp).1) hsome⟩
  rw [ha.row] at hstate
  cases hstate

/-- The columns of a session that has just been created. -/
theorem handshake_newSession {user : UserId} {d : CreateRequest} {quote : Quote}
    (h : Untouched id history) : (newSession t user d quote).Handshake id history :=
  ⟨fun _ => rfl, fun hstate => (by cases hstate), fun _ => ⟨h, rfl, fun _ hp => (by cases hp)⟩,
    fun hsome => absurd rfl hsome, fun _ => h.rootClaims, fun hsome => absurd rfl hsome,
    fun _ _ _ => h.stageClaims _, fun _ hp => (by cases hp)⟩

/-! ### Requests that are no part of the handshake -/

/-- A session goes on by a request that is no part of its handshake. -/
theorem Updated.quiet (h : Updated env t db id s req s') (hreq : ¬ req.Handshakes id) :
    s.Quiet s' := by
  cases h with
  | authorized => exact absurd rfl hreq
  | claimed hfor => exact absurd hfor hreq
  | stageClaimed hfor => exact absurd hfor hreq
  | @stageReported nodeId d =>
    refine ⟨rfl, rfl, rfl, rfl, ?_, .inl rfl⟩
    show (s.stageReported env nodeId d).participants.map (·.reserved) = _
    unfold Session.stageReported recordStage
    rw [List.map_map]
    refine List.map_congr_left fun p _ => ?_
    simp only [Function.comp_apply]
    split <;> rfl
  | reported => exact ⟨rfl, rfl, rfl, rfl, rfl, .inl rfl⟩
  | cancelling => exact ⟨rfl, rfl, rfl, rfl, rfl, .inr (.inl rfl)⟩

/-- **A step of a session by another request** is quiet, or admits it. -/
theorem Session.Step.quiet (h : s.Step env req db db' id s') (hreq : ¬ req.Handshakes id) :
    s.Quiet s' ∨ ∃ t o, Admitted t db s o s' := by
  cases h with
  | same => exact .inl (.refl s)
  | admitted h => exact .inr ⟨_, _, h⟩
  | updated h => exact .inl (h.quiet hreq)
  | @finalized t s₁ s₂ state charge error billing entries hreport hlive _ _ _ hsplit _ =>
    refine .inl ⟨?_, ?_, ?_, ?_, ?_, .inr (.inr ?_)⟩
    · rw [hsplit.same, hreport.row]
      rfl
    · rw [hsplit.same, hreport.row]
      rfl
    · rw [hsplit.same, hreport.row]
      rfl
    · rw [hsplit.same, hreport.row]
      rfl
    · have hsame := hsplit.map_participants (f := (·.reserved)) fun _ _ => rfl
      rw [hreport.row] at hsame
      exact hsame
    · show state.toSession.terminal = true
      cases state <;> rfl
  | refunded => exact .inl ⟨rfl, rfl, rfl, rfl, rfl, .inl rfl⟩

/-- One session agrees with the history, whether it exists or not. -/
structure HandshakeAt (db : Db) (id : SessionId) (history : List Request) : Prop where
  absent : db.sessions.find? id = none → Untouched id history
  present : ∀ s, db.sessions.find? id = some s → s.Handshake id history

/-- A change by another request keeps the session in agreement. -/
theorem Change.handshakeAt (h : Change env req tx db db') (hreq : ¬ req.Handshakes id)
    (hp : Placements db) (hh : HandshakeAt db id history) : HandshakeAt db' id history where
  absent hnone := by
    refine hh.absent ?_
    by_contra hsome
    obtain ⟨s, hs⟩ := Option.ne_none_iff_exists'.1 hsome
    obtain ⟨s', hs', -⟩ := h.sessions.old hs
    rw [hnone] at hs'
    cases hs'
  present s' hs' := by
    rcases h.session_cases hs' with ⟨hnone, t, user, d, quote, -, rfl⟩ | ⟨s, hs, hstep⟩
    · exact handshake_newSession (hh.absent hnone)
    · rcases hstep.quiet hreq with hquiet | ⟨t, o, hadmission⟩
      · exact (hh.present s hs).quiet hquiet
      · exact (hh.present s hs).admitted (hp id s hs) hadmission

/-! ### Requests of the handshake -/

/-- The stages after an update of the participants that keeps their roles. -/
theorem mem_stages_map {f : SessionParticipant → SessionParticipant}
    {ps : List SessionParticipant} {p : SessionParticipant}
    (hp : p ∈ (ps.map f).filter fun p => p.role = .stage) :
    ∃ q ∈ ps, p = f q ∧ (f q).role = .stage := by
  obtain ⟨hmem, hrole⟩ := List.mem_filter.1 hp
  obtain ⟨q, hq, rfl⟩ := List.mem_map.1 hmem
  exact ⟨q, hq, rfl, by simpa using hrole⟩

/-- The nodes of a route's participants are distinct. -/
theorem Session.Placed.nodup {r : Registry} (h : s.Placed r) :
    (s.participants.map (·.nodeId)).Nodup := by
  cases hroute : s.routeId with
  | none => rw [h.single hroute]; exact List.nodup_nil
  | some k =>
    obtain ⟨e, -, -, -, hmembers, -⟩ := h.route k hroute
    have hnodes := e.complete.nodes
    rw [← hmembers, List.map_map] at hnodes
    exact hnodes

/-- A participant of a placed session is known by its node. -/
theorem Session.Placed.node_inj {r : Registry} (h : s.Placed r) {p q : SessionParticipant}
    (hp : p ∈ s.participants) (hq : q ∈ s.participants) (heq : p.nodeId = q.nodeId) : p = q :=
  List.inj_on_of_nodup_map h.nodup hp hq heq

/-- The node of a route's session is no stage. -/
theorem Session.Placed.stage_ne_root {r : Registry} (h : s.Placed r) (hroute : s.routeId.isSome)
    {p : SessionParticipant} (hp : p ∈ s.stages) {nodeId : NodeId} (hnode : s.nodeId = some nodeId) :
    p.nodeId ≠ nodeId := by
  intro heq
  obtain ⟨hmem, hrole⟩ := List.mem_filter.1 hp
  obtain ⟨k, hk⟩ := Option.isSome_iff_exists.1 hroute
  obtain ⟨e, -, -, -, hmembers, hroot, -⟩ := h.route k hk
  obtain ⟨m, hm, hid, hmrole⟩ := e.complete.root_mem
  rw [← hmembers] at hm
  obtain ⟨q, hq, rfl⟩ := List.mem_map.1 hm
  rw [hnode, Option.some.injEq] at hroot
  have hsame : p = q := h.node_inj hmem hq (by rw [heq, hroot]; exact hid.symm)
  subst hsame
  have hstage : p.role = .stage := by simpa using hrole
  have hmrole : p.role = .root := hmrole
  rw [hstage] at hmrole
  cases hmrole

/-- What the authorization prepares of each stage. -/
theorem authorizeParticipants_stages {d : AuthorizeRequest} {ps : List SessionParticipant}
    (h : authorizeParticipants t db s d = .ok ps) (hroute : s.routeId.isSome) :
    ∀ p ∈ ps.filter (fun p => p.role = .stage), ∃ x, p.prepareId = some x ∧
      (p.nodeId, x) ∈ d.participants.getD [] := by
  unfold authorizeParticipants at h
  rw [if_pos hroute] at h
  simp only [Checked.bind_ok, need_ok, Checked.pure_ok, exists_const] at h
  obtain ⟨_, -, ⟨-, -, -, hall⟩, rfl⟩ := h
  intro p hp
  unfold prepareParticipants at hp
  obtain ⟨q, hq, rfl, hrole⟩ := mem_stages_map hp
  have hrole : q.role = .stage := hrole
  obtain ⟨v, hv, hnode⟩ := hall q (List.mem_filter.2 ⟨hq, by simp [hrole]⟩)
  have hfound : ((d.participants.getD []).find? fun v => v.1 = q.nodeId).isSome := by
    rw [List.find?_isSome]
    exact ⟨v, hv, by simpa using hnode⟩
  obtain ⟨w, hw⟩ := Option.isSome_iff_exists.1 hfound
  have hwnode : w.1 = q.nodeId := by simpa using List.find?_some hw
  refine ⟨w.2, ?_, ?_⟩
  · simp [hrole, hw]
  · rw [← hwnode]
    exact List.mem_of_find?_eq_some hw

/-- The participants that an authorization leaves as they were, as far as claims go. -/
theorem authorizeParticipants_claims {d : AuthorizeRequest} {ps : List SessionParticipant}
    (h : authorizeParticipants t db s d = .ok ps) :
    ∀ p ∈ ps, ∃ q ∈ s.participants, q.claimedAt = p.claimedAt := by
  unfold authorizeParticipants at h
  split at h
  · simp only [Checked.bind_ok, need_ok, Checked.pure_ok, exists_const] at h
    obtain ⟨_, -, -, rfl⟩ := h
    intro p hp
    unfold prepareParticipants at hp
    obtain ⟨q, hq, rfl⟩ := List.mem_map.1 hp
    exact ⟨q, hq, rfl⟩
  · simp only [Checked.bind_ok, need_ok, Checked.pure_ok, exists_const] at h
    obtain ⟨-, rfl⟩ := h
    exact fun p hp => ⟨p, hp, rfl⟩

/-- The authorization, as the first request of the handshake. -/
theorem Session.Handshake.authorize {d : AuthorizeRequest} {ps : List SessionParticipant}
    (h : s.Handshake id history) (hstate : s.state = .preparing)
    (hps : authorizeParticipants t db s d = .ok ps) :
    Session.Handshake
      { s with state := .authorized, prepareId := some d.prepareId, participants := ps } id
      (history ++ [.gateway (.authorize id d)]) := by
  obtain ⟨huntouched, hstarted, hclaims⟩ := h.untouched (h.unprepared (.inr hstate))
  have hroot : rootClaims id (history ++ [.gateway (.authorize id d)]) = [] := by
    rw [rootClaims_append, huntouched.rootClaims]
    rfl
  have hstage : ∀ n, stageClaims id n (history ++ [.gateway (.authorize id d)]) = [] := by
    intro n
    rw [stageClaims_append, huntouched.stageClaims]
    rfl
  have hnone : ∀ p ∈ ps, p.claimedAt = none := by
    intro p hp
    obtain ⟨q, hq, heq⟩ := authorizeParticipants_claims hps p hp
    rw [← heq]
    exact hclaims q hq
  refine ⟨fun hs => ?_, fun _ => ⟨hstarted, Option.some_ne_none _⟩, fun hn => ?_, fun _ => ?_,
    fun _ => hroot, fun hsome => absurd hstarted hsome, fun p _ _ => hstage p.nodeId,
    fun p hp hsome => absurd (hnone p (List.mem_filter.1 hp).1) hsome⟩
  · rcases hs with hs | hs <;> cases hs
  · cases hn
  · refine ⟨d, ?_, rfl, fun hroute => authorizeParticipants_stages hps hroute⟩
    rw [authorizations_append, huntouched.authorizations]
    simp [authorizations, Request.authorizes]

/-- A claim of a stage, which had not claimed before.

**Proof sketch.** The request adds one claim to the history, of this stage. The stage had none, as
its row was not claimed; the other stages have theirs, and no two participants are of one node. -/
theorem Session.Handshake.claimStage {r : Registry} {nodeId : NodeId} {d : ClaimRequest}
    {p : SessionParticipant} (h : s.Handshake id history) (hplaced : s.Placed r)
    (hfor : d.sessionId = id) (hstate : s.state = .authorized) (hid : s.attemptId = some d.attemptId)
    (hp : s.stages.find? (fun p => p.nodeId = nodeId) = some p)
    (hclaim : p.nodeEpoch = d.epoch ∧ p.prepareId = some d.prepareId ∧ p.claimedAt = none) :
    Session.Handshake { s with participants := claimParticipant t nodeId s.participants } id
      (history ++ [.node nodeId (.stageClaim d)]) := by
  have hmem := List.mem_of_find?_eq_some hp
  have hnode : p.nodeId = nodeId := by simpa using List.find?_some hp
  obtain ⟨hstarted, hprepared⟩ := h.waiting hstate
  have hauthorized : authorizations id (history ++ [.node nodeId (.stageClaim d)]) =
      authorizations id history := by
    rw [authorizations_append]
    exact List.append_nil _
  have hroot : rootClaims id (history ++ [.node nodeId (.stageClaim d)]) =
      rootClaims id history := by
    rw [rootClaims_append]
    exact List.append_nil _
  have hother : ∀ n, n ≠ nodeId → stageClaims id n (history ++ [.node nodeId (.stageClaim d)]) =
      stageClaims id n history := by
    intro n hne
    rw [stageClaims_append]
    have hnil : stageClaims id n [.node nodeId (.stageClaim d)] = [] := by
      simp [stageClaims, Request.claimsStage, Ne.symm hne]
    rw [hnil, List.append_nil]
  have hself : stageClaims id nodeId (history ++ [.node nodeId (.stageClaim d)]) = [d] := by
    rw [stageClaims_append, ← hnode, h.unclaimed p hmem hclaim.2.2, hnode]
    simp [stageClaims, Request.claimsStage, hfor]
  refine ⟨fun hs => ?_, fun _ => ⟨hstarted, hprepared⟩, fun hn => absurd hn hprepared,
    fun hsome => ?_, fun hn => hroot.trans (h.unstarted hn), fun hsome => absurd hstarted hsome,
    fun q hq hnone => ?_, fun q hq hsome => ?_⟩
  · have hs : s.state = .queued ∨ s.state = .preparing := hs
    rw [hstate] at hs
    rcases hs with hs | hs <;> cases hs
  · obtain ⟨a, ha, hprepare, hstages⟩ := h.authorized hsome
    refine ⟨a, hauthorized.trans ha, hprepare, fun hroute q hq => ?_⟩
    obtain ⟨q₀, hq₀, rfl, hrole⟩ := mem_stages_map hq
    split at hrole
    · rw [if_pos ‹_›]
      exact hstages hroute q₀ (List.mem_filter.2 ⟨hq₀, by simpa using hrole⟩)
    · rw [if_neg ‹_›]
      exact hstages hroute q₀ (List.mem_filter.2 ⟨hq₀, by simpa using hrole⟩)
  · obtain ⟨q₀, hq₀, rfl, hrole⟩ := mem_stages_map hq
    split at hnone
    · cases hnone
    · rename_i hne
      rw [if_neg hne] at hrole ⊢
      rw [hother _ hne]
      exact h.unclaimed q₀ (List.mem_filter.2 ⟨hq₀, by simpa using hrole⟩) hnone
  · obtain ⟨q₀, hq₀, rfl, hrole⟩ := mem_stages_map hq
    dsimp only at hrole hsome ⊢
    by_cases he : q₀.nodeId = nodeId
    · rw [if_pos he]
      have hsame : q₀ = p := hplaced.node_inj hq₀ (List.mem_filter.1 hmem).1 (by rw [he, hnode])
      subst hsame
      exact ⟨d, by rw [← hself, hnode], hclaim.2.1, hclaim.1, hid⟩
    · rw [if_neg he] at hrole hsome ⊢
      rw [hother _ he]
      exact h.claimed q₀ (List.mem_filter.2 ⟨hq₀, by simpa using hrole⟩) hsome

/-- The claim of the root, which consumes the authorization.

**Proof sketch.** The request adds the first claim of the root to the history. It writes the row of
the root alone, and the root is no stage. -/
theorem Session.Handshake.claim {r : Registry} {nodeId : NodeId} {d : ClaimRequest}
    (h : s.Handshake id history) (hplaced : s.Placed r) (hfor : d.sessionId = id)
    (hstate : s.state = .authorized) (hnode : s.nodeId = some nodeId) :
    Session.Handshake
      { s with
        state := .running
        startedAt := some t.now
        participants :=
          if s.routeId.isSome then claimParticipant t nodeId s.participants
          else s.participants } id (history ++ [.node nodeId (.claim d)]) := by
  obtain ⟨hstarted, hprepared⟩ := h.waiting hstate
  have hauthorized : authorizations id (history ++ [.node nodeId (.claim d)]) =
      authorizations id history := by
    rw [authorizations_append]
    exact List.append_nil _
  have hstage : ∀ n, stageClaims id n (history ++ [.node nodeId (.claim d)]) =
      stageClaims id n history := by
    intro n
    rw [stageClaims_append]
    exact List.append_nil _
  have hroot : rootClaims id (history ++ [.node nodeId (.claim d)]) = [d] := by
    rw [rootClaims_append, h.unstarted hstarted]
    simp [rootClaims, Request.claims, hfor]
  -- the root is no stage, so that the stages are what they were
  have hstages : ∀ p ∈ ((if s.routeId.isSome then claimParticipant t nodeId s.participants
      else s.participants).filter fun p => p.role = .stage), p ∈ s.stages := by
    intro p hp
    split at hp
    · rename_i hroute
      obtain ⟨q, hq, rfl, hrole⟩ := mem_stages_map hp
      by_cases he : q.nodeId = nodeId
      · rw [if_pos he] at hrole
        have hq' : q ∈ s.stages := List.mem_filter.2 ⟨hq, by simpa using hrole⟩
        exact absurd he (hplaced.stage_ne_root hroute hq' hnode)
      · rw [if_neg he] at hrole ⊢
        exact List.mem_filter.2 ⟨hq, by simpa using hrole⟩
    · exact hp
  refine ⟨fun hs => ?_, fun hs => ?_, fun hn => absurd hn hprepared, fun hsome => ?_,
    fun hn => ?_, fun _ => ⟨d, hroot⟩, fun p hp hnone => ?_, fun p hp hsome => ?_⟩
  · rcases hs with hs | hs <;> cases hs
  · cases hs
  · obtain ⟨a, ha, hprepare, hall⟩ := h.authorized hsome
    exact ⟨a, hauthorized.trans ha, hprepare, fun hroute p hp => hall hroute p (hstages p hp)⟩
  · cases hn
  · rw [hstage]
    exact h.unclaimed p (hstages p hp) hnone
  · rw [hstage]
    exact h.claimed p (hstages p hp) hsome

/-- **A request of the handshake** keeps the columns in agreement with the history it extends. -/
theorem Updated.handshake {r : Registry} (h : Updated env t db id s req s')
    (hreq : req.Handshakes id) (hplaced : s.Placed r) (hh : s.Handshake id history) :
    s'.Handshake id (history ++ [req]) := by
  cases h with
  | authorized hstate _ hps => exact hh.authorize hstate hps
  | claimed hfor hstate hid => exact hh.claim hplaced hfor hstate hid.1
  | stageClaimed hfor _ hstate hid _ hp hclaim =>
    exact hh.claimStage hplaced hfor hstate hid hp hclaim
  | stageReported | reported | cancelling => exact hreq.elim

/-! ### The invariant of histories -/

/-- What a committed request of the handshake did. -/
theorem handshake_letGo (hreq : req.Handshakes id) (h : transaction env tx db req = .ok db') :
    LetGo env tx db id req db' := by
  simp only [transaction, Checked.bind_ok, Checked.pure_ok] at h
  obtain ⟨db₁, hperform, _, -, rfl⟩ := h
  unfold Request.Handshakes at hreq
  split at hreq
  · subst hreq
    exact authorize_ok hperform
  · subst hreq
    exact claim_ok hperform
  · subst hreq
    exact stageClaim_ok hperform
  · exact hreq.elim

/-- The database after a committed request. -/
theorem step_committed {i : Tx × Request} (h : transaction env i.1 db i.2 = .ok db') :
    (controlSystem env).step i db = { db' with xid := db.xid + 1 } := by
  show { Checked.settle (transaction env i.1 db i.2) db with xid := db.xid + 1 } = _
  rw [h, Checked.settle_ok]

/-- The database after a rejected request. -/
theorem step_rejected {i : Tx × Request} {e : Failure} (h : transaction env i.1 db i.2 = .error e) :
    (controlSystem env).step i db = { db with xid := db.xid + 1 } := by
  show { Checked.settle (transaction env i.1 db i.2) db with xid := db.xid + 1 } = _
  rw [h, Checked.settle_error]

/-- A history extended by requests that are no part of the handshake. -/
theorem HandshakeAt.append {more : List Request} (h : HandshakeAt db id history)
    (hmore : Untouched id more) : HandshakeAt db id (history ++ more) := by
  have hauthorizations : authorizations id (history ++ more) = authorizations id history := by
    rw [authorizations_append, hmore.authorizations, List.append_nil]
  have hroots : rootClaims id (history ++ more) = rootClaims id history := by
    rw [rootClaims_append, hmore.rootClaims, List.append_nil]
  have hstages : ∀ n, stageClaims id n (history ++ more) = stageClaims id n history := by
    intro n
    rw [stageClaims_append, hmore.stageClaims, List.append_nil]
  have huntouched : Untouched id history → Untouched id (history ++ more) := by
    intro hu
    exact ⟨hauthorizations.trans hu.authorizations, hroots.trans hu.rootClaims,
      fun n => (hstages n).trans (hu.stageClaims n)⟩
  refine ⟨fun hnone => huntouched (h.absent hnone), fun s hs => ?_⟩
  have hh := h.present s hs
  refine ⟨hh.unprepared, hh.waiting, fun hn => ?_, fun hn => ?_, fun hn => ?_, fun hn => ?_,
    fun p hp hn => ?_, fun p hp hn => ?_⟩
  · exact ⟨huntouched (hh.untouched hn).1, (hh.untouched hn).2⟩
  · rw [hauthorizations]
    exact hh.authorized hn
  · rw [hroots]
    exact hh.unstarted hn
  · rw [hroots]
    exact hh.started hn
  · rw [hstages]
    exact hh.unclaimed p hp hn
  · rw [hstages]
    exact hh.claimed p hp hn

/-- **The columns of every session agree with the history.** -/
theorem History.handshakes (h : History env db history) (id : SessionId) :
    HandshakeAt db id history := by
  induction h with
  | start admin => exact ⟨fun _ => ⟨rfl, rfl, fun _ => rfl⟩, fun _ hs => by cases hs⟩
  | @committed db db' history i h hcommit ih =>
    by_cases hreq : i.2.Handshakes id
    · obtain ⟨s, s', hs, hupdated, rfl⟩ := handshake_letGo hreq hcommit
      have hfound : ((controlSystem env).step i db).sessions.find? id = some s' := by
        rw [step_committed hcommit]
        exact Table.find?_set_self hs
      refine ⟨fun hnone => ?_, fun s₁ hs₁ => ?_⟩
      · rw [hfound] at hnone
        cases hnone
      · rw [hfound, Option.some.injEq] at hs₁
        subst hs₁
        exact hupdated.handshake hreq (reachable_placed h.reachable id s hs) (ih.present s hs)
    · have hkeeps : ∀ a b, Change env i.2 i.1 a b → Placements a ∧ HandshakeAt a id history →
          Placements b ∧ HandshakeAt b id history :=
        fun a b hc hp => ⟨hc.placements hp.1, hc.handshakeAt hreq hp.1 hp.2⟩
      have hafter := Machine.Star.preserves hkeeps (step_changes i db)
        ⟨reachable_placed h.reachable, ih⟩
      exact hafter.2.append (untouched_single hreq)
  | rejected h hreject ih =>
    rw [step_rejected hreject]
    exact ⟨ih.absent, ih.present⟩

end NetworkAi
