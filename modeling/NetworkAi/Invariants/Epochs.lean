import NetworkAi.Invariants.HeldFunds
import NetworkAi.Invariants.Participants

set_option relaxedAutoImplicit false
set_option autoImplicit false

/-!
# Epoch fencing

A node that starts anew takes part in nothing it was admitted to before: its epoch has grown past
the one that the session recorded, it never returns, and no branch of the settlement charges a
session one of whose nodes has left the recorded epoch.

## Main definitions

* `NetworkAi.Session.Fenced` — a node of the session is past its recorded epoch.

## Main results

* `NetworkAi.Payable.not_fenced` — a charge needs every node at its recorded epoch.
* `NetworkAi.Session.Step.released` — a step of a fenced session charges nothing.
* `NetworkAi.epoch_fencing` — epochs never decrease, and a session one of whose nodes resumed ends
  with its whole hold refunded.
-/

namespace NetworkAi

open Relational

variable {env : Env} {req : Request} {tx t : Tx} {db db' : Db} {id : SessionId} {s s' : Session}

/-! ### Fenced sessions -/

/-- A node of the session is past the epoch that its admission recorded. -/
def Session.Fenced (r : Registry) (s : Session) : Prop :=
  ∃ x ∈ s.epochs, ∃ n, r.nodes.find? x.1 = some n ∧ x.2 < n.epoch

/-- A fenced session stays fenced while the registry evolves. -/
theorem Session.Fenced.evolves {r r' : Registry} (hf : s.Fenced r) (h : r.Evolves env r') :
    s.Fenced r' := by
  obtain ⟨x, hx, n, hn, hlt⟩ := hf
  obtain ⟨n', hn', hsame⟩ := h.nodes.old hn
  exact ⟨x, hx, n', hn', hlt.trans_le hsame.epoch⟩

/-- What `currentParticipants` checks of each participant. -/
theorem currentParticipants_ok {preparing : Bool} {u : Unit}
    (h : currentParticipants t db s preparing = .ok u) :
    2 ≤ s.participants.length ∧ ∀ p ∈ s.participants,
      participantCurrent t db preparing p = .ok true := by
  unfold currentParticipants at h
  simp only [Checked.bind_ok, need_ok] at h
  obtain ⟨current, hall, hlength, htrue⟩ := h
  refine ⟨hlength, fun p hp => ?_⟩
  rw [Checked.mapM_ok] at hall
  clear hlength
  generalize s.participants = ps at hall hp
  induction hall with
  | nil => cases hp
  | @cons q c qs cs hqc _ ih =>
    rcases List.mem_cons.1 hp with rfl | hp
    · rw [hqc, htrue c (by simp)]
    · exact ih (fun c hc => htrue c (List.mem_cons_of_mem _ hc)) hp

/-- A current participant is at its recorded epoch. -/
theorem participantCurrent_epoch {preparing : Bool} {p : SessionParticipant}
    (h : participantCurrent t db preparing p = .ok true) :
    ∃ n, db.registry.nodes.find? p.nodeId = some n ∧ p.nodeEpoch = n.epoch := by
  unfold participantCurrent at h
  simp only [Checked.bind_ok, reference_ok, Checked.pure_ok, decide_eq_true_eq] at h
  obtain ⟨n, hn, u, -, hepoch, -⟩ := h
  exact ⟨n, hn, hepoch⟩

/-- The nodes of a route's session are those of its participants: its own node is their root. -/
theorem Session.Placed.epochs_route {r : Registry} (hp : s.Placed r) (hroute : s.routeId.isSome)
    {x : NodeId × Nat} (hx : x ∈ s.epochs) :
    ∃ p ∈ s.participants, p.nodeId = x.1 ∧ p.nodeEpoch = x.2 := by
  obtain ⟨k, hk⟩ := Option.isSome_iff_exists.1 hroute
  obtain ⟨e, epoch, -, -, hmembers, hnode, hepoch, hroot⟩ := hp.route k hk
  unfold Session.epochs at hx
  rw [hnode, hepoch, List.mem_append] at hx
  rcases hx with hx | hx
  · simp only [Option.bind_some, Option.map_some, Option.toList_some, List.mem_singleton] at hx
    subst hx
    obtain ⟨m, hm, hid, hrole⟩ := e.complete.root_mem
    rw [← hmembers] at hm
    obtain ⟨p, hp, rfl⟩ := List.mem_map.1 hm
    exact ⟨p, hp, hid, hroot p.admitted (List.mem_map_of_mem hp) hrole⟩
  · obtain ⟨p, hp, rfl⟩ := List.mem_map.1 hx
    exact ⟨p, hp, rfl, rfl⟩

/-- **A charge needs every node at its recorded epoch**, of a single node as of a whole route. -/
theorem Payable.not_fenced {state : ReceiptState} {charge : Int} {billing : Option BillingState}
    (h : Payable t db s state charge billing) (hp : s.Placed db.registry) :
    ¬ s.Fenced db.registry := by
  rintro ⟨x, hx, n, hn, hlt⟩
  have hcurrent : ∃ n', db.registry.nodes.find? x.1 = some n' ∧ x.2 = n'.epoch := by
    by_cases hroute : s.routeId.isSome
    · obtain ⟨-, -, hall⟩ := h.stages hroute
      obtain ⟨p, hp, hid, hepoch⟩ := hp.epochs_route hroute hx
      obtain ⟨n', hn', he⟩ := participantCurrent_epoch ((currentParticipants_ok hall).2 p hp)
      exact ⟨n', by rw [← hid]; exact hn', by rw [← hepoch, he]⟩
    · rw [Option.not_isSome_iff_eq_none] at hroute
      obtain ⟨nodeId, node, hid, hnode, hepoch⟩ := h.root hroute
      unfold Session.epochs at hx
      rw [hp.single hroute, hid, hepoch] at hx
      simp only [Option.bind_some, Option.map_some, Option.toList_some, List.map_nil,
        List.append_nil, List.mem_singleton] at hx
      subst hx
      exact ⟨node, hnode, rfl⟩
  obtain ⟨n', hn', he⟩ := hcurrent
  rw [hn, Option.some.injEq] at hn'
  rw [he, hn'] at hlt
  exact lt_irrefl _ hlt

/-! ### Steps of a fenced session -/

/-- A session that ended without a charge, or is still going on. -/
structure Session.Uncharged (s : Session) : Prop where
  charged : s.state.terminal = true → s.charged = 0 ∧ s.billingState ≠ .settled

/-- **A step of a fenced session** charges nothing, and leaves it fenced.

**Proof sketch.** A fenced session has nodes, so that it is not queued and is not admitted anew. If
it is ended, a charge would ask for participants at their recorded epochs, and one of them is
fenced. -/
theorem Session.Step.released (h : s.Step env req db db' id s') (hp : s.Placed db.registry)
    (hf : s.Fenced db.registry) (hu : s.Uncharged) :
    s.SamePlace s' ∧ s'.Uncharged := by
  have hsame : s.SamePlace s' := by
    rcases h.place with hsame | ⟨t, o, hadmission⟩
    · exact hsame
    · obtain ⟨-, hnode, hnil⟩ := hp.queued hadmission.queued
      obtain ⟨x, hx, -⟩ := hf
      unfold Session.epochs at hx
      rw [hnode, hnil] at hx
      cases hx
  refine ⟨hsame, ?_⟩
  cases h with
  | same => exact hu
  | admitted h => exact ⟨fun hended => by rw [h.row] at hended; cases hended⟩
  | updated h =>
    have hlive := h.continues.live'
    exact ⟨fun hended => by rw [hlive] at hended; cases hended⟩
  | @finalized t s₁ s₂ state charge error billing entries hreport _ hcharge hbilling hpaid _ _ =>
    have hplace : s.SamePlace s₁ := by
      rw [hreport.row]
      exact ⟨rfl, rfl, rfl, rfl, rfl, fun h => h⟩
    have hfenced : s₁.Fenced db.registry := by
      unfold Session.Fenced
      rw [hplace.epochs_eq]
      exact hf
    have hzero : charge = 0 := by
      by_contra hne
      have hpos : 0 < charge := by omega
      exact (hpaid hpos).not_fenced (hplace.placed hp) hfenced
    subst hzero
    refine ⟨fun _ => ⟨rfl, ?_⟩⟩
    show billing.getD (if 0 < (0 : Int) then .settled else .refunded) ≠ .settled
    rcases hbilling with rfl | rfl
    · exact BillingState.noConfusion
    · exact BillingState.noConfusion
  | refunded => exact ⟨fun hended => ⟨(hu.charged hended).1, BillingState.noConfusion⟩⟩

/-- What a run keeps of a fenced session. -/
structure FencedAt (db : Db) (id : SessionId) (s₀ : Session) : Prop where
  placed : Placements db
  row : ∃ s, db.sessions.find? id = some s ∧ s.hold = s₀.hold ∧ s.userId = s₀.userId ∧
    s.Fenced db.registry ∧ s.Uncharged

/-- A change keeps a session fenced. -/
theorem Change.fencedAt {s₀ : Session} (h : Change env req tx db db') (hf : FencedAt db id s₀) :
    FencedAt db' id s₀ := by
  obtain ⟨s, hs, hhold, huser, hfenced, huncharged⟩ := hf.row
  obtain ⟨s', hs', hstep⟩ := h.session_step hs
  obtain ⟨s₁, hs₁, hkeeps⟩ := h.sessions.old hs
  rw [hs', Option.some.injEq] at hs₁
  subst hs₁
  obtain ⟨hplace, huncharged'⟩ := hstep.released (hf.placed id s hs) hfenced huncharged
  refine ⟨h.placements hf.placed, s', hs', hkeeps.hold.trans hhold, hkeeps.user.trans huser, ?_,
    huncharged'⟩
  have hfenced' : s'.Fenced db.registry := by
    unfold Session.Fenced
    rw [hplace.epochs_eq]
    exact hfenced
  exact hfenced'.evolves h.registry

/-! ### Resuming -/

/-- A node that resumes with a new boot identity leaves its epoch. -/
theorem resume_epoch {nodeId : NodeId} {bootId : Nat} {node : Node}
    (hnode : db.registry.nodes.find? nodeId = some node) (hboot : node.bootId ≠ some bootId)
    (h : transaction env tx db (.node nodeId (.resume bootId)) = .ok db') :
    db'.sessions = db.sessions ∧
      ∃ n, db'.registry.nodes.find? nodeId = some n ∧ node.epoch < n.epoch := by
  simp only [transaction, perform, performNode, Db.withRegistry, Checked.bind_ok,
    Checked.pure_ok] at h
  obtain ⟨_, ⟨registry, hresume, rfl⟩, _, -, rfl⟩ := h
  unfold Registry.resume at hresume
  simp only [Checked.bind_ok, need_ok, needRow_ok, Checked.pure_ok, exists_const] at hresume
  obtain ⟨node', hnode', -, rfl⟩ := hresume
  rw [hnode, Option.some.injEq] at hnode'
  subst hnode'
  refine ⟨rfl, _, Table.find?_set_self hnode, ?_⟩
  show node.epoch < if node.bootId = some bootId then node.epoch else node.epoch + 1
  rw [if_neg hboot]
  exact Nat.lt_succ_self _

/-- **Epoch fencing.** From every reachable database, no run decreases the epoch of a node; and
once a node that takes part in an open session (its own node, or a participant of its route) has
resumed with a new boot identity, every run leaves the session open or ends it without a charge,
in an entry that returns its whole hold.

**Proof sketch.** No change lowers an epoch. A resumption with another boot identity raises the
epoch of its node above the recorded one, so that the session is fenced; a fenced session stays
fenced and uncharged along every run, and the entry of its end returns its whole hold. -/
theorem epoch_fencing (h : Machine.Reachable (controlSystem env) db) :
    (∀ is nodeId node, db.registry.nodes.find? nodeId = some node →
      ∃ node', ((controlSystem env).run db is).registry.nodes.find? nodeId = some node' ∧
        node.epoch ≤ node'.epoch) ∧
      ∀ id s nodeId epoch node tx bootId db₁, db.sessions.find? id = some s →
        s.state.terminal = false → (nodeId, epoch) ∈ s.epochs →
        db.registry.nodes.find? nodeId = some node → node.bootId ≠ some bootId →
        transaction env tx db (.node nodeId (.resume bootId)) = .ok db₁ → ∀ is db₂,
        db₂ = (controlSystem env).run
          ((controlSystem env).step (tx, .node nodeId (.resume bootId)) db) is →
        ∃ s₂, db₂.sessions.find? id = some s₂ ∧ (s₂.state.terminal = true →
          s₂.charged = 0 ∧ s₂.billingState ≠ .settled ∧ (0 < s.hold → ∃ j,
            db₂.books.findKey (.settle id) = some j ∧ db₂.books.linesOfJournal j =
              Ledger.storedLines j (Ledger.linesOf env.accountLe
                [(.held s.userId, -s.hold), (.available s.userId, s.hold)]))) := by
  refine ⟨fun is nodeId node hnode => ?_, ?_⟩
  · refine run_of_changes (P := fun db => ∃ node', db.registry.nodes.find? nodeId = some node' ∧
      node.epoch ≤ node'.epoch) (fun _ _ a b hp hc => ?_) ⟨node, hnode, le_rfl⟩ is
    obtain ⟨n, hn, hle⟩ := hp
    obtain ⟨n', hn', hsame⟩ := hc.registry.nodes.old hn
    exact ⟨n', hn', hle.trans hsame.epoch⟩
  intro id s nodeId epoch node tx bootId db₁ hs hlive hmem hnode hboot hresume is db₂ hdb₂
  have hplaced := reachable_placed h
  obtain ⟨n, hn, hrecorded⟩ := (hplaced id s hs).epochs _ hmem
  have hn : db.registry.nodes.find? nodeId = some n := hn
  rw [hnode, Option.some.injEq] at hn
  subst hn
  obtain ⟨hsessions, n₁, hn₁, hlt⟩ := resume_epoch hnode hboot hresume
  have hstep : (controlSystem env).step (tx, .node nodeId (.resume bootId)) db =
      { db₁ with xid := db.xid + 1 } := by
    show { Checked.settle (transaction env tx db (.node nodeId (.resume bootId))) db with
      xid := db.xid + 1 } = { db₁ with xid := db.xid + 1 }
    rw [hresume, Checked.settle_ok]
  have hreach₁ := h.step (tx, .node nodeId (.resume bootId))
  -- the session as the resumption left it
  have hfenced : FencedAt ((controlSystem env).step (tx, .node nodeId (.resume bootId)) db) id s := by
    refine ⟨reachable_placed hreach₁, s, ?_, rfl, rfl, ?_, ?_⟩
    · rw [hstep]
      show db₁.sessions.find? id = some s
      rw [hsessions, hs]
    · rw [hstep]
      exact ⟨(nodeId, epoch), hmem, n₁, hn₁, hrecorded.trans_lt hlt⟩
    · exact ⟨fun hended => by rw [hlive] at hended; cases hended⟩
  have hfinal : FencedAt db₂ id s := by
    rw [hdb₂]
    exact run_of_changes (P := fun db => FencedAt db id s) (fun _ _ _ _ hp hc => hc.fencedAt hp)
      hfenced is
  have hreach₂ : Machine.Reachable (controlSystem env) db₂ := by
    rw [hdb₂]
    exact Machine.reachable_run hreach₁ is
  obtain ⟨s₂, hs₂, hhold, huser, -, huncharged⟩ := hfinal.row
  refine ⟨s₂, hs₂, fun hended => ?_⟩
  obtain ⟨hzero, hbilling⟩ := huncharged.charged hended
  refine ⟨hzero, hbilling, fun hpos => ?_⟩
  obtain ⟨j, hj⟩ := (reachable_heldBooks hreach₂).holdReleased (reachable_booking hreach₂).sound hs₂
    hended (by omega)
  have hrefund := hj.refund hzero
  rw [huser, hhold] at hrefund
  exact ⟨j, hj.key, hrefund⟩

/-- What follows in the laboratory: the root reports a valid usage, which waits for the stage, and
the reaper passes. -/
def labFenced : List (Tx × Request) := [
    (labTx 71 9000, .node 1 (.receipt
      ⟨51000, 52000, 1, .completed, 100, 10, "o", true, some "stop", none, 100⟩)),
    (labTx 72 9000, .background (.reap []))]

/-- In the laboratory the stage of the running session `51000` resumes; the receipt of the root is
recorded afterwards, and the session still ends with its hold of 256 returned. -/
theorem epoch_fencing_lab :
    ∃ s₂ j, ((controlSystem labEnv).run ((controlSystem labEnv).step
        (labTx 70 9000, .node 2 (.resume 2)) (labDb (labSetup ++ labPlan ++ labWork)))
        labFenced).sessions.find? 51000 = some s₂ ∧
      s₂.state = .interrupted ∧ s₂.receipt.isSome ∧ s₂.charged = 0 ∧
      ((controlSystem labEnv).run ((controlSystem labEnv).step
        (labTx 70 9000, .node 2 (.resume 2)) (labDb (labSetup ++ labPlan ++ labWork)))
        labFenced).books.linesOfJournal j =
        Ledger.storedLines j (Ledger.linesOf labEnv.accountLe
          [(.held 1000, -256), (.available 1000, 256)]) := by
  have hfacts : ((labDb (labSetup ++ labPlan ++ labWork)).sessions.find? 51000).map
        (fun s => (s.userId, s.hold, s.state.terminal, decide ((2, 1) ∈ s.epochs))) =
        some (1000, 256, false, true) ∧
      ((labDb (labSetup ++ labPlan ++ labWork)).registry.nodes.find? 2).map (·.bootId) =
        some (some 1) ∧
      (transaction labEnv (labTx 70 9000) (labDb (labSetup ++ labPlan ++ labWork))
        (.node 2 (.resume 2))).toOption.isSome ∧
      ((((controlSystem labEnv).run ((controlSystem labEnv).step
        (labTx 70 9000, .node 2 (.resume 2)) (labDb (labSetup ++ labPlan ++ labWork)))
        labFenced).sessions.find? 51000).map fun s => (s.state, s.receipt.isSome)) =
        some (.interrupted, true) := by
    decide +kernel
  obtain ⟨hsession, hnode, hresume, hfinal⟩ := hfacts
  obtain ⟨s, hs, hrow⟩ := Option.map_eq_some_iff.1 hsession
  obtain ⟨node, hn, hboot⟩ := Option.map_eq_some_iff.1 hnode
  obtain ⟨s₃, hs₃, hended⟩ := Option.map_eq_some_iff.1 hfinal
  simp only [Prod.mk.injEq, decide_eq_true_eq] at hrow hended
  obtain ⟨huser, hhold, hlive, hmem⟩ := hrow
  obtain ⟨db₁, hdb₁⟩ := Checked.ok_of_toOption hresume
  obtain ⟨s₂, hs₂, hrefund⟩ := (epoch_fencing (reachable_lab (labSetup ++ labPlan ++ labWork))).2
    51000 s 2 1 node (labTx 70 9000) 2 db₁ hs hlive hmem hn (by rw [hboot]; decide) hdb₁ labFenced _
    rfl
  rw [hs₂, Option.some.injEq] at hs₃
  subst hs₃
  obtain ⟨hzero, -, hlines⟩ := hrefund (by rw [hended.1]; rfl)
  obtain ⟨j, -, hj⟩ := hlines (by omega)
  rw [huser, hhold] at hj
  exact ⟨s₂, j, hs₂, hended.1, hended.2, hzero, hj⟩

end NetworkAi
