import NetworkAi.Invariants.Charges
import NetworkAi.Invariants.HeldFunds
import NetworkAi.Invariants.Participants

set_option relaxedAutoImplicit false
set_option autoImplicit false

/-!
# The receipts of a route

What an accepted receipt of a party of a route does: it is recorded, and then the session goes on,
fails, or is settled. A live session has not heard of a failed stage, and waits for a party.

## Main definitions

* `NetworkAi.Session.Waits` — a live session waits for a receipt, and no stage has failed.

## Main results

* `NetworkAi.stageReceipt_ok`, `NetworkAi.receipt_ok` — what a receipt does.
* `NetworkAi.reachable_waits` — every live session waits.
-/

namespace NetworkAi

open Relational

variable {env : Env} {req : Request} {tx t : Tx} {db db' : Db} {id : SessionId} {s s' : Session}

/-! ### The outcomes of a receipt -/

/-- A live session waits for the receipt of one of its parties, and no stage has failed. -/
structure Session.Waits (s : Session) : Prop where
  sound : s.stageFailed = false
  missing : s.receipt = none ∨ ∃ p ∈ s.stages, p.receipt = none

/-- What `settleRoute` does with a session. -/
inductive RouteSettles (env : Env) (t : Tx) (db : Db) (id : SessionId) (s : Session) (db' : Db) :
    Prop
  | waits (hstate : s.state ≠ .cancelling) (h : s.Waits) (hdb : db' = db)
  | refused {state : ReceiptState} {error : Option String}
      (h : s.state = .cancelling ∨ s.stageFailed = true)
      (hend : finalize env t db id s state 0 error none = .ok db')
  | charged {root : RootReceipt} {quote : Quote} {charge : Int} (hstate : s.state ≠ .cancelling)
      (hsound : s.stageFailed = false) (hroot : s.receipt = some root)
      (hstages : ∀ p ∈ s.stages, p.receipt ≠ none)
      (hquote : db.quotes.find? s.quoteId = some quote)
      (hcharge : chargeFor quote.manifest root.payload.promptTokens
        root.payload.completionTokens = .ok charge)
      (hend : finalize env t db id s .completed charge none none = .ok db')

/-- A session on a route waits for more receipts, or is ended without a charge or with the root's.
-/
theorem settleRoute_ok {reply : ReceiptReply} (h : settleRoute env t db id s = .ok (reply, db')) :
    RouteSettles env t db id s db' := by
  unfold settleRoute at h
  split at h
  · rename_i hends
    simp only [Checked.bind_ok, Checked.pure_ok, Prod.mk.injEq] at h
    obtain ⟨db₁, hfinal, -, rfl⟩ := h
    exact .refused hends hfinal
  rename_i hgoing
  rw [not_or, Bool.not_eq_true] at hgoing
  split at h
  · rename_i hnone
    simp only [Checked.pure_ok, Prod.mk.injEq] at h
    exact .waits hgoing.1 ⟨hgoing.2, .inl hnone⟩ h.2.symm
  rename_i root hroot
  split at h
  · rename_i hmissing
    simp only [Checked.pure_ok, Prod.mk.injEq] at h
    exact .waits hgoing.1 ⟨hgoing.2, .inr hmissing⟩ h.2.symm
  rename_i hstages
  simp only [Checked.bind_ok, reference_ok, Checked.pure_ok, Prod.mk.injEq] at h
  obtain ⟨_, -, quote, hquote, charge, hcharge, db₁, hfinal, -, rfl⟩ := h
  exact .charged hgoing.1 hgoing.2 hroot (fun p hp hn => hstages ⟨p, hp, hn⟩) hquote hcharge hfinal

/-- What a receipt that was not reported before does before the deadline of its session. -/
inductive ReceiptTaken (env : Env) (t : Tx) (db : Db) (nodeId : NodeId) (id : SessionId)
    (s : Session) : NodeRequest → Db → Prop
  | stage {d : StageReceiptData} {db' : Db} (hstate : s.state.terminal = false)
      (h : RouteSettles env t
        { db with sessions := db.sessions.set id (s.stageReported env nodeId d) } id
        (s.stageReported env nodeId d) db') :
      ReceiptTaken env t db nodeId id s (.stageReceipt d) db'
  | root {d : ReceiptData} {quote : Quote} {db' : Db}
      (hstate : s.state = .running) (hquote : db.quotes.find? s.quoteId = some quote)
      (hvalid : validUsage quote d = true) (hroute : s.routeId.isSome)
      (h : RouteSettles env t { db with sessions := db.sessions.set id (s.reported env d) } id
        (s.reported env d) db') :
      ReceiptTaken env t db nodeId id s (.receipt d) db'
  | ended {d : ReceiptData} {quote : Quote} {state : ReceiptState} {charge : Int}
      {error : Option String} {billing : Option BillingState} {db' : Db}
      (hstate : s.state = .running ∨ s.state = .cancelling)
      (hquote : db.quotes.find? s.quoteId = some quote)
      (hends : ¬ (s.routeId.isSome ∧ validUsage quote d = true ∧ s.state ≠ .cancelling))
      (hcharge : ¬ (validUsage quote d = true ∧ s.state ≠ .cancelling) → charge = 0)
      (hend : finalize env t { db with sessions := db.sessions.set id (s.reported env d) } id
        (s.reported env d) state charge error billing = .ok db') :
      ReceiptTaken env t db nodeId id s (.receipt d) db'

/-- A stage's new receipt that was accepted was taken. -/
theorem newStageReceipt_ok {nodeId : NodeId} {p : SessionParticipant} {d : StageReceiptData}
    {reply : ReceiptReply} (hlive : s.state.terminal = false)
    (hdue : s.overdue (t.date 0) = false)
    (h : newStageReceipt env t db nodeId s p d = .ok (reply, db')) :
    ReceiptTaken env t db nodeId d.sessionId s (.stageReceipt d) db' := by
  unfold newStageReceipt at h
  rw [if_neg (by simp [hlive]), if_neg (by simp [hdue])] at h
  simp only [Checked.bind_ok, need_ok, exists_const] at h
  obtain ⟨-, _, -, h⟩ := h
  exact .stage hlive (settleRoute_ok h)

/-- A root's new receipt that was accepted was taken. -/
theorem newReceipt_ok {nodeId : NodeId} {d : ReceiptData} {reply : ReceiptReply}
    (hlive : s.state.terminal = false) (hdue : s.overdue (t.date 0) = false)
    (h : newReceipt env t db nodeId s d = .ok (reply, db')) :
    ReceiptTaken env t db nodeId d.sessionId s (.receipt d) db' := by
  unfold newReceipt at h
  rw [if_neg (by simp [hlive]), if_neg (by simp [hdue])] at h
  simp only [Checked.ite_bind, Checked.bind_ok, need_ok, needRow_ok, reference_ok,
    exists_const] at h
  obtain ⟨hstate, node, hnode, -, quote, hquote, charge, hcharge, db₁, hupdate, h⟩ := h
  obtain ⟨-, -, rfl⟩ := Db.updateSession_ok hupdate
  split at h
  · rename_i hgoing
    exact .root (hstate.resolve_right hgoing.2.2) hquote hgoing.2.1 hgoing.1 (settleRoute_ok h)
  · rename_i hends
    simp only [Checked.bind_ok, Checked.pure_ok, Prod.mk.injEq] at h
    obtain ⟨db₂, hfinal, -, rfl⟩ := h
    refine .ended hstate hquote hends (fun hinvalid => ?_) hfinal
    rw [if_neg hinvalid, Checked.pure_ok] at hcharge
    exact hcharge.symm

/-- The session that a receipt is about. -/
def NodeRequest.session : NodeRequest → Option SessionId
  | .receipt d => some d.sessionId
  | .stageReceipt d => some d.sessionId
  | _ => none

/-- The receipt of that party is recorded. -/
def Session.Reported (s : Session) (nodeId : NodeId) : NodeRequest → Prop
  | .receipt _ => s.receipt ≠ none
  | .stageReceipt _ => ∃ p, s.stages.find? (fun p => p.nodeId = nodeId) = some p ∧ p.receipt ≠ none
  | _ => False

/-- **What a receipt does**: it is known, or comes when the session has ended or its deadline has
passed, or is taken. -/
inductive ReceiptHandled (env : Env) (t : Tx) (db : Db) (nodeId : NodeId) (id : SessionId)
    (s : Session) (r : NodeRequest) (db' : Db) : Prop
  | known (h : s.Reported nodeId r) (hdb : db' = db)
  | late (h : s.state.terminal = true) (hdb : db' = db)
  | expired (hlive : s.state.terminal = false) (hdue : s.overdue (t.date 0) = true)
      (hend : finalize env t db id s .interrupted 0 (some "execution_timeout") none = .ok db')
  | taken (hlive : s.state.terminal = false) (hnew : ¬ s.Reported nodeId r)
      (h : ReceiptTaken env t db nodeId id s r db')

/-- A stage's receipt that was accepted was handled. -/
theorem stageReceipt_ok {nodeId : NodeId} {d : StageReceiptData} {reply : ReceiptReply}
    (h : stageReceipt env t db nodeId d = .ok (reply, db')) :
    ∃ s, db.sessions.find? d.sessionId = some s ∧
      ReceiptHandled env t db nodeId d.sessionId s (.stageReceipt d) db' := by
  unfold stageReceipt at h
  simp only [Checked.bind_ok, parse_ok, needRow_ok, need_ok, exists_const] at h
  obtain ⟨-, s, hs, p, hp, -, h⟩ := h
  refine ⟨s, hs, ?_⟩
  split at h
  · rename_i old hold
    simp only [Checked.bind_ok, need_ok, Checked.pure_ok, exists_const, Prod.mk.injEq] at h
    exact .known ⟨p, hp, by rw [hold]; exact Option.some_ne_none old⟩ h.2.2.symm
  rename_i hnone
  have hnew : ¬ s.Reported nodeId (.stageReceipt d) := by
    rintro ⟨q, hq, hsome⟩
    rw [hp, Option.some.injEq] at hq
    exact hsome (hq ▸ hnone)
  by_cases hlive : s.state.terminal = true
  · unfold newStageReceipt at h
    rw [if_pos hlive, Checked.pure_ok, Prod.mk.injEq] at h
    exact .late hlive h.2.symm
  rw [Bool.not_eq_true] at hlive
  by_cases hdue : s.overdue (t.date 0) = true
  · unfold newStageReceipt at h
    rw [if_neg (by simp [hlive]), if_pos hdue] at h
    simp only [Checked.bind_ok, Checked.pure_ok, Prod.mk.injEq] at h
    obtain ⟨db₁, hfinal, -, rfl⟩ := h
    exact .expired hlive hdue hfinal
  · rw [Bool.not_eq_true] at hdue
    exact .taken hlive hnew (newStageReceipt_ok hlive hdue h)

/-- A root's receipt that was accepted was handled. -/
theorem receipt_ok {nodeId : NodeId} {d : ReceiptData} {reply : ReceiptReply}
    (h : receipt env t db nodeId d = .ok (reply, db')) :
    ∃ s, db.sessions.find? d.sessionId = some s ∧
      ReceiptHandled env t db nodeId d.sessionId s (.receipt d) db' := by
  unfold receipt at h
  simp only [Checked.bind_ok, parse_ok, needRow_ok, need_ok, exists_const] at h
  obtain ⟨-, s, hs, -, h⟩ := h
  refine ⟨s, hs, ?_⟩
  split at h
  · rename_i old hold
    simp only [Checked.bind_ok, need_ok, Checked.pure_ok, exists_const, Prod.mk.injEq] at h
    exact .known (by rw [Session.Reported, hold]; exact Option.some_ne_none old) h.2.2.symm
  rename_i hnone
  have hnew : ¬ s.Reported nodeId (.receipt d) := fun hsome => hsome hnone
  by_cases hlive : s.state.terminal = true
  · unfold newReceipt at h
    rw [if_pos hlive, Checked.pure_ok, Prod.mk.injEq] at h
    exact .late hlive h.2.symm
  rw [Bool.not_eq_true] at hlive
  by_cases hdue : s.overdue (t.date 0) = true
  · unfold newReceipt at h
    rw [if_neg (by simp [hlive]), if_pos hdue] at h
    simp only [Checked.bind_ok, Checked.pure_ok, Prod.mk.injEq] at h
    obtain ⟨db₁, hfinal, -, rfl⟩ := h
    exact .expired hlive hdue hfinal
  · rw [Bool.not_eq_true] at hdue
    exact .taken hlive hnew (newReceipt_ok hlive hdue h)

/-! ### Ends -/

/-- The end of a live session writes that session. -/
theorem finalize_ends {state : ReceiptState} {charge : Int} {error : Option String}
    {billing : Option BillingState} (hlive : s.state.terminal = false)
    (h : finalize env t db id s state charge error billing = .ok db') :
    ∃ s', db'.sessions = db.sessions.set id s' ∧ s'.state.terminal = true := by
  unfold finalize at h
  rw [if_neg (by simp [hlive])] at h
  simp only [Checked.ite_bind, Checked.bind_ok, need_ok, exists_const, Prod.exists] at h
  obtain ⟨hcharge, entries, s', db₁, hparts, j, db₂, hpost, hupdate⟩ := h
  obtain ⟨settlements, hsplit, rfl, -⟩ := splitCharge_ok hparts
  obtain ⟨books, hb, rfl⟩ := Db.postIf_ok hpost
  obtain ⟨-, -, rfl⟩ := Db.updateSession_ok hupdate
  exact ⟨_, rfl, by cases state <;> rfl⟩

/-! ### Live sessions wait -/

/-- What a session is known to wait for, in each of its states. -/
structure Session.Outstanding (s : Session) : Prop where
  early : s.state = .queued ∨ s.state = .preparing ∨ s.state = .authorized → s.receipt = none
  waits : s.state.terminal = false → s.Waits

/-- A session that is over waits for nothing. -/
theorem Session.Outstanding.of_terminal (h : s.state.terminal = true) : s.Outstanding where
  early he := by
    rcases he with he | he | he <;> rw [he] at h <;> cases h
  waits hlive := by
    rw [h] at hlive
    cases hlive

/-- No stage has failed when every receipt of a stage is complete. -/
theorem Session.stageFailed_eq_false : s.stageFailed = false ↔
    ∀ p ∈ s.participants, p.role = .stage → ∀ r ∈ p.receipt, r.payload.complete = true := by
  simp only [Session.stageFailed, Session.stages, List.any_eq_false, List.mem_filter,
    decide_eq_true_eq]
  constructor
  · intro h p hp hrole r hr
    have := h p ⟨hp, hrole⟩
    rw [Option.mem_def.1 hr] at this
    simpa using this
  · intro h p hp
    cases hr : p.receipt with
    | none => simp
    | some r => simp [h p hp.1 hp.2 r hr]

/-- A session waits while no stage has failed and a receipt is missing. -/
theorem Session.waits_iff : s.Waits ↔
    (∀ p ∈ s.participants, p.role = .stage → ∀ r ∈ p.receipt, r.payload.complete = true) ∧
      (s.receipt = none ∨ ∃ p ∈ s.participants, p.role = .stage ∧ p.receipt = none) := by
  constructor
  · rintro ⟨hsound, hmissing⟩
    refine ⟨Session.stageFailed_eq_false.1 hsound, hmissing.imp_right ?_⟩
    rintro ⟨p, hp, hnone⟩
    simp only [Session.stages, List.mem_filter, decide_eq_true_eq] at hp
    exact ⟨p, hp.1, hp.2, hnone⟩
  · rintro ⟨hsound, hmissing⟩
    refine ⟨Session.stageFailed_eq_false.2 hsound, hmissing.imp_right ?_⟩
    rintro ⟨p, hp, hrole, hnone⟩
    exact ⟨p, List.mem_filter.2 ⟨hp, by simpa using hrole⟩, hnone⟩

/-- What leaves the receipts of a session alone lets it wait. -/
theorem Session.Waits.of_map (h : s.Waits) {f : SessionParticipant → SessionParticipant}
    (hf : ∀ p, (f p).role = p.role ∧ (f p).receipt = p.receipt) (hreceipt : s'.receipt = s.receipt)
    (hmap : s'.participants = s.participants.map f) : s'.Waits := by
  rw [Session.waits_iff] at h ⊢
  rw [hmap, hreceipt]
  refine ⟨fun p hp hrole => ?_, h.2.imp_right ?_⟩
  · obtain ⟨q, hq, rfl⟩ := List.mem_map.1 hp
    rw [(hf q).1] at hrole
    rw [(hf q).2]
    exact h.1 q hq hrole
  · rintro ⟨p, hp, hrole, hnone⟩
    exact ⟨f p, List.mem_map_of_mem hp, (hf p).1.trans hrole, (hf p).2.trans hnone⟩

/-- A session with the same receipts still waits. -/
theorem Session.Waits.of_same (h : s.Waits) (hreceipt : s'.receipt = s.receipt)
    (hsame : s'.participants = s.participants) : s'.Waits :=
  h.of_map (f := fun p => p) (fun _ => ⟨rfl, rfl⟩) hreceipt (by rw [hsame, List.map_id'])

/-- A new session waits. -/
theorem newSession_outstanding {user : UserId} {d : CreateRequest} {quote : Quote} :
    (newSession t user d quote).Outstanding :=
  ⟨fun _ => rfl, fun _ => ⟨rfl, .inl rfl⟩⟩

/-- An admitted session waits. -/
theorem Admitted.outstanding {o : Offer} (h : Admitted t db s o s') (hs : s.Outstanding) :
    s'.Outstanding := by
  have hnone := hs.early (.inl h.queued)
  have hwaits := Session.waits_iff.1 (hs.waits (by rw [h.queued]; rfl))
  obtain ⟨members, hmembers, hps⟩ := h.members
  have hreceipt : s'.receipt = none := by
    rw [h.row]
    exact hnone
  refine ⟨fun _ => hreceipt, fun _ => Session.waits_iff.2 ⟨?_, .inl hreceipt⟩⟩
  intro p hp hrole r hr
  rw [hps, List.mem_append] at hp
  rcases hp with hp | hp
  · exact hwaits.1 p hp hrole r hr
  · rw [((admitMembers_ok hmembers).2 p hp).2.2.2.2] at hr
    cases hr

/-- The requests that report a receipt. -/
def Request.reports : Request → Bool
  | .node _ (.receipt _) | .node _ (.stageReceipt _) => true
  | _ => false

/-- A preparation leaves the roles and the receipts. -/
theorem prepareParticipants_map (d : AuthorizeRequest) (stages : List (NodeId × String))
    (ps : List SessionParticipant) :
    ∃ f : SessionParticipant → SessionParticipant,
      (∀ p, (f p).role = p.role ∧ (f p).receipt = p.receipt) ∧
        prepareParticipants d stages ps = ps.map f := by
  refine ⟨_, ?_, rfl⟩
  exact fun p => ⟨rfl, rfl⟩

/-- An authorization leaves the roles and the receipts. -/
theorem authorizeParticipants_map {d : AuthorizeRequest} {ps : List SessionParticipant}
    (h : authorizeParticipants t db s d = .ok ps) :
    ∃ f : SessionParticipant → SessionParticipant,
      (∀ p, (f p).role = p.role ∧ (f p).receipt = p.receipt) ∧ ps = s.participants.map f := by
  unfold authorizeParticipants at h
  split at h
  · simp only [Checked.bind_ok, need_ok, Checked.pure_ok, exists_const] at h
    obtain ⟨_, -, -, rfl⟩ := h
    exact prepareParticipants_map d _ s.participants
  · simp only [Checked.bind_ok, need_ok, Checked.pure_ok, exists_const] at h
    exact ⟨fun p => p, fun p => ⟨rfl, rfl⟩, by rw [List.map_id', h.2]⟩

/-- A claim leaves the roles and the receipts. -/
theorem claimParticipant_map (t : Tx) (nodeId : NodeId) (ps : List SessionParticipant) :
    ∃ f : SessionParticipant → SessionParticipant,
      (∀ p, (f p).role = p.role ∧ (f p).receipt = p.receipt) ∧
        claimParticipant t nodeId ps = ps.map f := by
  refine ⟨fun p => if p.nodeId = nodeId then { p with claimedAt := some t.now } else p,
    fun p => ?_, rfl⟩
  by_cases hp : p.nodeId = nodeId
  · simp [hp]
  · simp [hp]

/-- A session that goes on without a receipt still waits. -/
theorem Updated.outstanding (h : Updated env t db id s req s') (hreq : req.reports = false)
    (hs : s.Outstanding) : s'.Outstanding := by
  cases h with
  | authorized hstate hnode hps =>
    obtain ⟨f, hf, rfl⟩ := authorizeParticipants_map hps
    exact ⟨fun _ => hs.early (.inr (.inl hstate)),
      fun _ => (hs.waits (by rw [hstate]; rfl)).of_map hf rfl rfl⟩
  | @claimed nodeId d node hfor hstate hid hnode hepoch hroute =>
    refine ⟨fun he => ?_, fun _ => ?_⟩
    · rcases he with he | he | he <;> cases he
    · obtain ⟨f, hf, hmap⟩ := claimParticipant_map t nodeId s.participants
      have hwaits := hs.waits (by rw [hstate]; rfl)
      by_cases hr : s.routeId.isSome
      · exact hwaits.of_map hf rfl (by simp [hr, hmap])
      · exact hwaits.of_same rfl (by simp [hr])
  | @stageClaimed nodeId d p hfor hroute hstate =>
    obtain ⟨f, hf, hmap⟩ := claimParticipant_map t nodeId s.participants
    exact ⟨fun _ => hs.early (.inr (.inr hstate)),
      fun _ => (hs.waits (by rw [hstate]; rfl)).of_map hf rfl hmap⟩
  | stageReported => cases hreq
  | reported => cases hreq
  | cancelling hstate =>
    refine ⟨fun he => ?_, fun _ => ?_⟩
    · rcases he with he | he | he <;> cases he
    · exact (hs.waits (by rcases hstate with h | h <;> rw [h] <;> rfl)).of_same rfl rfl

/-- The sessions of a database are known to wait. -/
def Outstanding (db : Db) : Prop := ∀ id s, db.sessions.find? id = some s → s.Outstanding

/-- A change that reports no receipt lets the sessions wait. -/
theorem Change.outstanding (hc : Change env req tx db db') (hreq : req.reports = false)
    (h : Outstanding db) : Outstanding db' := by
  intro id s' hs'
  rcases hc.session_cases hs' with ⟨-, t, user, d, quote, -, rfl⟩ | ⟨s, hs, hstep⟩
  · exact newSession_outstanding
  · cases hstep with
    | same => exact h id _ hs
    | admitted ha => exact ha.outstanding (h id s hs)
    | updated hu => exact hu.outstanding hreq (h id s hs)
    | @finalized _ _ _ state => exact .of_terminal (by cases state <;> rfl)
    | refunded hrow =>
      exact ⟨(h id s hs).early, fun hlive => ((h id s hs).waits hlive).of_same rfl rfl⟩

/-- A write to one session that is known to wait. -/
theorem Outstanding.of_set (h : Outstanding db) (hset : db'.sessions = db.sessions.set id s')
    (hs' : s'.Outstanding) : Outstanding db' := by
  intro id₁ s₁ hs₁
  rw [hset] at hs₁
  rcases Table.find?_set_cases hs₁ with ⟨-, rfl, -⟩ | ⟨-, hold⟩
  · exact hs'
  · exact h id₁ s₁ hold

/-- A session that ends, or goes on to wait, is known to wait. -/
theorem RouteSettles.outstanding
    (h : RouteSettles env t { db with sessions := db.sessions.set id s } id s db')
    (ho : Outstanding db) (hlive : s.state.terminal = false)
    (hearly : s.state = .queued ∨ s.state = .preparing ∨ s.state = .authorized → s.receipt = none) :
    Outstanding db' := by
  have hends : ∀ {state charge error}, finalize env t
      { db with sessions := db.sessions.set id s } id s state charge error none = .ok db' →
      Outstanding db' := by
    intro state charge error hend
    obtain ⟨s', hset, hterminal⟩ := finalize_ends hlive hend
    rw [Table.set_set] at hset
    exact ho.of_set hset (.of_terminal hterminal)
  cases h with
  | waits hgoing hwaits hdb => exact ho.of_set (by rw [hdb]) ⟨hearly, fun _ => hwaits⟩
  | refused _ hend => exact hends hend
  | charged _ _ _ _ _ _ hend => exact hends hend

/-- A receipt that is taken leaves every session waiting. -/
theorem ReceiptTaken.outstanding {nodeId : NodeId} {r : NodeRequest}
    (h : ReceiptTaken env t db nodeId id s r db') (hs : db.sessions.find? id = some s)
    (ho : Outstanding db) : Outstanding db' := by
  cases h with
  | stage hlive hsettled => exact hsettled.outstanding ho hlive (ho id s hs).early
  | root hstate _ _ _ hsettled =>
    refine hsettled.outstanding ho (show s.state.terminal = false by rw [hstate]; rfl) fun he => ?_
    have he : s.state = .queued ∨ s.state = .preparing ∨ s.state = .authorized := he
    rcases he with he | he | he <;> rw [he] at hstate <;> cases hstate
  | ended hstate _ _ _ hend =>
    have hlive : s.state.terminal = false := by
      rcases hstate with h | h <;> rw [h] <;> rfl
    obtain ⟨s', hset, hterminal⟩ := finalize_ends (s := s.reported env _) hlive hend
    rw [Table.set_set] at hset
    exact ho.of_set hset (.of_terminal hterminal)

/-- The requests of a node that report a receipt, as transactions. -/
theorem transaction_receipt {nodeId : NodeId} {r : NodeRequest}
    (hr : Request.reports (.node nodeId r) = true)
    (h : transaction env tx db (.node nodeId r) = .ok db') :
    ∃ id s, r.session = some id ∧ db.sessions.find? id = some s ∧
      ReceiptHandled env tx db nodeId id s r db' := by
  simp only [transaction, Checked.bind_ok, Checked.pure_ok] at h
  obtain ⟨db₁, hperform, _, -, rfl⟩ := h
  cases r with
  | receipt d =>
    obtain ⟨⟨reply, db₂⟩, hreceipt, rfl⟩ : ∃ reply, receipt env tx db nodeId d = .ok reply ∧
        reply.2 = db₁ := Checked.map_ok.1 hperform
    obtain ⟨s, hs, hhandled⟩ := receipt_ok hreceipt
    exact ⟨_, s, rfl, hs, hhandled⟩
  | stageReceipt d =>
    obtain ⟨⟨reply, db₂⟩, hreceipt, rfl⟩ : ∃ reply, stageReceipt env tx db nodeId d = .ok reply ∧
        reply.2 = db₁ := Checked.map_ok.1 hperform
    obtain ⟨s, hs, hhandled⟩ := stageReceipt_ok hreceipt
    exact ⟨_, s, rfl, hs, hhandled⟩
  | _ => cases hr

/-- A receipt leaves every session waiting. -/
theorem ReceiptHandled.outstanding {nodeId : NodeId} {r : NodeRequest}
    (h : ReceiptHandled env t db nodeId id s r db') (hs : db.sessions.find? id = some s)
    (ho : Outstanding db) : Outstanding db' := by
  cases h with
  | known _ hdb => exact hdb ▸ ho
  | late _ hdb => exact hdb ▸ ho
  | expired hlive _ hend =>
    obtain ⟨s', hset, hterminal⟩ := finalize_ends hlive hend
    exact ho.of_set hset (.of_terminal hterminal)
  | taken _ _ htaken => exact htaken.outstanding hs ho

/-- **Live sessions wait**, in every reachable database: no stage of theirs has failed, and the
receipt of a party is missing. -/
theorem reachable_waits (h : Machine.Reachable (controlSystem env) db) : Outstanding db := by
  refine h.invariant (P := Outstanding) ?_ fun db i _ ho => ?_
  · rintro _ ⟨admin, rfl⟩ id s hs
    cases hs
  obtain ⟨tx, req⟩ := i
  by_cases hreq : req.reports = false
  · exact (step_changes (tx, req) db).preserves (fun a b hab ha => hab.outstanding hreq ha) ho
  rw [Bool.not_eq_false] at hreq
  rcases Checked.settle_cases (transaction env tx db req) db with ⟨db', hdb', hset⟩ | hset
  · show Outstanding { Checked.settle (transaction env tx db req) db with xid := db.xid + 1 }
    rw [hset]
    cases req with
    | node nodeId r =>
      obtain ⟨id, s, -, hs, hhandled⟩ := transaction_receipt hreq hdb'
      exact hhandled.outstanding hs ho
    | _ => cases hreq
  · show Outstanding { Checked.settle (transaction env tx db req) db with xid := db.xid + 1 }
    rw [hset]
    exact ho

end NetworkAi
