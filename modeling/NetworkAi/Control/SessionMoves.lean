import NetworkAi.Control.Moves

set_option relaxedAutoImplicit false
set_option autoImplicit false

/-!
# The moves of the session operations

Each entry point of `sessions.ts` that commits is a sequence of moves: it creates a session,
admits it, lets it go on, or finalizes it.

## Main results

* `NetworkAi.finalize_moves` — the common end of every session.
* `NetworkAi.createSession_moves`, `NetworkAi.admitSession_moves`, `NetworkAi.receipt_moves`, … — the
  entry points.
-/

namespace NetworkAi

open Relational

/-- Finitely many moves of one transaction. -/
abbrev Moves (env : Env) (req : Request) (tx : Tx) : Db → Db → Prop :=
  Machine.Star (Move env req tx)

/-- No changes. -/
theorem Moves.refl {env : Env} {req : Request} {tx : Tx} (db : Db) : Moves env req tx db db :=
  Relation.ReflTransGen.refl

/-- One change. -/
theorem Moves.single {env : Env} {req : Request} {tx : Tx} {db db' : Db}
    (h : Move env req tx db db') :
    Moves env req tx db db' := Relation.ReflTransGen.single h

/-- Changes after changes. -/
theorem Moves.trans {env : Env} {req : Request} {tx : Tx} {db₁ db₂ db₃ : Db}
    (h₁ : Moves env req tx db₁ db₂)
    (h₂ : Moves env req tx db₂ db₃) : Moves env req tx db₁ db₃ := Relation.ReflTransGen.trans h₁ h₂

variable {env : Env} {req : Request} {tx t : Tx} {db db' : Db} {id : SessionId} {s s' : Session}

/-! ### Writing a session -/

/-- What an update of a session checks, and what it writes. -/
theorem Db.updateSession_ok (h : db.updateSession id s = .ok db') :
    s.Valid ∧ checkCooperativeSession db s = true ∧
      db' = { db with sessions := db.sessions.set id s } := by
  unfold Db.updateSession at h
  simp only [Checked.bind_ok, constraint_ok, Checked.pure_ok, exists_const] at h
  exact ⟨h.1, h.2.1, h.2.2.symm⟩

/-- The division of a charge keeps the owner and the hold of the session. -/
theorem Split.keeps {charge : Int} {entries : List (AccountId × Int)}
    {settlements : Table SessionId Settlement} (h : Split db id s charge entries s' settlements) :
    s'.userId = s.userId ∧ s'.hold = s.hold := by
  cases h <;> exact ⟨rfl, rfl⟩

/-- The division of a charge does not depend on the other sessions. -/
theorem Split.sessions {charge : Int} {entries : List (AccountId × Int)}
    {sessions : Table SessionId Session} {settlements : Table SessionId Settlement}
    (h : Split { db with sessions } id s charge entries s' settlements) :
    Split db id s charge entries s' settlements := by
  cases h with
  | free h => exact .free h
  | recycled h hpool hlease hcharge hsum hparts hid =>
    have hfresh : db.settlements.find? id = none := hid
    exact .recycled h hpool hlease hcharge hsum hparts hfresh
  | route h hpool hroute hpay => exact .route h hpool hroute hpay
  | node h hpool hroute hid hnode => exact .node h hpool hroute hid hnode

/-- The division of a cooperative charge and the settlement that it records. -/
theorem recycleSettlement_ok {charge : Int} {entries : List (AccountId × Int)}
    (h : recycleSettlement t db id s charge = .ok (entries, db')) :
    ∃ settlements, Split db id s charge entries s settlements ∧ db' = { db with settlements } ∧
      ∀ r, settlements.find? id = some r → r.Recorded t db := by
  unfold recycleSettlement at h
  simp only [Checked.bind_ok, needRow_ok, need_ok, constraint_ok, reference_ok, Checked.pure_ok,
    exists_const, Table.insert?_eq_some, Prod.mk.injEq] at h
  obtain ⟨pool, hpool, p, hp, lease, hlease, -, ⟨hpos, h1, h2, h3, hsum⟩, hwindow, _, ⟨hid, rfl⟩,
    rfl, rfl⟩ := h
  refine ⟨_, .recycled (r := ⟨pool, _, lease, _, _, _, _, _⟩) hpos hpool hlease rfl hsum
    ⟨h1, h2, h3⟩ hid, rfl, fun r hr => ?_⟩
  rw [Table.find?_insert_self, Option.some.injEq] at hr
  rw [← hr]
  exact ⟨rfl, by simp [hp], hwindow, by simp [hp]⟩

/-- What the code computes for a charge is its division, and a new settlement is recorded. -/
theorem splitCharge_ok {charge : Int} {entries : List (AccountId × Int)}
    (h : splitCharge t db id s charge = .ok (entries, s', db')) :
    ∃ settlements, Split db id s charge entries s' settlements ∧ db' = { db with settlements } ∧
      ∀ r, settlements.find? id = some r → db.settlements.find? id = none → r.Recorded t db := by
  have hold : ∀ r, db.settlements.find? id = some r → db.settlements.find? id = none →
      r.Recorded t db := by
    intro r hr hnone
    rw [hr] at hnone
    cases hnone
  unfold splitCharge at h
  split at h
  · rename_i hfree
    simp only [Checked.pure_ok, Prod.mk.injEq] at h
    obtain ⟨rfl, rfl, rfl⟩ := h
    exact ⟨_, .free hfree, rfl, hold⟩
  rename_i hpos
  split at h
  · simp only [Checked.bind_ok, Checked.pure_ok, Prod.exists, Prod.mk.injEq] at h
    obtain ⟨entries', db₁, hrec, rfl, rfl, rfl⟩ := h
    obtain ⟨settlements, hsplit, hdb, hrecorded⟩ := recycleSettlement_ok hrec
    exact ⟨settlements, hsplit, hdb, fun r hr _ => hrecorded r hr⟩
  rename_i hpool
  rw [Option.not_isSome_iff_eq_none] at hpool
  split at h
  · rename_i hroute
    simp only [Checked.bind_ok, Checked.pure_ok, Prod.mk.injEq] at h
    obtain ⟨payments, hpay, rfl, rfl, rfl⟩ := h
    exact ⟨_, .route (by omega) hpool hroute hpay, rfl, hold⟩
  · rename_i hroute
    simp only [Checked.bind_ok, reference_ok, Checked.pure_ok, Prod.mk.injEq] at h
    obtain ⟨nodeId, hid, node, hnode, rfl, rfl, rfl⟩ := h
    rw [Option.not_isSome_iff_eq_none] at hroute
    exact ⟨_, .node (by omega) hpool hroute hid hnode, rfl, hold⟩

/-- **The end of a session** is one move. The database may have the receipt of the root already,
which is then part of the move.

**Proof sketch.** The division of the charge, the posting and the row are read off `finalize`. The
division keeps the user and the hold, so that the entries are those of the session before it, and
the row is written over the one that the receipt may have written already. -/
theorem finalize_moves {db₀ : Db} {s₀ : Session} {state : ReceiptState} {charge : Int}
    {error : Option String} {billing : Option BillingState}
    (hs : db₀.sessions.find? id = some s₀) (hreport : Reporting env s₀ s)
    (hdb : db = { db₀ with sessions := db.sessions })
    (hset : ∀ w, db.sessions.set id w = db₀.sessions.set id w)
    (hlive : s.state.terminal = false)
    (h : finalize env t db id s state charge error billing = .ok db')
    (hbilling : billing = none ∨ billing = some .disputed)
    (hpaid : 0 < charge → Payable t db s state charge billing)
    (htimely : 0 < charge → t = tx ∧ s.overdue (tx.date 0) = false ∧ req.charges = true) :
    Moves env req tx db₀ db' := by
  have hlive₀ : s₀.state.terminal = false := by
    cases hreport with
    | stored => exact hlive
    | root d hstate => exact hlive
  unfold finalize at h
  rw [if_neg (by simp [hlive])] at h
  simp only [Checked.ite_bind, Checked.bind_ok, need_ok, exists_const, Prod.exists] at h
  obtain ⟨hcharge, entries, s', db₁, hparts, j, db₂, hpost, hupdate⟩ := h
  obtain ⟨settlements, hsplit, rfl, hrecorded⟩ := splitCharge_ok hparts
  obtain ⟨books, hb, rfl⟩ := Db.postIf_ok hpost
  obtain ⟨-, -, rfl⟩ := Db.updateSession_ok hupdate
  obtain ⟨huser, hhold⟩ := hsplit.keeps
  rw [hhold] at hb
  have hentries : holdEntries s' charge = holdEntries s charge := by
    simp only [holdEntries, huser, hhold]
  rw [hentries] at hb
  dsimp only
  rw [hset]
  generalize db.sessions = sessions at hdb
  subst hdb
  exact .single (.sessionFinalized hs hreport hlive₀ hcharge hbilling
    (fun hpos => ⟨(hpaid hpos).completed, (hpaid hpos).billing, (hpaid hpos).going,
      (hpaid hpos).usage, (hpaid hpos).root, (hpaid hpos).stages⟩)
    hsplit.sessions hb htimely fun r hr hnone =>
      ⟨(hrecorded r hr hnone).created, (hrecorded r hr hnone).pool,
        (hrecorded r hr hnone).window, (hrecorded r hr hnone).policy⟩)

/-- The end of a stored session, unless it has already ended. -/
theorem end_moves {state : ReceiptState} {charge : Int} {error : Option String}
    (hs : db.sessions.find? id = some s)
    (h : finalize env t db id s state charge error none = .ok db')
    (hpaid : 0 < charge → Payable t db s state charge none)
    (htimely : 0 < charge → t = tx ∧ s.overdue (tx.date 0) = false ∧ req.charges = true) :
    Moves env req tx db db' := by
  by_cases hlive : s.state.terminal = false
  · exact finalize_moves hs .stored rfl (fun _ => rfl) hlive h (.inl rfl) hpaid htimely
  · unfold finalize at h
    rw [if_pos (by simpa using hlive)] at h
    simp only [Checked.pure_ok] at h
    exact h ▸ .refl db

/-- The end of a session that is not charged. -/
theorem release_moves {state : ReceiptState} {error : Option String}
    (hs : db.sessions.find? id = some s)
    (h : finalize env t db id s state 0 error none = .ok db') : Moves env req tx db db' :=
  end_moves hs h (fun hpos => absurd hpos (lt_irrefl 0)) fun hpos => absurd hpos (lt_irrefl 0)

/-! ### Creation -/

/-- A new session posts its hold and adds its row. -/
theorem createNewSession_moves {user : Actor} {d : CreateRequest}
    (huser : (db.registry.users.find? user.id).isSome)
    (h : createNewSession env t db user d = .ok (id, db')) : Moves env req tx db db' := by
  unfold createNewSession at h
  simp only [Checked.bind_ok, needRow_ok, need_ok, Checked.pure_ok, exists_const,
    Prod.mk.injEq] at h
  obtain ⟨quote, hquote, row, -, -, -, -, -, -, -, db₁, hinsert, -, rfl⟩ := h
  unfold insertSession at hinsert
  simp only [Checked.ite_bind, Checked.bind_ok, constraint_ok, reference_ok, Checked.pure_ok,
    exists_const, Table.insert?_eq_some, Prod.exists] at hinsert
  obtain ⟨j, db₂, hpost, hvalid, -, _, ⟨hid, rfl⟩, rfl⟩ := hinsert
  obtain ⟨books, hb, rfl⟩ := Db.postIf_ok hpost
  have hfresh : db.sessions.find? (t.uuid 0) = none := hid
  exact .single (.sessionCreated hfresh hquote hvalid.1.1 huser hb)

/-- A session that was sent before changes nothing; a new one adds its row. -/
theorem createSession_moves {user : Actor} {d : CreateRequest}
    (huser : (db.registry.users.find? user.id).isSome)
    (h : createSession env t db user d = .ok (id, db')) : Moves env req tx db db' := by
  unfold createSession at h
  simp only [Checked.bind_ok, parse_ok, exists_const] at h
  obtain ⟨-, h⟩ := h
  split at h
  · simp only [Checked.bind_ok, need_ok, Checked.pure_ok, exists_const, Prod.mk.injEq] at h
    obtain ⟨-, -, rfl⟩ := h
    exact .refl db
  · exact createNewSession_moves huser h

/-! ### Admission -/

/-- An admission to an offer is one change. -/
theorem admitTo_moves {o : Offer} {reply : AdmitReply} (hadmits : req.admits = true)
    (hs : db.sessions.find? id = some s)
    (hqueued : s.state = .queued) (ho : o ∈ admissible t db s)
    (h : admitTo t db id s o = .ok (reply, db')) : Moves env req tx db db' := by
  unfold admitTo at h
  simp only [Checked.bind_ok, reference_ok, Checked.pure_ok, Prod.mk.injEq] at h
  obtain ⟨node, hnode, coverage, hcoverage, members, hmembers, db₁, hupdate, -, rfl⟩ := h
  have hadmission : Move env req tx db db₁ := by
    obtain ⟨-, -, rfl⟩ := Db.updateSession_ok hupdate
    exact .sessionAdmitted hs (t := t) (o := o)
      ⟨hqueued, ho, ⟨node, hnode, rfl, rfl, rfl⟩, ⟨members, hmembers, rfl⟩,
        ⟨coverage, hcoverage, rfl, rfl, rfl⟩, rfl⟩
  exact (Moves.single hadmission).trans
    (.single (.registry (Registry.admitted_evolves env db₁.registry s.userId (some t.now))
      fun hother => by rw [hadmits] at hother; cases hother))

/-- An admission ends a session that is overdue, or gives it an offer. -/
theorem admitSession_moves {reply : AdmitReply} (hadmits : req.admits = true)
    (h : admitSession env t db id = .ok (reply, db')) : Moves env req tx db db' := by
  unfold admitSession at h
  simp only [Checked.bind_ok, needRow_ok] at h
  obtain ⟨s, hs, h⟩ := h
  split at h
  · simp only [Checked.pure_ok, Prod.mk.injEq] at h
    exact h.2 ▸ .refl db
  split at h
  · simp only [Checked.bind_ok, Checked.pure_ok, Prod.mk.injEq] at h
    obtain ⟨db₁, hfinal, -, rfl⟩ := h
    exact release_moves hs hfinal
  simp only [Checked.bind_ok, need_ok, exists_const] at h
  obtain ⟨hqueued, h⟩ := h
  split at h
  · simp only [Checked.pure_ok, Prod.mk.injEq] at h
    exact h.2 ▸ .refl db
  split at h
  · simp only [Checked.pure_ok, Prod.mk.injEq] at h
    exact h.2 ▸ .refl db
  · rename_i o ho
    exact admitTo_moves hadmits hs hqueued (mem_of_firstBy ho) h

/-! ### Authorization and claims -/

/-- A request that let a session go on, and wrote nothing else. -/
def LetGo (env : Env) (t : Tx) (db : Db) (id : SessionId) (req : Request) (db' : Db) : Prop :=
  ∃ s s', db.sessions.find? id = some s ∧ Updated env t db id s req s' ∧
    db' = { db with sessions := db.sessions.set id s' }

/-- A session that was let go on is one change. -/
theorem LetGo.moves (h : LetGo env t db id req db') : Moves env req tx db db' := by
  obtain ⟨s, s', hs, hupdated, rfl⟩ := h
  exact .single (.sessionUpdated hs hupdated)

/-- An authorization of the gateway lets its session go on. -/
theorem authorize_ok {d : AuthorizeRequest} (h : authorize t db id d = .ok db') :
    LetGo env t db id (.gateway (.authorize id d)) db' := by
  unfold authorize at h
  simp only [Checked.bind_ok, parse_ok, needRow_ok, need_ok, exists_const] at h
  obtain ⟨-, s, hs, ⟨hstate, -⟩, node, hnode, ⟨hepoch, -⟩, ps, hps, hupdate⟩ := h
  obtain ⟨-, -, rfl⟩ := Db.updateSession_ok hupdate
  rw [Option.bind_eq_some_iff] at hnode
  obtain ⟨nodeId, hid, hnode⟩ := hnode
  exact ⟨s, _, hs, .authorized hstate ⟨nodeId, node, hid, hnode, hepoch.symm⟩ hps, rfl⟩

/-- A root's claim lets its session go on. -/
theorem claim_ok {nodeId : NodeId} {d : ClaimRequest} (h : claim t db nodeId d = .ok db') :
    LetGo env t db d.sessionId (.node nodeId (.claim d)) db' := by
  unfold claim at h
  simp only [Checked.bind_ok, parse_ok, needRow_ok, exists_const] at h
  obtain ⟨-, s, hs, h⟩ := h
  have hend : ∃ node ps, db.registry.nodes.find? nodeId = some node ∧
      (s.nodeId = some nodeId ∧ s.attemptId = some d.attemptId ∧ s.nodeEpoch = some d.epoch ∧
        s.prepareId = some d.prepareId ∧ s.state = .authorized ∧ node.epoch = d.epoch) ∧
      (s.routeId.isSome → currentParticipants t db s true = .ok () ∧
        ∀ p ∈ s.stages, p.claimedAt ≠ none) ∧
      ps = (if s.routeId.isSome then claimParticipant t nodeId s.participants
        else s.participants) ∧
      db.updateSession d.sessionId { s with
        state := .running, startedAt := some t.now, participants := ps } = .ok db' := by
    split at h
    · rename_i hroute
      simp only [Checked.bind_ok, need_ok, needRow_ok, exists_const] at h
      obtain ⟨_, hcurrent, hclaimed, node, hnode, ⟨hid, ha, he, hp, hstate, -, hepoch, -⟩,
        hupdate⟩ := h
      exact ⟨node, _, hnode, ⟨hid, ha, he, hp, hstate, hepoch⟩, fun _ => ⟨hcurrent, hclaimed⟩,
        (if_pos hroute).symm, hupdate⟩
    · rename_i hroute
      simp only [Checked.bind_ok, need_ok, needRow_ok, exists_const] at h
      obtain ⟨node, hnode, ⟨hid, ha, he, hp, hstate, -, hepoch, -⟩, hupdate⟩ := h
      exact ⟨node, _, hnode, ⟨hid, ha, he, hp, hstate, hepoch⟩, fun hsome => absurd hsome hroute,
        (if_neg hroute).symm, hupdate⟩
  obtain ⟨node, ps, hnode, ⟨hid, ha, he, hp, hstate, hepoch⟩, hroute, rfl, hupdate⟩ := hend
  obtain ⟨-, -, rfl⟩ := Db.updateSession_ok hupdate
  exact ⟨s, _, hs, .claimed rfl hstate ⟨hid, ha, he, hp⟩ hnode hepoch hroute, rfl⟩

/-- A stage's claim lets its session go on. -/
theorem stageClaim_ok {nodeId : NodeId} {d : ClaimRequest}
    (h : stageClaim t db nodeId d = .ok db') :
    LetGo env t db d.sessionId (.node nodeId (.stageClaim d)) db' := by
  unfold stageClaim at h
  simp only [Checked.bind_ok, parse_ok, needRow_ok, need_ok, Checked.pure_ok, exists_const] at h
  obtain ⟨-, s, hs, ⟨hroute, hstate, hid, -⟩, _, hcurrent, p, hp, hclaim, rfl⟩ := h
  exact ⟨s, _, hs, .stageClaimed rfl hroute hstate hid hcurrent hp hclaim, rfl⟩

/-! ### Receipts -/

/-- A session on a route is settled and ended. -/
theorem settleRoute_moves {reply : ReceiptReply} (hs : db.sessions.find? id = some s)
    (hroute : s.routeId.isSome) (hdue : s.overdue (t.date 0) = false)
    (hcharges : req.charges = true) (h : settleRoute env t db id s = .ok (reply, db')) :
    Moves env req t db db' := by
  unfold settleRoute at h
  split at h
  · simp only [Checked.bind_ok, Checked.pure_ok, Prod.mk.injEq] at h
    obtain ⟨db₁, hfinal, -, rfl⟩ := h
    exact release_moves hs hfinal
  rename_i hgoing
  rw [not_or] at hgoing
  split at h
  · simp only [Checked.pure_ok, Prod.mk.injEq] at h
    exact h.2 ▸ .refl db
  rename_i root hroot
  split at h
  · simp only [Checked.pure_ok, Prod.mk.injEq] at h
    exact h.2 ▸ .refl db
  rename_i hstages
  simp only [Checked.bind_ok, reference_ok, Checked.pure_ok, Prod.mk.injEq] at h
  obtain ⟨_, hcurrent, quote, hquote, charge, hcharge, db₁, hfinal, -, rfl⟩ := h
  have hnone : ¬ s.routeId = none := by
    intro hnone
    rw [hnone] at hroute
    cases hroute
  refine end_moves hs hfinal (fun _ => ⟨rfl, rfl, hgoing.1,
    ⟨quote, root, hquote, hroot, hcharge, fun hn => absurd hn hnone⟩, fun hn => absurd hn hnone,
    fun _ => ⟨by simpa using hgoing.2, fun p hp hpn => hstages ⟨p, hp, hpn⟩, hcurrent⟩⟩)
    fun _ => ⟨rfl, hdue, hcharges⟩

/-- A session that goes on, and what then happens to it. -/
theorem Updated.moves (h : Updated env t db id s req s') (hs : db.sessions.find? id = some s)
    (hnext : ({ db with sessions := db.sessions.set id s' } : Db).sessions.find? id = some s' →
      Moves env req tx { db with sessions := db.sessions.set id s' } db') : Moves env req tx db db' :=
  (Moves.single (.sessionUpdated hs h)).trans (hnext (Table.find?_set_self hs))

/-- A stage's new receipt is recorded, and ends its session where it is the last. -/
theorem newStageReceipt_moves {nodeId : NodeId} {p : SessionParticipant} {d : StageReceiptData}
    {reply : ReceiptReply} (hs : db.sessions.find? d.sessionId = some s)
    (hroute : s.routeId.isSome)
    (hid : s.attemptId = some d.attemptId ∧ s.routeSha256 = some d.routeSha256 ∧
      p.nodeEpoch = d.epoch)
    (hp : s.stages.find? (fun p => p.nodeId = nodeId) = some p) (hnone : p.receipt = none)
    (h : newStageReceipt env t db nodeId s p d = .ok (reply, db')) :
    Moves env (.node nodeId (.stageReceipt d)) t db db' := by
  unfold newStageReceipt at h
  split at h
  · simp only [Checked.pure_ok, Prod.mk.injEq] at h
    exact h.2 ▸ .refl db
  rename_i hlive
  split at h
  · simp only [Checked.bind_ok, Checked.pure_ok, Prod.mk.injEq] at h
    obtain ⟨db₁, hfinal, -, rfl⟩ := h
    exact release_moves hs hfinal
  rename_i hlate
  have hdue : s.overdue (t.date 0) = false := by simpa using hlate
  simp only [Checked.bind_ok, need_ok, exists_const] at h
  obtain ⟨⟨hclaimed, -⟩, _, hcurrent, h⟩ := h
  have hl : s.state.terminal = false := by simpa using hlive
  have hnext : Updated env t db d.sessionId s (.node nodeId (.stageReceipt d))
      (s.stageReported env nodeId d) :=
    .stageReported rfl hroute hl hid hp ⟨hnone, hclaimed⟩ hcurrent
  exact hnext.moves hs fun hs' => settleRoute_moves hs' hroute hdue rfl h

/-- A stage's receipt that was sent before changes nothing; a new one is recorded. -/
theorem stageReceipt_moves {nodeId : NodeId} {d : StageReceiptData} {reply : ReceiptReply}
    (h : stageReceipt env t db nodeId d = .ok (reply, db')) :
    Moves env (.node nodeId (.stageReceipt d)) t db db' := by
  unfold stageReceipt at h
  simp only [Checked.bind_ok, parse_ok, needRow_ok, need_ok, exists_const] at h
  obtain ⟨-, s, hs, p, hp, ⟨hroute, hid⟩, h⟩ := h
  split at h
  · simp only [Checked.bind_ok, need_ok, Checked.pure_ok, exists_const, Prod.mk.injEq] at h
    exact h.2.2 ▸ .refl db
  · rename_i hnone
    exact newStageReceipt_moves hs hroute hid hp hnone h

/-- Only a valid usage of a session that is not being cancelled is charged. -/
theorem charged_valid {quote : Quote} {d : ReceiptData} {charge : Int}
    (h : (if validUsage quote d = true ∧ s.state ≠ .cancelling then
      chargeFor quote.manifest d.promptTokens d.completionTokens else pure 0) = .ok charge)
    (hpos : 0 < charge) : (validUsage quote d = true ∧ s.state ≠ .cancelling) ∧
      chargeFor quote.manifest d.promptTokens d.completionTokens = .ok charge := by
  by_cases hvalid : validUsage quote d = true ∧ s.state ≠ .cancelling
  · rw [if_pos hvalid] at h
    exact ⟨hvalid, h⟩
  · rw [if_neg hvalid, Checked.pure_ok] at h
    exact absurd h hpos.ne

/-- A valid usage is of a session that completed. -/
theorem validUsage_completed {quote : Quote} {d : ReceiptData} (h : validUsage quote d = true) :
    d.state = .completed := by
  simp only [validUsage, Bool.decide_and, Bool.and_eq_true, decide_eq_true_eq] at h
  exact h.1

/-- A charged session completed. -/
theorem reportedEnd_completed {quote : Quote} {d : ReceiptData}
    (h : validUsage quote d = true ∧ s.state ≠ .cancelling) :
    (reportedEnd s (validUsage quote d) d).1 = .completed := by
  unfold reportedEnd
  rw [if_neg h.2, if_neg fun hinvalid => hinvalid.2 h.1]
  exact validUsage_completed h.1

/-- A root's new receipt is recorded, and ends its session where nothing is missing.

**Proof sketch.** A session that is over stays, and one that is overdue is released. Otherwise the
receipt is recorded. A valid one on a route is settled with those of the stages; any other ends the
session at once, with a charge only when it is valid, complete and of a session without a route. -/
theorem newReceipt_moves {nodeId : NodeId} {d : ReceiptData} {reply : ReceiptReply}
    (hs : db.sessions.find? d.sessionId = some s) (hnone : s.receipt = none)
    (hid : s.nodeId = some nodeId ∧ s.attemptId = some d.attemptId ∧ s.nodeEpoch = some d.epoch)
    (h : newReceipt env t db nodeId s d = .ok (reply, db')) :
    Moves env (.node nodeId (.receipt d)) t db db' := by
  unfold newReceipt at h
  split at h
  · simp only [Checked.pure_ok, Prod.mk.injEq] at h
    exact h.2 ▸ .refl db
  rename_i hlive
  split at h
  · simp only [Checked.bind_ok, Checked.pure_ok, Prod.mk.injEq] at h
    obtain ⟨db₁, hfinal, -, rfl⟩ := h
    exact release_moves hs hfinal
  rename_i hlate
  have hdue : s.overdue (t.date 0) = false := by simpa using hlate
  simp only [Checked.ite_bind, Checked.bind_ok, need_ok, needRow_ok, reference_ok,
    exists_const] at h
  obtain ⟨hstate, node, hnode, ⟨hepoch, -⟩, quote, hquote, charge, hcharge, db₁, hupdate, h⟩ := h
  have hl : s.state.terminal = false := by simpa using hlive
  obtain ⟨-, -, rfl⟩ := Db.updateSession_ok hupdate
  split at h
  · rename_i hgoing
    have hnext : Updated env t db d.sessionId s (.node nodeId (.receipt d)) (s.reported env d) :=
      .reported rfl hgoing.1 (hstate.resolve_right hgoing.2.2) hnone hid hnode hepoch hquote
        hgoing.2.1
    exact hnext.moves hs fun hs' => settleRoute_moves hs' hgoing.1 hdue rfl h
  · rename_i hends
    simp only [Checked.bind_ok, Checked.pure_ok, Prod.mk.injEq] at h
    obtain ⟨db₂, hfinal, -, rfl⟩ := h
    refine finalize_moves hs (.root d hstate hnone hid) rfl (fun w => Table.set_set _ _ _ w) hl
      hfinal (by split <;> simp) (fun hpos => ?_) fun _ => ⟨rfl, hdue, rfl⟩
    obtain ⟨hvalid, hprice⟩ := charged_valid hcharge hpos
    have hsingle : s.routeId = none := by
      by_contra hroute
      exact hends ⟨Option.isSome_iff_ne_none.2 hroute, hvalid⟩
    refine ⟨reportedEnd_completed (s := s.reported env d) hvalid, ?_, hvalid.2,
      ⟨quote, _, hquote, rfl, hprice, fun _ => hvalid.1⟩, fun _ => ⟨nodeId, node, hid.1, hnode, ?_⟩,
      fun hroute => ?_⟩
    · simp [hvalid.1]
    · rw [hepoch]
      exact hid.2.2
    · have hroute : s.routeId.isSome := hroute
      rw [hsingle] at hroute
      cases hroute

/-- A root's receipt that was sent before changes nothing; a new one is recorded. -/
theorem receipt_moves {nodeId : NodeId} {d : ReceiptData} {reply : ReceiptReply}
    (h : receipt env t db nodeId d = .ok (reply, db')) :
    Moves env (.node nodeId (.receipt d)) t db db' := by
  unfold receipt at h
  simp only [Checked.bind_ok, parse_ok, needRow_ok, need_ok, exists_const] at h
  obtain ⟨-, s, hs, hid, h⟩ := h
  split at h
  · simp only [Checked.bind_ok, need_ok, Checked.pure_ok, exists_const, Prod.mk.injEq] at h
    exact h.2.2 ▸ .refl db
  · rename_i hnone
    exact newReceipt_moves hs hnone hid h

/-! ### Cancellation, failure and the reaper -/

/-- A cancelled session is ended, or marked. -/
theorem cancel_moves {user : Actor} {state : SessionState}
    (h : cancel env t db user id = .ok (state, db')) :
    Moves env (.user user (.cancel id)) tx db db' := by
  unfold cancel at h
  simp only [Checked.bind_ok, needRow_ok, need_ok, exists_const] at h
  obtain ⟨s, hs, -, h⟩ := h
  split at h
  · simp only [Checked.pure_ok, Prod.mk.injEq] at h
    exact h.2 ▸ .refl db
  rename_i hlive
  split at h
  · rename_i hrun
    simp only [Checked.bind_ok, Checked.pure_ok, Prod.mk.injEq] at h
    obtain ⟨db₁, hupdate, -, rfl⟩ := h
    obtain ⟨-, -, rfl⟩ := Db.updateSession_ok hupdate
    exact .single (.sessionUpdated hs (t := t) (.cancelling hrun))
  · simp only [Checked.bind_ok, Checked.pure_ok, Prod.mk.injEq] at h
    obtain ⟨db₁, hfinal, -, rfl⟩ := h
    exact release_moves hs hfinal

/-- A failed session is ended where it did not run yet. -/
theorem fail_moves {code : String} (h : fail env t db id code = .ok db') :
    Moves env req tx db db' := by
  unfold fail at h
  simp only [Checked.bind_ok, needRow_ok] at h
  obtain ⟨s, hs, h⟩ := h
  split at h
  · exact release_moves hs h
  · simp only [Checked.pure_ok] at h
    exact h ▸ .refl db

/-- The sessions that are overdue are ended one by one. -/
theorem reap_moves {locked : List SessionId} (h : reap env t db locked = .ok db') :
    Moves env req tx db db' := by
  unfold reap at h
  refine Checked.foldlM_invariant (P := fun db' => Moves env req tx db db') h (.refl db) ?_
  intro db₁ x db₂ _ ih hx
  unfold reapSession at hx
  simp only [Checked.bind_ok, reference_ok] at hx
  obtain ⟨s, hs, hx⟩ := hx
  exact ih.trans (release_moves hs hx)

end NetworkAi
