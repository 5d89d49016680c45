import NetworkAi.Invariants.Receipts

set_option relaxedAutoImplicit false
set_option autoImplicit false

/-!
# Receipts in any order

The root and the stages of a route report independently, and repeat their reports until they are
answered. The order in which the coordinator hears them, and how often, decides neither the charge
nor any payment or balance.

## Main definitions

* `NetworkAi.RouteReports` — what every party of a route reports.
* `NetworkAi.RouteReports.charge` — the charge that the reports amount to.
* `NetworkAi.Collecting`, `NetworkAi.EndedWith` — a session that collects receipts, and one that
  has ended.

## Main results

* `NetworkAi.Collecting.deliver` — where a run of deliveries leaves the session.
* `NetworkAi.receipt_confluence` — deliveries in any two orders end alike.
-/

namespace NetworkAi

open Relational

variable {env : Env} {req : Request} {tx t : Tx} {db₀ db db' : Db} {id : SessionId}
  {s₀ s s' : Session} {q : Quote}

/-! ### Reports and deliveries -/

/-- What each party of a route reports. -/
structure RouteReports where
  root : ReceiptData
  stage : NodeId → StageReceiptData

/-- A party of a route: its root or a stage, on a node. -/
inductive RouteParty where
  | root (nodeId : NodeId)
  | stage (nodeId : NodeId)
  deriving DecidableEq

/-- The request that delivers the report of a party. -/
def RouteReports.request (w : RouteReports) : RouteParty → Request
  | .root nodeId => .node nodeId (.receipt w.root)
  | .stage nodeId => .node nodeId (.stageReceipt (w.stage nodeId))

/-- The reports are about a session. -/
structure RouteReports.About (w : RouteReports) (id : SessionId) : Prop where
  root : w.root.sessionId = id
  stage : ∀ nodeId, (w.stage nodeId).sessionId = id

/-- The parties of a session. -/
def Session.party (s : Session) : RouteParty → Prop
  | .root nodeId => s.nodeId = some nodeId
  | .stage nodeId => ∃ p ∈ s.stages, p.nodeId = nodeId

/-- The database after some deliveries. -/
def RouteReports.deliver (w : RouteReports) (env : Env) (db : Db) (ds : List (Tx × RouteParty)) :
    Db :=
  (controlSystem env).run db (ds.map fun d => (d.1, w.request d.2))

/-- A party was answered: one of its deliveries was not refused. -/
def RouteReports.Answered (w : RouteReports) (env : Env) (x : RouteParty) :
    Db → List (Tx × RouteParty) → Prop
  | _, [] => False
  | db, d :: ds => (d.2 = x ∧ ∃ db', transaction env d.1 db (w.request x) = .ok db') ∨
      w.Answered env x (w.deliver env db [d]) ds

/-- The deliveries come before the deadline of a session. -/
def Session.Timely (s : Session) (ds : List (Tx × RouteParty)) : Prop :=
  ∀ d ∈ ds, s.overdue (d.1.date 0) = false

/-! ### What the reports amount to -/

/-- The reports show work that can be paid: the root completed with a valid usage, and every stage
with a command and bytes in both directions. -/
def RouteReports.Payable (w : RouteReports) (q : Quote) (s : Session) : Prop :=
  validUsage q w.root = true ∧ ∀ p ∈ s.stages, (w.stage p.nodeId).complete = true

instance (w : RouteReports) (q : Quote) (s : Session) : Decidable (w.Payable q s) :=
  inferInstanceAs (Decidable (_ ∧ _))

/-- The charge that the reports amount to. -/
def RouteReports.charge (w : RouteReports) (q : Quote) (s : Session) : Int :=
  if w.Payable q s then
    (chargeFor q.manifest w.root.promptTokens w.root.completionTokens).toOption.getD 0
  else 0

/-- The participants of a session, paid for a charge. -/
def Session.payout (s : Session) (charge : Int) : List SessionParticipant :=
  if 0 < charge then
    payParticipants s.participants ((splitByBps (charge - charge * 2000 / 10000)
      (s.participants.map (·.shareBps))).toOption.getD [])
  else s.participants

/-- What the participants of a session are paid. -/
def Session.paidOut (s : Session) : List (NodeId × Int) :=
  s.participants.map fun p => (p.nodeId, p.paid)

/-- The entries of the end of a session on a route. -/
def Session.endEntries (s : Session) (charge : Int) : List (AccountId × Int) :=
  holdEntries s charge ++
    if 0 < charge then
      (s.payout charge).map (fun p => (.available p.providerId, p.paid)) ++
        [(.labWorking, charge * 2000 / 10000)]
    else []

/-! ### A session that collects receipts -/

/-- A participant without its receipt. -/
def SessionParticipant.bare (p : SessionParticipant) : SessionParticipant :=
  { p with receipt := none }

/-- A session that differs from another one by receipts alone. -/
structure Session.Collects (s₀ s : Session) : Prop where
  row : s = { s₀ with
    receipt := s.receipt, promptTokens := s.promptTokens, completionTokens := s.completionTokens
    elapsedMs := s.elapsedMs, participants := s.participants }
  participants : s.participants.map (·.bare) = s₀.participants.map (·.bare)

/-- A session collects nothing from itself. -/
theorem Session.Collects.refl (s : Session) : s.Collects s := ⟨rfl, rfl⟩

/-- A session that collects receipts still runs. -/
theorem Session.Collects.running (h : s₀.Collects s) (hrun : s₀.state = .running) :
    s.state = .running := by
  rw [h.row]
  exact hrun

/-- What does not read the receipts of participants is the same of both. -/
theorem Session.Collects.map (h : s₀.Collects s) {α : Type} {f : SessionParticipant → α}
    (hf : ∀ p : SessionParticipant, f p.bare = f p) :
    s.participants.map f = s₀.participants.map f := by
  have hbare : ∀ ps : List SessionParticipant, ps.map f = (ps.map (·.bare)).map f := by
    intro ps
    rw [List.map_map]
    exact List.map_congr_left fun p _ => (hf p).symm
  rw [hbare, h.participants, ← hbare]

/-- Payments come to the same with and without the receipts. -/
theorem payParticipants_bare (ps : List SessionParticipant) (payments : List Int) :
    (payParticipants ps payments).map (·.bare) = payParticipants (ps.map (·.bare)) payments := by
  induction ps generalizing payments with
  | nil => rfl
  | cons p ps ih =>
    cases payments with
    | nil => rfl
    | cons n payments =>
      have := ih payments
      simp only [payParticipants] at this
      simp only [payParticipants, List.zipWith_cons_cons, List.map_cons, this]
      rfl

/-- The payments are those of the session without the receipts. -/
theorem Session.Collects.payout (h : s₀.Collects s) (charge : Int) :
    (s.payout charge).map (·.bare) = (s₀.payout charge).map (·.bare) := by
  have hshares : s.participants.map (·.shareBps) = s₀.participants.map (·.shareBps) :=
    h.map fun _ => rfl
  unfold Session.payout
  split
  · rw [payParticipants_bare, payParticipants_bare, h.participants, hshares]
  · exact h.participants

/-- What a session pays out does not depend on its receipts. -/
theorem map_payout (h : s₀.Collects s) (charge : Int) {α : Type} {f : SessionParticipant → α}
    (hf : ∀ p : SessionParticipant, f p.bare = f p) :
    (s.payout charge).map f = (s₀.payout charge).map f := by
  have hbare : ∀ ps : List SessionParticipant, ps.map f = (ps.map (·.bare)).map f := by
    intro ps
    rw [List.map_map]
    exact List.map_congr_left fun p _ => (hf p).symm
  rw [hbare, h.payout charge, ← hbare]

/-- The entries of the end do not depend on the receipts. -/
theorem Session.Collects.endEntries (h : s₀.Collects s) (charge : Int) :
    s.endEntries charge = s₀.endEntries charge := by
  have hhold : holdEntries s charge = holdEntries s₀ charge := by
    rw [h.row]
    rfl
  unfold Session.endEntries
  rw [hhold, map_payout h charge fun _ => rfl]

/-- The stages of both are on the same nodes. -/
theorem Session.Collects.stages (h : s₀.Collects s) :
    s.stages.map (·.nodeId) = s₀.stages.map (·.nodeId) := by
  have hstages : ∀ s : Session, s.stages.map (·.nodeId) =
      (((s.participants.map (·.bare)).filter fun p => p.role = .stage)).map (·.nodeId) := by
    intro s
    rw [List.filter_map, List.map_map]
    rfl
  rw [hstages, h.participants, ← hstages]

/-- The session has heard of a party. -/
def Session.Heard (s : Session) : RouteParty → Prop
  | .root _ => s.receipt ≠ none
  | .stage nodeId => ∃ p ∈ s.stages, p.nodeId = nodeId ∧ p.receipt ≠ none

/-! ### Two kinds of states -/

/-- The receipts of a session are those of the reports. -/
structure Gathered (w : RouteReports) (q : Quote) (s₀ s : Session) : Prop where
  collects : s₀.Collects s
  root : ∀ r ∈ s.receipt, r.payload = w.root ∧ validUsage q w.root = true
  stages : ∀ p ∈ s.stages, ∀ r ∈ p.receipt, r.payload = w.stage p.nodeId

/-- A running session on a route, without a pool, whose charge was not posted. -/
structure RunningOnRoute (db₀ : Db) (id : SessionId) (s₀ : Session) : Prop where
  route : s₀.routeId.isSome
  pool : s₀.cooperativePoolId = none
  running : s₀.state = .running
  fresh : db₀.books.findKey (.settle id) = none

/-- The session still collects receipts of the parties; nothing was posted. -/
structure Collecting (w : RouteReports) (q : Quote) (db₀ : Db) (id : SessionId) (s₀ : Session)
    (db : Db) (s : Session) : Prop where
  books : db.books = db₀.books
  quote : db.quotes.find? s₀.quoteId = some q
  found : db.sessions.find? id = some s
  gathered : Gathered w q s₀ s
  waits : s.Waits

/-- The session has ended with a charge. -/
structure EndedWith (db₀ : Db) (id : SessionId) (s₀ : Session) (charge : Int) (db : Db) : Prop where
  row : ∃ s, db.sessions.find? id = some s ∧ s.state.terminal = true ∧ s.charged = charge ∧
    s.paidOut = (s₀.payout charge).map fun p => (p.nodeId, p.paid)
  balance : ∀ a, db.books.balance a =
    db₀.books.balance a + Ledger.entrySum a (s₀.endEntries charge)

/-- The division of a charge of a session on a route. -/
theorem Split.of_route {charge : Int} {payees : List (AccountId × Int)}
    {settlements : Table SessionId Settlement} (hroute : s.routeId.isSome)
    (hpool : s.cooperativePoolId = none) (hnonneg : 0 ≤ charge)
    (h : Split db id s charge payees s' settlements) :
    holdEntries s charge ++ payees = s.endEntries charge ∧
      s'.participants = s.payout charge := by
  cases h with
  | free hfree =>
    have hzero : ¬ 0 < charge := by omega
    simp [Session.endEntries, Session.payout, hzero]
  | recycled _ hsome =>
    rw [hpool] at hsome
    cases hsome
  | route hpos _ _ hpay =>
    simp [Session.endEntries, Session.payout, hpos, hpay, Except.toOption]
  | node _ _ hnone =>
    rw [hnone] at hroute
    cases hroute

/-- The end of a session that collected receipts.

**Proof sketch.** The session is live, on a route and without a pool, so that its charge is divided
among its participants by their shares, which receipts do not change. Its key was new, as the books
are those from the start, and so the balances move by the entries. -/
theorem finalize_endedWith {state : ReceiptState} {charge : Int}
    {error : Option String} {billing : Option BillingState} (hu : RunningOnRoute db₀ id s₀)
    (hcollects : s₀.Collects s) (hbooks : db.books = db₀.books)
    (hfound : (db.sessions.find? id).isSome)
    (h : finalize env t db id s state charge error billing = .ok db') :
    EndedWith db₀ id s₀ charge db' := by
  have hlive' : s.state.terminal = false := by
    rw [hcollects.running hu.running]
    rfl
  have hroute' : s.routeId.isSome := by
    rw [hcollects.row]
    exact hu.route
  have hpool' : s.cooperativePoolId = none := by
    rw [hcollects.row]
    exact hu.pool
  unfold finalize at h
  rw [if_neg (by simp [hlive'])] at h
  simp only [Checked.ite_bind, Checked.bind_ok, need_ok, exists_const, Prod.exists] at h
  obtain ⟨⟨hnonneg, hle⟩, entries, s', db₁, hparts, j, db₂, hpost, hupdate⟩ := h
  obtain ⟨settlements, hsplit, rfl, -⟩ := splitCharge_ok hparts
  obtain ⟨books, hb, rfl⟩ := Db.postIf_ok hpost
  obtain ⟨-, -, rfl⟩ := Db.updateSession_ok hupdate
  obtain ⟨huser, hhold⟩ := hsplit.keeps
  have hentries : holdEntries s' charge = holdEntries s charge := by
    simp only [holdEntries, huser, hhold]
  obtain ⟨hend, hpaid⟩ := hsplit.of_route hroute' hpool' hnonneg
  rw [hentries, hend, hcollects.endEntries] at hb
  obtain ⟨row, hrow⟩ := Option.isSome_iff_exists.1 hfound
  refine ⟨⟨_, Table.find?_set_self hrow, by cases state <;> rfl, rfl, ?_⟩, fun a => ?_⟩
  · show s'.paidOut = _
    rw [Session.paidOut, hpaid]
    exact map_payout hcollects charge fun _ => rfl
  · have hbalance := hb.balance_of_fresh (a := a) (by rw [hbooks]; exact hu.fresh) fun hzero => ?_
    · rw [hbalance, hbooks]
    · have hzero : charge = 0 ∧ s₀.hold = 0 := by
        have hsame : s.hold = s₀.hold := by rw [hcollects.row]
        omega
      simp [Session.endEntries, holdEntries, hzero, Ledger.entrySum_cons]

/-! ### One delivery -/

variable {w : RouteReports}

/-- A stage that failed makes the reports unpayable. -/
theorem Gathered.not_payable (hg : Gathered w q s₀ s) (hfailed : s.stageFailed = true) :
    ¬ w.Payable q s₀ := by
  rintro ⟨-, hcomplete⟩
  have hall : s.stageFailed = false := by
    refine Session.stageFailed_eq_false.2 fun p hp hrole r hr => ?_
    have hstage : p ∈ s.stages := List.mem_filter.2 ⟨hp, by simpa using hrole⟩
    have hnode : p.nodeId ∈ s₀.stages.map (·.nodeId) := by
      rw [← hg.collects.stages]
      exact List.mem_map_of_mem hstage
    obtain ⟨p₀, hp₀, hsame⟩ := List.mem_map.1 hnode
    rw [hg.stages p hstage r hr, ← hsame]
    exact hcomplete p₀ hp₀
  rw [hall] at hfailed
  cases hfailed

/-- A session that has all receipts, none of a failed stage, makes the reports payable. -/
theorem Gathered.payable (hg : Gathered w q s₀ s) (hsound : s.stageFailed = false)
    {root : RootReceipt} (hroot : s.receipt = some root)
    (hstages : ∀ p ∈ s.stages, p.receipt ≠ none) :
    root.payload = w.root ∧ w.Payable q s₀ := by
  obtain ⟨hpayload, hvalid⟩ := hg.root root hroot
  refine ⟨hpayload, hvalid, fun p₀ hp₀ => ?_⟩
  have hnode : p₀.nodeId ∈ s.stages.map (·.nodeId) := by
    rw [hg.collects.stages]
    exact List.mem_map_of_mem hp₀
  obtain ⟨p, hp, hsame⟩ := List.mem_map.1 hnode
  obtain ⟨r, hr⟩ := Option.ne_none_iff_exists'.1 (hstages p hp)
  have hmem := List.mem_filter.1 hp
  rw [← hsame, ← hg.stages p hp r hr]
  exact Session.stageFailed_eq_false.1 hsound p hmem.1 (by simpa using hmem.2) r hr

/-- A session that has gathered one more receipt goes on to collect, or ends with the charge.

**Proof sketch.** By what the settlement did. A session that waits goes on to collect. One with a
stage that failed is not payable, and ends without a charge. One with all receipts ends with the
charge of the root's usage, which is that of the reports. -/
theorem Gathered.settled (hg : Gathered w q s₀ s') (hu : RunningOnRoute db₀ id s₀)
    (hbooks : db.books = db₀.books)
    (hquote : db.quotes.find? s₀.quoteId = some q) (hfound : db.sessions.find? id = some s)
    (h : RouteSettles env t { db with sessions := db.sessions.set id s' } id s' db') :
    Collecting w q db₀ id s₀ db' s' ∨ EndedWith db₀ id s₀ (w.charge q s₀) db' := by
  have hset : (db.sessions.set id s').find? id = some s' := Table.find?_set_self hfound
  have hsome : ((db.sessions.set id s').find? id).isSome := by
    rw [hset]
    rfl
  cases h with
  | waits _ hwaits hdb =>
    subst hdb
    exact .inl ⟨hbooks, hquote, hset, hg, hwaits⟩
  | refused hends hend =>
    have hfailed : s'.stageFailed = true := by
      rcases hends with hends | hends
      · rw [hg.collects.running hu.running] at hends
        cases hends
      · exact hends
    have hzero : w.charge q s₀ = 0 := if_neg (hg.not_payable hfailed)
    rw [hzero]
    refine .inr (finalize_endedWith hu hg.collects ?_ ?_ hend)
    · exact hbooks
    · exact hsome
  | @charged root quote charge _ hsound hroot hstages hquote' hcharge hend =>
    have hsame : s'.quoteId = s₀.quoteId := by rw [hg.collects.row]
    have hq : quote = q := by
      have hquote' : db.quotes.find? s'.quoteId = some quote := hquote'
      rw [hsame, hquote, Option.some.injEq] at hquote'
      exact hquote'.symm
    obtain ⟨hpayload, hpayable⟩ := hg.payable hsound hroot hstages
    have hvalue : w.charge q s₀ = charge := by
      rw [RouteReports.charge, if_pos hpayable, ← hpayload, ← hq, hcharge]
      rfl
    rw [hvalue]
    refine .inr (finalize_endedWith hu hg.collects ?_ ?_ hend)
    · exact hbooks
    · exact hsome

/-- A session that writes receipts alone still collects. -/
theorem Session.Collects.of_receipts (h : s₀.Collects s)
    (hrow : s' = { s with
      receipt := s'.receipt, promptTokens := s'.promptTokens
      completionTokens := s'.completionTokens, elapsedMs := s'.elapsedMs
      participants := s'.participants })
    (hbare : s'.participants.map (·.bare) = s.participants.map (·.bare)) : s₀.Collects s' := by
  refine ⟨?_, hbare.trans h.participants⟩
  rw [hrow, h.row]

/-- A recorded receipt is the only thing that changes. -/
theorem recordStage_bare (nodeId : NodeId) (r : StageReceipt) (ps : List SessionParticipant) :
    (recordStage nodeId r ps).map (·.bare) = ps.map (·.bare) := by
  rw [recordStage, List.map_map]
  refine List.map_congr_left fun p _ => ?_
  simp only [Function.comp_apply]
  split <;> rfl

/-- The stages of a session with the receipt of one of them. -/
theorem Session.stageReported_stages (s : Session) (env : Env) (nodeId : NodeId)
    (d : StageReceiptData) :
    (s.stageReported env nodeId d).stages =
      recordStage nodeId { digest := env.digest d.toJs, payload := d } s.stages := by
  simp only [Session.stages, Session.stageReported, recordStage, List.filter_map]
  refine congrArg _ (List.filter_congr fun p _ => ?_)
  simp only [Function.comp_apply]
  split <;> rfl

/-- What the session has heard of, it remembers. -/
theorem Session.Heard.stageReported {y : RouteParty} (h : s.Heard y) (env : Env) (nodeId : NodeId)
    (d : StageReceiptData) : (s.stageReported env nodeId d).Heard y := by
  cases y with
  | root n => exact h
  | stage n =>
    obtain ⟨p, hp, hnode, hsome⟩ := h
    rw [Session.Heard, Session.stageReported_stages, recordStage]
    refine ⟨_, List.mem_map_of_mem hp, ?_⟩
    split
    · exact ⟨hnode, Option.some_ne_none _⟩
    · exact ⟨hnode, hsome⟩

/-- A root's receipt leaves what the session has heard. -/
theorem Session.Heard.reported {y : RouteParty} (h : s.Heard y) (env : Env) (d : ReceiptData) :
    (s.reported env d).Heard y := by
  cases y with
  | root n => exact Option.some_ne_none _
  | stage n => exact h

/-- A stage's receipt is heard. -/
theorem Session.heard_stageReported {p : SessionParticipant} {nodeId : NodeId}
    {d : StageReceiptData} (hp : p ∈ s.stages) (hnode : p.nodeId = nodeId) :
    (s.stageReported env nodeId d).Heard (.stage nodeId) := by
  rw [Session.Heard, Session.stageReported_stages, recordStage]
  refine ⟨_, List.mem_map_of_mem hp, ?_⟩
  rw [if_pos hnode]
  exact ⟨hnode, Option.some_ne_none _⟩

/-- The receipt of a stage is one of the reports. -/
theorem Gathered.stageReported (hg : Gathered w q s₀ s) (env : Env) (nodeId : NodeId) :
    Gathered w q s₀ (s.stageReported env nodeId (w.stage nodeId)) where
  collects := hg.collects.of_receipts rfl (recordStage_bare ..)
  root := hg.root
  stages p hp r hr := by
    rw [Session.stageReported_stages, recordStage] at hp
    obtain ⟨p₀, hp₀, rfl⟩ := List.mem_map.1 hp
    by_cases hnode : p₀.nodeId = nodeId
    · simp only [hnode, if_true] at hr ⊢
      obtain rfl := Option.some.inj hr
      rfl
    · simp only [hnode, if_false] at hr ⊢
      exact hg.stages p₀ hp₀ r hr

/-- The receipt of the root is one of the reports. -/
theorem Gathered.reported (hg : Gathered w q s₀ s) (env : Env)
    (hvalid : validUsage q w.root = true) : Gathered w q s₀ (s.reported env w.root) where
  collects := hg.collects.of_receipts rfl rfl
  root r hr := by
    obtain rfl := Option.some.inj hr
    exact ⟨rfl, hvalid⟩
  stages := hg.stages

/-- A report that is taken is recorded: the session goes on to collect, having heard of one party
more, or ends with the charge.

**Proof sketch.** By the party. A stage's receipt is recorded. So is the root's, when it is valid;
when it is not, the session ends at once, and the reports are not payable either. -/
theorem Collecting.taken {nodeId : NodeId} {x : RouteParty} {r : NodeRequest}
    (hc : Collecting w q db₀ id s₀ db s) (hu : RunningOnRoute db₀ id s₀)
    (hx : w.request x = .node nodeId r)
    (h : ReceiptTaken env t db nodeId id s r db') :
    (∃ s', Collecting w q db₀ id s₀ db' s' ∧ (∀ y, s.Heard y → s'.Heard y) ∧
      (s₀.party x → s'.Heard x)) ∨ EndedWith db₀ id s₀ (w.charge q s₀) db' := by
  have hg := hc.gathered
  cases x with
  | stage n =>
    obtain ⟨rfl, rfl⟩ : n = nodeId ∧ .stageReceipt (w.stage n) = r := by
      simpa [RouteReports.request] using hx
    cases h with
    | stage hlive hsettled =>
      refine ((hg.stageReported env n).settled hu hc.books hc.quote hc.found hsettled).imp_left
        fun hnext => ⟨_, hnext, fun y hy => ?_, fun hparty => ?_⟩
      · exact hy.stageReported env n _
      · obtain ⟨p₀, hp₀, hnode⟩ := hparty
        have hmem : n ∈ s.stages.map (·.nodeId) := by
          rw [hg.collects.stages, ← hnode]
          exact List.mem_map_of_mem hp₀
        obtain ⟨p, hp, hsame⟩ := List.mem_map.1 hmem
        exact Session.heard_stageReported hp hsame
  | root n =>
    obtain ⟨rfl, rfl⟩ : n = nodeId ∧ .receipt w.root = r := by
      simpa [RouteReports.request] using hx
    have hquoteId : s.quoteId = s₀.quoteId := by rw [hg.collects.row]
    cases h with
    | root hstate hquote hvalid hr hsettled =>
      rw [hquoteId, hc.quote, Option.some.injEq] at hquote
      subst hquote
      refine ((hg.reported env hvalid).settled hu hc.books hc.quote hc.found hsettled).imp_left
        fun hnext => ⟨_, hnext, fun y hy => ?_, fun _ => ?_⟩
      · exact hy.reported env _
      · exact Option.some_ne_none _
    | ended hstate hquote hends hcharge hend =>
      rw [hquoteId, hc.quote, Option.some.injEq] at hquote
      subst hquote
      have hroute' : s.routeId.isSome := by
        rw [hg.collects.row]
        exact hu.route
      have hinvalid : validUsage q w.root ≠ true := fun hvalid => hends
        ⟨hroute', hvalid, by rw [hg.collects.running hu.running]; exact nofun⟩
      have hzero : w.charge q s₀ = 0 := if_neg fun hpayable => hinvalid hpayable.1
      rw [hcharge fun hv => hinvalid hv.1] at hend
      rw [hzero]
      have hcollects : s₀.Collects (s.reported env w.root) := hg.collects.of_receipts rfl rfl
      refine .inr (finalize_endedWith hu hcollects ?_ ?_ hend)
      · exact hc.books
      · show ((db.sessions.set id _).find? id).isSome
        rw [Table.find?_set_self hc.found]
        rfl

/-- The session of a report. -/
theorem RouteReports.About.session (h : w.About id) {x : RouteParty} {nodeId : NodeId}
    {r : NodeRequest} (hx : w.request x = .node nodeId r) :
    Request.reports (.node nodeId r) = true ∧ r.session = some id := by
  cases x with
  | root n =>
    obtain ⟨rfl, rfl⟩ : n = nodeId ∧ .receipt w.root = r := by
      simpa [RouteReports.request] using hx
    exact ⟨rfl, congrArg some h.root⟩
  | stage n =>
    obtain ⟨rfl, rfl⟩ : n = nodeId ∧ .stageReceipt (w.stage n) = r := by
      simpa [RouteReports.request] using hx
    exact ⟨rfl, congrArg some (h.stage n)⟩

/-- A report that is known was heard. -/
theorem Session.Reported.heard {x : RouteParty} {nodeId : NodeId} {r : NodeRequest}
    (h : s.Reported nodeId r) (hx : w.request x = .node nodeId r) : s.Heard x := by
  cases x with
  | root n =>
    obtain ⟨rfl, rfl⟩ : n = nodeId ∧ .receipt w.root = r := by
      simpa [RouteReports.request] using hx
    exact h
  | stage n =>
    obtain ⟨rfl, rfl⟩ : n = nodeId ∧ .stageReceipt (w.stage n) = r := by
      simpa [RouteReports.request] using hx
    obtain ⟨p, hp, hsome⟩ := h
    exact ⟨p, List.mem_of_find?_eq_some hp, by simpa using List.find?_some hp, hsome⟩

/-- What one delivery does to a session that collects. -/
theorem Collecting.step (hc : Collecting w q db₀ id s₀ db s) (hu : RunningOnRoute db₀ id s₀)
    (habout : w.About id) {x : RouteParty} (hdue : s₀.overdue (tx.date 0) = false)
    (h : transaction env tx db (w.request x) = .ok db') :
    (∃ s', Collecting w q db₀ id s₀ db' s' ∧ (∀ y, s.Heard y → s'.Heard y) ∧
      (s₀.party x → s'.Heard x)) ∨ EndedWith db₀ id s₀ (w.charge q s₀) db' := by
  obtain ⟨nodeId, r, hx⟩ : ∃ nodeId r, w.request x = .node nodeId r := by
    cases x <;> exact ⟨_, _, rfl⟩
  obtain ⟨hreports, hsession⟩ := habout.session hx
  rw [hx] at h
  obtain ⟨id', s', hid, hs', hhandled⟩ := transaction_receipt hreports h
  obtain rfl : id = id' := Option.some.inj (hsession.symm.trans hid)
  obtain rfl : s = s' := Option.some.inj (hc.found.symm.trans hs')
  have hrunning := hc.gathered.collects.running hu.running
  cases hhandled with
  | known hknown hdb =>
    subst hdb
    exact .inl ⟨s, hc, fun _ hy => hy, fun _ => hknown.heard hx⟩
  | late hterminal =>
    rw [hrunning] at hterminal
    cases hterminal
  | expired _ hlate =>
    have hsame : s.overdue (tx.date 0) = s₀.overdue (tx.date 0) := by
      rw [hc.gathered.collects.row]
      rfl
    rw [hsame, hdue] at hlate
    cases hlate
  | taken _ _ htaken => exact hc.taken hu hx htaken

/-- A session that has ended is left alone by further deliveries. -/
theorem EndedWith.step {charge : Int} (h : EndedWith db₀ id s₀ charge db) (habout : w.About id)
    {x : RouteParty} (hok : transaction env tx db (w.request x) = .ok db') : db' = db := by
  obtain ⟨nodeId, r, hx⟩ : ∃ nodeId r, w.request x = .node nodeId r := by
    cases x <;> exact ⟨_, _, rfl⟩
  obtain ⟨hreports, hsession⟩ := habout.session hx
  rw [hx] at hok
  obtain ⟨id', s', hid, hs', hhandled⟩ := transaction_receipt hreports hok
  obtain rfl : id = id' := Option.some.inj (hsession.symm.trans hid)
  obtain ⟨s, hs, hterminal, -⟩ := h.row
  obtain rfl : s = s' := Option.some.inj (hs.symm.trans hs')
  cases hhandled with
  | known _ hdb => exact hdb
  | late _ hdb => exact hdb
  | expired hlive =>
    rw [hterminal] at hlive
    cases hlive
  | taken hlive =>
    rw [hterminal] at hlive
    cases hlive

/-! ### All deliveries -/

/-- Nothing is delivered. -/
@[simp] theorem RouteReports.deliver_nil (w : RouteReports) (env : Env) (db : Db) :
    w.deliver env db [] = db := rfl

/-- One report is delivered before the others. -/
theorem RouteReports.deliver_cons (w : RouteReports) (env : Env) (db : Db) (d : Tx × RouteParty)
    (ds : List (Tx × RouteParty)) :
    w.deliver env db (d :: ds) = w.deliver env (w.deliver env db [d]) ds := rfl

/-- A delivery is refused, or does what its transaction does. -/
theorem RouteReports.deliver_cases (w : RouteReports) (env : Env) (db : Db)
    (d : Tx × RouteParty) :
    (∃ db', transaction env d.1 db (w.request d.2) = .ok db' ∧
      w.deliver env db [d] = { db' with xid := db.xid + 1 }) ∨
    ((¬ ∃ db', transaction env d.1 db (w.request d.2) = .ok db') ∧
      w.deliver env db [d] = { db with xid := db.xid + 1 }) := by
  have hstep : w.deliver env db [d] =
      { Checked.settle (transaction env d.1 db (w.request d.2)) db with xid := db.xid + 1 } := rfl
  rw [hstep]
  cases h : transaction env d.1 db (w.request d.2) with
  | ok db' => exact .inl ⟨db', rfl, rfl⟩
  | error e =>
    refine .inr ⟨?_, rfl⟩
    rintro ⟨db', hok⟩
    cases hok

/-- The number of the transaction does not matter to what was collected. -/
theorem Collecting.committed (h : Collecting w q db₀ id s₀ db s) (xid : Nat) :
    Collecting w q db₀ id s₀ { db with xid := xid } s :=
  ⟨h.books, h.quote, h.found, h.gathered, h.waits⟩

/-- The number of the transaction does not matter to how the session ended. -/
theorem EndedWith.committed {charge : Int} (h : EndedWith db₀ id s₀ charge db) (xid : Nat) :
    EndedWith db₀ id s₀ charge { db with xid := xid } :=
  ⟨h.row, h.balance⟩

/-- **What arrives after the end** changes nothing. -/
theorem EndedWith.deliver {charge : Int} (habout : w.About id) (ds : List (Tx × RouteParty))
    (h : EndedWith db₀ id s₀ charge db) : EndedWith db₀ id s₀ charge (w.deliver env db ds) := by
  induction ds generalizing db with
  | nil => exact h
  | cons d ds ih =>
    rw [w.deliver_cons]
    refine ih ?_
    rcases w.deliver_cases env db d with ⟨db', hok, hdb⟩ | ⟨-, hdb⟩
    · rw [hdb, h.step habout hok]
      exact h.committed _
    · rw [hdb]
      exact h.committed _

/-- **A run of deliveries** leaves the session collecting, having heard of every party that was
answered, or ended with the charge that the reports amount to. -/
theorem Collecting.deliver (hu : RunningOnRoute db₀ id s₀) (habout : w.About id)
    (ds : List (Tx × RouteParty)) (hdue : s₀.Timely ds) (hc : Collecting w q db₀ id s₀ db s) :
    (∃ s', Collecting w q db₀ id s₀ (w.deliver env db ds) s' ∧ (∀ y, s.Heard y → s'.Heard y) ∧
      ∀ x, s₀.party x → w.Answered env x db ds → s'.Heard x) ∨
    EndedWith db₀ id s₀ (w.charge q s₀) (w.deliver env db ds) := by
  induction ds generalizing db s with
  | nil => exact .inl ⟨s, hc, fun _ hy => hy, fun _ _ h => h.elim⟩
  | cons d ds ih =>
    have hdue' : s₀.Timely ds := fun e he => hdue e (List.mem_cons_of_mem _ he)
    rw [w.deliver_cons]
    rcases w.deliver_cases env db d with ⟨db', hok, hdb⟩ | ⟨hno, hdb⟩
    · rcases hc.step hu habout (hdue d List.mem_cons_self) hok with ⟨s₁, hc₁, hkeep, hnew⟩ | hend
      · rw [hdb]
        refine (ih hdue' (hc₁.committed _)).imp_left ?_
        rintro ⟨s', hc', hkeep', hheard⟩
        refine ⟨s', hc', fun y hy => hkeep' y (hkeep y hy), fun x hx hanswered => ?_⟩
        rcases hanswered with ⟨rfl, -⟩ | hlater
        · exact hkeep' _ (hnew hx)
        · exact hheard x hx (hdb ▸ hlater)
      · right
        rw [hdb]
        exact (hend.committed _).deliver habout ds
    · rw [hdb]
      refine (ih hdue' (hc.committed _)).imp_left ?_
      rintro ⟨s', hc', hkeep', hheard⟩
      refine ⟨s', hc', hkeep', fun x hx hanswered => ?_⟩
      rcases hanswered with ⟨rfl, hsome⟩ | hlater
      · exact (hno hsome).elim
      · exact hheard x hx (hdb ▸ hlater)

/-! ### Every order -/

/-- The receipts that a session has are those of the reports. -/
structure RouteReports.Agree (w : RouteReports) (s : Session) : Prop where
  root : ∀ r ∈ s.receipt, r.payload = w.root
  stage : ∀ p ∈ s.stages, ∀ r ∈ p.receipt, r.payload = w.stage p.nodeId

/-- A running session of a route in a reachable database collects receipts. -/
theorem collecting_of_reachable (h : Machine.Reachable (controlSystem env) db)
    (hs : db.sessions.find? id = some s) (hrun : s.state = .running)
    (hagree : w.Agree s) : ∃ q, db.quotes.find? s.quoteId = some q ∧
      Collecting w q db id s db s := by
  obtain ⟨q, hq, hpriced⟩ := (reachable_priced h).sessions id s hs
  have hlive : s.state.terminal = false := by
    rw [hrun]
    rfl
  refine ⟨q, hq, rfl, hq, hs, ⟨.refl s, fun r hr => ⟨hagree.root r hr, ?_⟩, hagree.stage⟩,
    (reachable_waits h id s hs).waits hlive⟩
  rw [← hagree.root r hr]
  exact hpriced.usage hlive (by rw [hrun]; exact nofun) r hr

/-- A session that runs was not charged. -/
theorem runningOnRoute_of_reachable (h : Machine.Reachable (controlSystem env) db)
    (hs : db.sessions.find? id = some s) (hrun : s.state = .running) (hroute : s.routeId.isSome)
    (hpool : s.cooperativePoolId = none) : RunningOnRoute db id s := by
  refine ⟨hroute, hpool, hrun, (reachable_booking h).fresh ?_⟩
  rintro ⟨s', hs', hterminal⟩
  rw [hs, Option.some.injEq] at hs'
  rw [← hs', hrun] at hterminal
  cases hterminal

/-- A session of a route has a root, and its stages are on different nodes. -/
theorem parties_of_reachable (h : Machine.Reachable (controlSystem env) db)
    (hs : db.sessions.find? id = some s) (hroute : s.routeId.isSome) :
    s.nodeId.isSome ∧ (s.stages.map (·.nodeId)).Nodup := by
  obtain ⟨k, hk⟩ := Option.isSome_iff_exists.1 hroute
  obtain ⟨e, epoch, -, -, hmembers, hnode, -⟩ := (reachable_placed h id s hs).route k hk
  refine ⟨by rw [hnode]; rfl, ?_⟩
  have hnodes : s.participants.map (·.nodeId) = e.members.map (·.nodeId) := by
    rw [← hmembers, List.map_map]
    rfl
  have hnodup : (s.participants.map (·.nodeId)).Nodup := by
    rw [hnodes]
    exact e.complete.nodes
  exact hnodup.sublist (List.filter_sublist.map _)

/-- A session that has heard of every party waits for none. -/
theorem Collecting.missing (hc : Collecting w q db₀ id s₀ db s) (hroot : s₀.nodeId.isSome)
    (hnodup : (s₀.stages.map (·.nodeId)).Nodup) : ∃ x, s₀.party x ∧ ¬ s.Heard x := by
  have hnodes := hc.gathered.collects.stages
  rcases hc.waits.missing with hnone | ⟨p, hp, hnone⟩
  · obtain ⟨n, hn⟩ := Option.isSome_iff_exists.1 hroot
    exact ⟨.root n, hn, fun hheard => hheard hnone⟩
  · have hmem : p.nodeId ∈ s₀.stages.map (·.nodeId) := by
      rw [← hnodes]
      exact List.mem_map_of_mem hp
    obtain ⟨p₀, hp₀, hsame⟩ := List.mem_map.1 hmem
    refine ⟨.stage p.nodeId, ⟨p₀, hp₀, hsame⟩, ?_⟩
    rintro ⟨p', hp', hnode, hsome⟩
    rw [← hnodes] at hnodup
    rw [List.inj_on_of_nodup_map hnodup hp' hp hnode] at hsome
    exact hsome hnone

/-- **Receipt confluence.** The parties of a running route session without a pool report what they
report, in any order and as often as they like before its deadline. When all of them have been
answered the session has ended; and the ends of any two runs of deliveries have the same charge,
the same payments of the participants and the same balances of all accounts. A charge is positive
only if the root completed with a valid usage and every stage worked.

**Proof sketch.** Each run still collects or has ended with the charge that the reports and the
session from the start determine (`Collecting.deliver`), and so any two ends agree. A run that still
collects has not heard of some party, which then was not answered. -/
theorem receipt_confluence (h : Machine.Reachable (controlSystem env) db)
    (hs : db.sessions.find? id = some s) (hrun : s.state = .running) (hroute : s.routeId.isSome)
    (hpool : s.cooperativePoolId = none) (habout : w.About id) (hagree : w.Agree s)
    {ds es : List (Tx × RouteParty)} (hds : s.Timely ds) (hes : s.Timely es) :
    ∃ q s₁ s₂, db.quotes.find? s.quoteId = some q ∧
      (w.deliver env db ds).sessions.find? id = some s₁ ∧
      (w.deliver env db es).sessions.find? id = some s₂ ∧
      ((∀ x, s.party x → w.Answered env x db ds) → s₁.state.terminal = true) ∧
      (s₁.state.terminal = true → s₂.state.terminal = true →
        s₁.charged = s₂.charged ∧ s₁.paidOut = s₂.paidOut ∧
        ∀ a, (w.deliver env db ds).books.balance a = (w.deliver env db es).books.balance a) ∧
      (s₁.state.terminal = true → 0 < s₁.charged → w.Payable q s) := by
  obtain ⟨q, hq, hc⟩ := collecting_of_reachable h hs hrun hagree
  have hu := runningOnRoute_of_reachable h hs hrun hroute hpool
  obtain ⟨hroot, hnodup⟩ := parties_of_reachable h hs hroute
  have hlive : ∀ {ds s'}, Collecting w q db id s (w.deliver env db ds) s' →
      s'.state.terminal = false := by
    intro ds s' hc'
    rw [hc'.gathered.collects.running hrun]
    rfl
  rcases hc.deliver hu habout ds hds with ⟨s₁, hc₁, -, hheard⟩ | hend₁
  · -- the first run still collects: it has not heard of one of the parties
    obtain ⟨x, hx, hnot⟩ := hc₁.missing hroot hnodup
    obtain ⟨s₂, hs₂⟩ : ∃ s₂, (w.deliver env db es).sessions.find? id = some s₂ := by
      rcases hc.deliver hu habout es hes with ⟨s₂, hc₂, -⟩ | hend₂
      · exact ⟨s₂, hc₂.found⟩
      · obtain ⟨s₂, hs₂, -⟩ := hend₂.row
        exact ⟨s₂, hs₂⟩
    refine ⟨q, s₁, s₂, hq, hc₁.found, hs₂, fun hall => (hnot (hheard x hx (hall x hx))).elim,
      fun hterminal => ?_, fun hterminal => ?_⟩
    all_goals
      rw [hlive hc₁] at hterminal
      cases hterminal
  · obtain ⟨s₁, hs₁, hterminal, hcharged, hpaid⟩ := hend₁.row
    have hpayable : 0 < s₁.charged → w.Payable q s := by
      intro hpositive
      by_contra hno
      rw [hcharged, RouteReports.charge, if_neg hno] at hpositive
      exact lt_irrefl 0 hpositive
    rcases hc.deliver hu habout es hes with ⟨s₂, hc₂, -⟩ | hend₂
    · refine ⟨q, s₁, s₂, hq, hs₁, hc₂.found, fun _ => hterminal, fun _ hterminal₂ => ?_,
        fun _ => hpayable⟩
      rw [hlive hc₂] at hterminal₂
      cases hterminal₂
    · obtain ⟨s₂, hs₂, -, hcharged₂, hpaid₂⟩ := hend₂.row
      refine ⟨q, s₁, s₂, hq, hs₁, hs₂, fun _ => hterminal,
        fun _ _ => ⟨hcharged.trans hcharged₂.symm, hpaid.trans hpaid₂.symm, fun a => ?_⟩,
        fun _ => hpayable⟩
      rw [hend₁.balance a, hend₂.balance a]

/-! ### A run of the laboratory -/

/-- A session `41000` of the consumer, without a pool, runs on the first route. -/
def labRoute : List (Tx × Request) :=
  labSetup ++ labPlan.take 2 ++ labBeats 38 5000 ++ [
    (labTx 40 5000, .user labConsumer (.quote ⟨"m", 16, none⟩)),
    (labTx 41 5000, .user labConsumer
      (.createSession ⟨40000, "40", "s", 10, "m", 16, 10, 1⟩))] ++ labStart 40 5000

/-- Its parties report a completed session. -/
def labReports : RouteReports where
  root := ⟨41000, 42000, 1, .completed, 100, 10, "o", true, some "stop", none, 100⟩
  stage _ := ⟨41000, 42000, 1, "1", .completed, 1, 10, 10, "t", 100, none⟩

/-- The stage reports before the root. -/
def labInOrder : List (Tx × RouteParty) :=
  [(labTx 46 5000, .stage 2), (labTx 47 5000, .root 1)]

/-- The root reports twice, before the stage. -/
def labRepeated : List (Tx × RouteParty) :=
  [(labTx 46 5000, .root 1), (labTx 47 5001, .root 1), (labTx 48 5002, .stage 2)]

/-- Both orders charge 110, pay the participants alike and leave the same balances. -/
theorem receipt_confluence_lab :
    ∃ s₁ s₂,
      (labReports.deliver labEnv (labDb labRoute) labInOrder).sessions.find? 41000 = some s₁ ∧
      (labReports.deliver labEnv (labDb labRoute) labRepeated).sessions.find? 41000 = some s₂ ∧
      s₁.charged = 110 ∧ s₂.charged = 110 ∧ s₁.paidOut = [(1, 44), (2, 44)] ∧
      s₁.paidOut = s₂.paidOut ∧
      ∀ a, (labReports.deliver labEnv (labDb labRoute) labInOrder).books.balance a =
        (labReports.deliver labEnv (labDb labRoute) labRepeated).books.balance a := by
  have hfacts : ((labDb labRoute).sessions.find? 41000).map (fun s =>
        (s.state, s.routeId.isSome, s.cooperativePoolId)) = some (.running, true, none) ∧
      ((labDb labRoute).sessions.find? 41000).map (fun s =>
        (s.receipt.isSome, s.stages.map fun p => p.receipt.isSome)) = some (false, [false]) ∧
      ((labDb labRoute).sessions.find? 41000).map (fun s =>
        (labInOrder ++ labRepeated).map fun d => s.overdue (d.1.date 0)) =
        some (List.replicate 5 false) ∧
      ((labReports.deliver labEnv (labDb labRoute) labInOrder).sessions.find? 41000).map
        (fun s => (s.state.terminal, s.charged, s.paidOut)) =
        some (true, 110, [(1, 44), (2, 44)]) ∧
      ((labReports.deliver labEnv (labDb labRoute) labRepeated).sessions.find? 41000).map
        (·.state.terminal) = some true := by
    decide +kernel
  obtain ⟨hrow, hreceipts, htimely, hfirst, hsecond⟩ := hfacts
  obtain ⟨s, hs, hsession⟩ := Option.map_eq_some_iff.1 hrow
  rw [hs, Option.map_some, Option.some.injEq] at hreceipts
  simp only [Prod.mk.injEq] at hsession hreceipts
  obtain ⟨hrun, hroute, hpool⟩ := hsession
  obtain ⟨hroot, hstages⟩ := hreceipts
  have hdue : ∀ d ∈ labInOrder ++ labRepeated, s.overdue (d.1.date 0) = false := by
    rw [hs, Option.map_some, Option.some.injEq] at htimely
    intro d hd
    have hmem := List.mem_map_of_mem (f := fun d => s.overdue (d.1.date 0)) hd
    rw [htimely] at hmem
    exact List.eq_of_mem_replicate hmem
  have hagree : labReports.Agree s := by
    refine ⟨fun r hr => ?_, fun p hp r hr => ?_⟩
    · rw [hr] at hroot
      cases hroot
    · have hmem := List.mem_map_of_mem (f := fun p => p.receipt.isSome) hp
      rw [hstages, hr] at hmem
      cases List.mem_singleton.1 hmem
  have habout : labReports.About 41000 := ⟨rfl, fun _ => rfl⟩
  have hfirstDue : s.Timely labInOrder := fun d hd => hdue d (List.mem_append_left _ hd)
  have hsecondDue : s.Timely labRepeated := fun d hd => hdue d (List.mem_append_right _ hd)
  obtain ⟨q, s₁, s₂, -, hs₁, hs₂, -, hsame, -⟩ := receipt_confluence (reachable_lab labRoute) hs
    hrun hroute hpool habout hagree hfirstDue hsecondDue
  rw [hs₁, Option.map_some, Option.some.injEq] at hfirst
  rw [hs₂, Option.map_some, Option.some.injEq] at hsecond
  simp only [Prod.mk.injEq] at hfirst
  obtain ⟨hcharged, hpaid, hbalance⟩ := hsame hfirst.1 hsecond
  exact ⟨s₁, s₂, hs₁, hs₂, hfirst.2.1, hcharged.symm.trans hfirst.2.1, hfirst.2.2, hpaid, hbalance⟩

end NetworkAi
