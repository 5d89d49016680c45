import NetworkAi.Control.SessionSteps
import NetworkAi.Invariants.Books

set_option relaxedAutoImplicit false
set_option autoImplicit false

/-!
# The charge of a session

A quote fixes the price of a full context, a session holds that price, and much later a receipt
is charged by its token counts. Every usage that a session accepts fits into the context of its
quote, so that it costs no more than the hold: settlement never meets a charge that overflows or
exceeds its hold.

## Main definitions

* `NetworkAi.Priced` — the invariant: quotes are priced, and sessions hold the price of theirs.
* `NetworkAi.Failure.ofCharge` — the errors of a charge.

## Main results

* `NetworkAi.Quote.Priced.charge` — an accepted usage can be charged, at most the maximum.
* `NetworkAi.reachable_priced` — the invariant of every reachable database.
* `NetworkAi.charge_bound` — every accepted usage of a session can be charged within its hold, and
  no request that ends a session stops with an error of a charge.
-/

namespace NetworkAi

open Relational Checked

variable {env : Env} {req : Request} {tx t : Tx} {db db' : Db} {id : SessionId}
  {s s' : Session} {quote : Quote}

/-! ### Quotes and their sessions -/

/-- A quote whose maximum is the price of a full context, at rates that are amounts. -/
structure Quote.Priced (q : Quote) : Prop where
  rates : 0 ≤ q.manifest.inputRateMicrotu ∧ 0 ≤ q.manifest.outputRateMicrotu
  maximum : quoteMaximum q.manifest q.maxOutputTokens = .ok q.maximum

/-- A session holds the maximum of its quote, and while it can still be charged, a recorded
receipt of its root is a valid usage. -/
structure Session.Priced (s : Session) (q : Quote) : Prop where
  hold : s.hold = q.maximum
  usage : s.state.terminal = false → s.state ≠ .cancelling → ∀ root ∈ s.receipt,
    validUsage q root.payload = true

/-- **The invariant of prices.** -/
structure Priced (db : Db) : Prop where
  quotes : ∀ id q, db.quotes.find? id = some q → q.Priced
  sessions : ∀ id s, db.sessions.find? id = some s →
    ∃ q, db.quotes.find? s.quoteId = some q ∧ s.Priced q

/-- The counts of a valid usage fit into the context of its quote. -/
theorem validUsage_counts {d : ReceiptData} (h : validUsage quote d = true) :
    (d.promptTokens : Int) ≤ (quote.manifest.maxContextTokens : Int) - quote.maxOutputTokens ∧
      d.completionTokens ≤ quote.maxOutputTokens := by
  simp only [validUsage, Bool.decide_and, Bool.and_eq_true, decide_eq_true_eq] at h
  exact ⟨h.2.2.2.2.2.1, h.2.2.2.2.2.2⟩

/-- **An accepted usage can be charged**, and costs at most the maximum of its quote. -/
theorem Quote.Priced.charge (h : quote.Priced) {d : ReceiptData}
    (hvalid : validUsage quote d = true) :
    ∃ charge, chargeFor quote.manifest d.promptTokens d.completionTokens = .ok charge ∧
      0 ≤ charge ∧ charge ≤ quote.maximum := by
  obtain ⟨hprompt, hcompletion⟩ := validUsage_counts hvalid
  have hcount : (d.completionTokens : Int) ≤ quote.maxOutputTokens := by omega
  have hmaximum := h.maximum
  unfold quoteMaximum at hmaximum
  obtain ⟨charge, hcharge, hle⟩ := chargeFor_le h.rates.1 h.rates.2 (by omega) (by omega) hprompt
    hcount hmaximum
  exact ⟨charge, hcharge, chargeFor_nonneg hcharge, hle⟩

/-! ### The invariant -/

/-- An update keeps a session within its quote. -/
theorem Updated.priced (h : Updated env t db id s req s')
    (hquote : db.quotes.find? s.quoteId = some quote)
    (hp : s.Priced quote) : s'.Priced quote := by
  cases h with
  | authorized hstate =>
    refine ⟨hp.hold, fun _ _ => hp.usage (by rw [hstate]; rfl) ?_⟩
    rw [hstate]
    exact SessionState.noConfusion
  | claimed _ hstate =>
    refine ⟨hp.hold, fun _ _ => hp.usage (by rw [hstate]; rfl) ?_⟩
    rw [hstate]
    exact SessionState.noConfusion
  | stageClaimed | stageReported => exact ⟨hp.hold, hp.usage⟩
  | reported _ _ _ _ _ _ _ hfound hvalid =>
    rw [hquote, Option.some.injEq] at hfound
    subst hfound
    refine ⟨hp.hold, fun _ _ root hroot => ?_⟩
    simp only [Session.reported, Option.mem_def, Option.some.injEq] at hroot
    rw [← hroot]
    exact hvalid
  | cancelling => exact ⟨hp.hold, fun _ hstate => absurd rfl hstate⟩

/-- An admission keeps a session within its quote. -/
theorem Admitted.priced {o : Offer} (h : Admitted t db s o s') (hp : s.Priced quote) :
    s'.Priced quote := by
  have hqueued := h.queued
  rw [h.row]
  refine ⟨hp.hold, fun _ _ => hp.usage (by rw [hqueued]; rfl) ?_⟩
  rw [hqueued]
  exact SessionState.noConfusion

/-- A step of a session keeps it priced. -/
theorem Session.Step.priced (h : s.Step env req db db' id s')
    (hquote : db.quotes.find? s.quoteId = some quote) (hp : s.Priced quote) :
    s'.Priced quote := by
  cases h with
  | same => exact hp
  | admitted h => exact h.priced hp
  | updated h => exact h.priced hquote hp
  | @finalized t s₁ s₂ state charge error billing entries hreport hlive _ _ _ hsplit _ =>
    have hkeeps : s.Keeps (s₂.finished t state charge error billing) :=
      hsplit.finished_keeps hreport hlive
    refine ⟨hkeeps.hold.trans hp.hold, fun hlive' => ?_⟩
    have hended : (s₂.finished t state charge error billing).state.terminal = true := by
      cases state <;> rfl
    rw [hended] at hlive'
    cases hlive'
  | refunded => exact ⟨hp.hold, hp.usage⟩

/-- **Every change keeps the prices.** -/
theorem Change.priced (h : Change env req tx db db') (hr : db.registry.Sound env) (hp : Priced db) :
    Priced db' where
  quotes id q hq := by
    rcases h with h | h
    · cases h with
      | quoted hid hmodel hmanifest hmax =>
        rcases Table.find?_insert_cases (h := hid) hq with ⟨-, rfl⟩ | ⟨-, hold⟩
        · have hvalid := hr.manifests _ _ hmodel
          rw [← hmanifest] at hvalid
          exact ⟨⟨hvalid.2.2.2.1.1, hvalid.2.2.2.2.1.1⟩, hmax⟩
        · exact hp.quotes id q hold
      | _ => exact hp.quotes id q hq
    · cases h <;> exact hp.quotes id q hq
  sessions id s' hs' := by
    rcases h.session_cases hs' with ⟨-, t, user, d, quote, hquote, rfl⟩ | ⟨s, hs, hstep⟩
    · obtain ⟨_, hquote', rfl⟩ := h.frozen.1.old hquote
      exact ⟨quote, hquote', rfl, fun _ _ root hroot => nomatch hroot⟩
    · obtain ⟨quote, hquote, hpriced⟩ := hp.sessions id s hs
      obtain ⟨s₁, hs₁, hkeeps⟩ := h.sessions.old hs
      rw [hs', Option.some.injEq] at hs₁
      subst hs₁
      obtain ⟨_, hquote', rfl⟩ := h.frozen.1.old hquote
      exact ⟨quote, by rw [hkeeps.quote]; exact hquote', hstep.priced hquote hpriced⟩

/-- The quotes and sessions of an empty database. -/
theorem initial_priced (admin : UserId) : Priced (Db.initial admin) where
  quotes _ _ hq := by cases hq
  sessions _ _ hs := by cases hs

/-- **The prices of every reachable database.** -/
theorem reachable_priced (h : Machine.Reachable (controlSystem env) db) : Priced db :=
  (reachable_of_changes (P := fun db => db.registry.Sound env ∧ Priced db)
    (fun admin => ⟨reachable_registry (.init ⟨admin, rfl⟩), initial_priced admin⟩)
    (fun _ _ _ _ hp hc => ⟨hc.registry.sound hp.1, hc.priced hp.1 hp.2⟩) h).2

/-! ### The errors of a charge -/

/-- The errors of a charge: of its arithmetic, and `charge_limit`. -/
@[simp] def Failure.ofCharge : Failure → Prop
  | .app _ code _ => code = "charge_limit"
  | .range message => message = "Invalid unsigned division" ∨ message = "Amount overflow"
  | _ => False

/-- A block never stops with an error of a charge. -/
abbrev Unlimited {α : Type} (x : Except Failure α) : Prop := Avoids Failure.ofCharge x

/-- The codes of the errors of `post`. -/
def postCodes : List String :=
  ["ledger_account_missing", "insufficient_credits", "ledger_invalid", "amount_overflow"]

/-- **A posting stops with the database's errors and its own codes** only. -/
theorem avoids_post {bad : Failure → Prop} (hdatabase : ∀ reason, ¬ bad (.database reason))
    (happ : ∀ status code message, bad (.app status code message) → code ∉ postCodes)
    {j : JournalId} {key : BusinessKey} {info : PostInfo} {entries : List (AccountId × Int)} :
    Avoids bad (db.post env j key info entries) := by
  have hcode : ∀ {c : Prop} {status code message}, code ∈ postCodes →
      bad (.app status code message) → c :=
    fun hmem hbad => absurd hmem (happ _ _ _ hbad)
  have hline : ∀ (L : Books) (line : AccountId × Int), Avoids bad (L.checkLine line) := by
    intro L line
    simp only [Ledger.checkLine, avoids_bind, avoids_needRow, avoids_need]
    exact ⟨hcode (by simp [postCodes]), fun _ _ => hcode (by simp [postCodes])⟩
  have hjournal : ∀ (L : Books) (row : JournalRow BusinessKey PostInfo),
      Avoids bad (L.insertJournal j row) := by
    intro L row
    simp [Ledger.insertJournal, hdatabase]
  have happly : ∀ (L : Books) (line : JournalLine AccountId),
      Avoids bad (L.applyJournalLine db.xid line) := by
    intro L line
    simp [Ledger.applyJournalLine, hdatabase]
  have hpost : Avoids bad (db.books.post env.accountLe db.xid j key info entries) := by
    unfold Ledger.post
    split
    · exact avoids_pure _
    · simp only [avoids_bind, avoids_need]
      refine ⟨hcode (by simp [postCodes]), fun _ _ => ⟨hcode (by simp [postCodes]), fun _ _ =>
        ⟨avoids_forM fun line _ => hline _ line,
          fun _ _ => ⟨hjournal _ _, fun L _ => ⟨?_, fun _ _ => avoids_pure _⟩⟩⟩⟩⟩
      exact avoids_foldlM (P := fun _ => True) trivial (fun L line _ _ => happly L _)
        fun _ _ _ _ _ _ => trivial
  simp [Db.post, hpost]

/-- A posting stops with other codes. -/
theorem unlimited_post {j : JournalId} {key : BusinessKey} {info : PostInfo}
    {entries : List (AccountId × Int)} : Unlimited (db.post env j key info entries) := by
  refine avoids_post (fun _ => by simp) fun _ code _ hbad hmem => ?_
  have hbad : code = "charge_limit" := hbad
  subst hbad
  simp [postCodes] at hmem

/-- A session whose books allow it is written without such an error. -/
theorem unlimited_updateSession : Unlimited (db.updateSession id s) := by
  simp [Db.updateSession]

/-- A division of a charge stops with other codes. -/
theorem unlimited_splitCharge {charge : Int} : Unlimited (splitCharge t db id s charge) := by
  have hrecycle : Unlimited (recycleSettlement t db id s charge) := by
    simp [recycleSettlement]
  simp [splitCharge, splitByBps, hrecycle]

/-- **The common end of a session** stops with no error of a charge, if the charge fits into the
hold. -/
theorem unlimited_finalize {state : ReceiptState} {charge : Int} {error : Option String}
    {billing : Option BillingState} (h : 0 ≤ charge ∧ charge ≤ s.hold) :
    Unlimited (finalize env t db id s state charge error billing) := by
  simp [finalize, h, unlimited_splitCharge, unlimited_post, unlimited_updateSession]

/-- A hold is never negative, so that every session can end without a charge. -/
theorem Session.Priced.hold_nonneg (hs : s.Priced quote) (hq : quote.Priced) : 0 ≤ s.hold := by
  have hmaximum := hq.maximum
  unfold quoteMaximum at hmaximum
  rw [hs.hold]
  exact chargeFor_nonneg hmaximum

/-- A release of a session within its quote stops with other codes. -/
theorem unlimited_release {state : ReceiptState} {error : Option String}
    {billing : Option BillingState} (hs : s.Priced quote) (hq : quote.Priced) :
    Unlimited (finalize env t db id s state 0 error billing) :=
  unlimited_finalize ⟨le_rfl, hs.hold_nonneg hq⟩

/-- The check of the participants stops with other codes. -/
theorem unlimited_currentParticipants {preparing : Bool} :
    Unlimited (currentParticipants t db s preparing) := by
  have hmember : ∀ p, Unlimited (participantCurrent t db preparing p) := by
    intro p
    simp [participantCurrent]
  have hall : Unlimited (s.participants.mapM (participantCurrent t db preparing)) :=
    avoids_mapM fun p _ => hmember p
  simp [currentParticipants, hall]

/-- **The deferred settlement of a route** charges the receipt of the root that it reads again. -/
theorem unlimited_settleRoute (hquote : db.quotes.find? s.quoteId = some quote)
    (hs : s.Priced quote) (hq : quote.Priced) (hlive : s.state.terminal = false) :
    Unlimited (settleRoute env t db id s) := by
  unfold settleRoute
  split
  · simp [unlimited_release hs hq]
  rename_i hgoing
  rw [not_or] at hgoing
  split
  · exact avoids_pure _
  rename_i root hroot
  split
  · exact avoids_pure _
  obtain ⟨charge, hcharge, hnonneg, hle⟩ := hq.charge (hs.usage hlive hgoing.1 root hroot)
  have hfits : 0 ≤ charge ∧ charge ≤ s.hold := ⟨hnonneg, hs.hold ▸ hle⟩
  simp [unlimited_currentParticipants, hquote, reference, Checked.require, hcharge,
    unlimited_finalize hfits]

/-- A stage's receipt stops with other codes. -/
theorem unlimited_stageReceipt {nodeId : NodeId} {d : StageReceiptData} (hp : Priced db) :
    Unlimited (stageReceipt env t db nodeId d) := by
  unfold stageReceipt
  simp only [avoids_bind, avoids_parse, avoids_needRow, avoids_need, needRow_ok]
  refine ⟨by simp, fun _ _ => ⟨by simp, fun s hs => ⟨by simp, fun p hfound =>
    ⟨by simp, fun _ _ => ?_⟩⟩⟩⟩
  obtain ⟨quote, hquote, hpriced⟩ := hp.sessions _ s hs
  have hq := hp.quotes _ quote hquote
  split
  · simp
  unfold newStageReceipt
  split
  · exact avoids_pure _
  rename_i hlive
  split
  · simp [unlimited_release hpriced hq]
  have hlive' : s.state.terminal = false := by simpa using hlive
  have hreported : (s.stageReported env nodeId d).Priced quote := ⟨hpriced.hold, hpriced.usage⟩
  have hsettle : Unlimited (settleRoute env t
      { db with sessions := db.sessions.set d.sessionId (s.stageReported env nodeId d) }
      d.sessionId (s.stageReported env nodeId d)) :=
    unlimited_settleRoute hquote hreported hq hlive'
  simp [unlimited_currentParticipants, hsettle]

/-- A root's receipt stops with other codes.

**Proof sketch.** The charge of a valid usage is within the hold, by its quote; any other usage is
charged nothing. So the division that follows, at once or with the stages, finds a charge within its
bounds. -/
theorem unlimited_receipt {nodeId : NodeId} {d : ReceiptData} (hp : Priced db) :
    Unlimited (receipt env t db nodeId d) := by
  unfold receipt
  simp only [avoids_bind, avoids_parse, avoids_needRow, avoids_need, needRow_ok]
  refine ⟨by simp, fun _ _ => ⟨by simp, fun s hs => ⟨by simp, fun _ _ => ?_⟩⟩⟩
  obtain ⟨quote, hquote, hpriced⟩ := hp.sessions _ s hs
  have hq := hp.quotes _ quote hquote
  split
  · simp
  unfold newReceipt
  split
  · exact avoids_pure _
  rename_i hlive
  split
  · simp [unlimited_release hpriced hq]
  have hlive' : s.state.terminal = false := by simpa using hlive
  simp only [Checked.ite_bind, avoids_bind, avoids_need, avoids_needRow, avoids_reference,
    reference_ok]
  refine ⟨by simp, fun _ _ => ⟨by simp, fun node _ => ⟨by simp, fun _ _ => ⟨by simp,
    fun quote' hquote' => ?_⟩⟩⟩⟩
  rw [hquote, Option.some.injEq] at hquote'
  subst hquote'
  -- a usage that is not valid, or comes too late, is charged nothing
  have hcharge : ∃ charge, (if validUsage quote d = true ∧ s.state ≠ .cancelling then
      chargeFor quote.manifest d.promptTokens d.completionTokens else pure 0) = .ok charge ∧
        0 ≤ charge ∧ charge ≤ s.hold := by
    by_cases hvalid : validUsage quote d = true ∧ s.state ≠ .cancelling
    · rw [if_pos hvalid, hpriced.hold]
      exact hq.charge hvalid.1
    · rw [if_neg hvalid]
      exact ⟨0, rfl, le_rfl, hpriced.hold_nonneg hq⟩
  obtain ⟨charge, hcharge, hfits⟩ := hcharge
  refine ⟨.of_ok hcharge, fun charge' hcharge' => ⟨unlimited_updateSession, fun db₁ hupdate => ?_⟩⟩
  rw [hcharge, Except.ok.injEq] at hcharge'
  subst hcharge'
  obtain ⟨-, -, rfl⟩ := Db.updateSession_ok hupdate
  split
  · rename_i hgoing
    have hreported : (s.reported env d).Priced quote := by
      refine ⟨hpriced.hold, fun _ _ root hroot => ?_⟩
      simp only [Session.reported, Option.mem_def, Option.some.injEq] at hroot
      rw [← hroot]
      exact hgoing.2.1
    exact unlimited_settleRoute hquote hreported hq hlive'
  · have hfits' : 0 ≤ charge ∧ charge ≤ (s.reported env d).hold := hfits
    simp [unlimited_finalize hfits']

/-! ### The other ends of a session -/

/-- A cancellation stops with other codes. -/
theorem unlimited_cancel {user : Actor} (hp : Priced db) : Unlimited (cancel env t db user id) := by
  unfold cancel
  simp only [avoids_bind, avoids_needRow, avoids_need, needRow_ok]
  refine ⟨by simp, fun s hs => ⟨by simp, fun _ _ => ?_⟩⟩
  obtain ⟨quote, hquote, hpriced⟩ := hp.sessions _ s hs
  simp [unlimited_release hpriced (hp.quotes _ quote hquote), unlimited_updateSession]

/-- A failure stops with other codes. -/
theorem unlimited_fail {code : String} (hp : Priced db) : Unlimited (fail env t db id code) := by
  unfold fail
  simp only [avoids_bind, avoids_needRow, needRow_ok]
  refine ⟨by simp, fun s hs => ?_⟩
  obtain ⟨quote, hquote, hpriced⟩ := hp.sessions _ s hs
  simp [unlimited_release hpriced (hp.quotes _ quote hquote)]

/-- An admission stops with other codes. -/
theorem unlimited_admitSession (hp : Priced db) : Unlimited (admitSession env t db id) := by
  unfold admitSession
  simp only [avoids_bind, avoids_needRow, needRow_ok]
  refine ⟨by simp, fun s hs => ?_⟩
  obtain ⟨quote, hquote, hpriced⟩ := hp.sessions _ s hs
  have hmembers : ∀ route, Unlimited (admitMembers db route) := by
    intro route
    cases route with
    | none => exact avoids_pure _
    | some r => exact avoids_mapM fun m _ => by simp [admitMember]
  have hcoverage : ∀ o, Unlimited (admitCoverage t db s o) := by
    intro o
    unfold admitCoverage
    split <;> simp
  have hadmission : ∀ o, Unlimited (admitTo t db id s o) := by
    intro o
    simp [admitTo, hmembers, hcoverage, unlimited_updateSession]
  simp only [avoids_ite, avoids_bind, avoids_need, avoids_pure, implies_true, true_and]
  refine fun _ => ⟨fun _ => ⟨unlimited_release hpriced (hp.quotes _ quote hquote), trivial⟩,
    fun _ => ⟨by simp, fun _ _ _ => ?_⟩⟩
  split
  · exact avoids_pure _
  · exact hadmission _

/-- The reaper ends one session after the other, each of them priced. -/
theorem unlimited_reap {locked : List SessionId} (hr : db.registry.Sound env) (hp : Priced db) :
    Unlimited (reap env t db locked) := by
  unfold reap
  refine avoids_foldlM (P := fun db => db.registry.Sound env ∧ Priced db) ⟨hr, hp⟩ ?_ ?_
  · intro db₁ x _ hp₁
    unfold reapSession
    simp only [avoids_bind, avoids_reference, reference_ok]
    refine ⟨by simp, fun s hs => ?_⟩
    obtain ⟨quote, hquote, hpriced⟩ := hp₁.2.sessions _ s hs
    exact unlimited_release hpriced (hp₁.2.quotes _ quote hquote)
  · intro db₁ x db₂ _ hp₁ hx
    unfold reapSession at hx
    simp only [Checked.bind_ok, reference_ok] at hx
    obtain ⟨s, hs, hx⟩ := hx
    have hmoves : Moves env (.background (.reap locked)) t db₁ db₂ := release_moves hs hx
    have hkeeps : ∀ a b, Change env (.background (.reap locked)) t a b →
        a.registry.Sound env ∧ Priced a →
        b.registry.Sound env ∧ Priced b :=
      fun a b hc hp => ⟨hc.registry.sound hp.1, hc.priced hp.1 hp.2⟩
    exact Machine.Star.preserves hkeeps hmoves.changes hp₁

/-- **Charge bound.** In every reachable database a session holds the maximum of its quote; every
usage that receipt validation accepts under that quote has a charge, which leaves a refund that
is not negative; a receipt recorded for a deferred settlement reports such a usage; and no request
that ends a session stops with `charge_limit` or with an error of `chargeFor`.

**Proof sketch.** From the invariant of prices: the hold is the quote's maximum, which is the price
of a full context, and a valid usage has no more tokens than that. -/
theorem charge_bound (h : Machine.Reachable (controlSystem env) db) :
    (∀ id s, db.sessions.find? id = some s → ∃ quote, db.quotes.find? s.quoteId = some quote ∧
      s.hold = quote.maximum ∧
      (∀ d : ReceiptData, validUsage quote d = true → ∃ charge,
        chargeFor quote.manifest d.promptTokens d.completionTokens = .ok charge ∧
          0 ≤ charge ∧ 0 ≤ s.hold - charge) ∧
      (s.state.terminal = false → s.state ≠ .cancelling → ∀ root ∈ s.receipt,
        validUsage quote root.payload = true)) ∧
      ∀ t : Tx, (∀ nodeId d, Avoids Failure.ofCharge (receipt env t db nodeId d)) ∧
        (∀ nodeId d, Avoids Failure.ofCharge (stageReceipt env t db nodeId d)) ∧
        (∀ user id, Avoids Failure.ofCharge (cancel env t db user id)) ∧
        (∀ id code, Avoids Failure.ofCharge (fail env t db id code)) ∧
        (∀ id, Avoids Failure.ofCharge (admitSession env t db id)) ∧
        ∀ locked, Avoids Failure.ofCharge (reap env t db locked) := by
  have hp := reachable_priced h
  refine ⟨fun id s hs => ?_, fun t => ⟨fun _ _ => unlimited_receipt hp,
    fun _ _ => unlimited_stageReceipt hp, fun _ _ => unlimited_cancel hp,
    fun _ _ => unlimited_fail hp, fun _ => unlimited_admitSession hp,
    fun _ => unlimited_reap (reachable_registry h) hp⟩⟩
  obtain ⟨quote, hquote, hpriced⟩ := hp.sessions id s hs
  refine ⟨quote, hquote, hpriced.hold, fun d hvalid => ?_, hpriced.usage⟩
  obtain ⟨charge, hcharge, hnonneg, hle⟩ := (hp.quotes _ quote hquote).charge hvalid
  have hhold := hpriced.hold
  exact ⟨charge, hcharge, hnonneg, by omega⟩

/-- In the laboratory a session of the consumer runs with a hold of 256; the largest usage that it
accepts, a prompt of 240 tokens and an answer of 16, is charged within it. -/
theorem charge_bound_lab :
    ∃ s quote charge, (labDb (labSetup ++ labPlan ++ labWork)).sessions.find? 51000 = some s ∧
      (labDb (labSetup ++ labPlan ++ labWork)).quotes.find? s.quoteId = some quote ∧
      s.state = .running ∧ s.hold = 256 ∧ chargeFor quote.manifest 240 16 = .ok charge ∧
      0 ≤ s.hold - charge := by
  have hfound : ((labDb (labSetup ++ labPlan ++ labWork)).sessions.find? 51000).map
      (fun s => (s.state, s.hold, s.quoteId)) = some (.running, 256, 50000) := by
    decide +kernel
  have hquoted : ((labDb (labSetup ++ labPlan ++ labWork)).quotes.find? 50000).map
      (fun q => (q.manifest.maxContextTokens, q.maxOutputTokens)) = some (256, 16) := by
    decide +kernel
  obtain ⟨s, hs, hfacts⟩ := Option.map_eq_some_iff.1 hfound
  simp only [Prod.mk.injEq] at hfacts
  obtain ⟨hstate, hhold, hid⟩ := hfacts
  obtain ⟨quote, hquote, -, hcharge, -⟩ :=
    (charge_bound (reachable_lab (labSetup ++ labPlan ++ labWork))).1 51000 s hs
  have hquote' := hquote
  rw [hid] at hquote'
  rw [hquote', Option.map_some, Option.some.injEq, Prod.mk.injEq] at hquoted
  obtain ⟨charge, hc, -, hle⟩ := hcharge
    { sessionId := 51000, attemptId := 52000, epoch := 1, state := .completed, promptTokens := 240
      completionTokens := 16, outputSha256 := "o", streamDone := true, finishReason := some "stop"
      errorCode := none, elapsedMs := 100 } (by simp [validUsage, hquoted.1, hquoted.2])
  exact ⟨s, quote, charge, hs, hquote, hstate, hhold, hc, hle⟩

end NetworkAi
