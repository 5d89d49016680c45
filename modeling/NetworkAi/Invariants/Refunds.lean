import NetworkAi.Invariants.EffectOnce
import NetworkAi.Invariants.PoolFunds
import NetworkAi.Ledger.Covered

set_option relaxedAutoImplicit false
set_option autoImplicit false

/-!
# Refunds

An administrator gives the consumption of a cooperative session back.  The refund takes out of the
accounts of the pool exactly the parts that the settlement recycled, whatever has moved there since,
and returns the charge to the consumer; or it changes nothing.

## Main definitions

* `NetworkAi.Settled` — every settlement closes a session of its pool, whose hold was entered.
* `NetworkAi.GivenBack` — what a refund does.

## Main results

* `NetworkAi.burned_covered` — what a settlement burned can be given back.
* `NetworkAi.refund_step` — a request for a refund gives back, or has no effect.
* `NetworkAi.refund_exact` — refunds in every reachable database.
-/

namespace NetworkAi

open Relational

variable {env : Env} {req : Request} {tx t : Tx} {db db' : Db} {id : SessionId} {s : Settlement}
  {session : Session} {caller : Actor} {reason : String}

/-! ### Settlements and their sessions -/

/-- **The settlements**: each closes a session of its pool, and the hold of every session was
entered. -/
structure Settled (env : Env) (db : Db) : Prop where
  reserved : ∀ id s, db.sessions.find? id = some s → 0 < s.hold →
    Entered env db.books (.hold id) (reserveEntries s)
  closes : ∀ id r, db.settlements.find? id = some r → (db.pools.find? r.poolId).isSome ∧
    ∃ s, db.sessions.find? id = some s ∧ r.Closes s

/-- The hold of a session stays entered. -/
theorem Session.reserved_keeps {s s' : Session} (h : Change env req tx db db') (hs : db.books.Sound)
    (huser : s'.userId = s.userId) (hhold : s'.hold = s.hold)
    (hentered : 0 < s.hold → Entered env db.books (.hold id) (reserveEntries s)) :
    0 < s'.hold → Entered env db'.books (.hold id) (reserveEntries s') := by
  intro hpos
  have hsame : reserveEntries s' = reserveEntries s := by
    unfold reserveEntries
    rw [huser, hhold]
  rw [hsame]
  exact h.entered hs (hentered (hhold ▸ hpos))

/-- **Every change keeps the settlements.**

**Proof sketch.** A new session posts its hold under a key that was new, and its row keeps the user
and the hold. A settlement is recorded with the end of its session, whose row is frozen from then
on. -/
theorem Change.settled (h : Change env req tx db db') (hb : Booking db) (hs : Settled env db) :
    Settled env db' where
  reserved id s' hs' := by
    rcases h.held_cases hb.sound with ⟨-, hhold⟩ | ⟨id₁, s₁, hnew⟩ | ⟨id₁, s₁, s₂, payees, hend⟩
    · obtain ⟨s, hfound, hsame⟩ := hhold.row id s' hs'
      exact Session.reserved_keeps h hb.sound hsame.user hsame.hold (hs.reserved id s hfound)
    · rw [hnew.sessions] at hs'
      rcases Table.find?_insert_cases (h := hnew.fresh) hs' with ⟨rfl, rfl⟩ | ⟨-, hold⟩
      · intro hpos
        have hfresh : db.books.findKey (.hold id) = none := hb.fresh fun ⟨s, hs⟩ => by
          rw [hnew.fresh] at hs
          cases hs
        rcases hnew.booked with ⟨-, hbook⟩ | ⟨hnone, -⟩
        · exact hbook.entered hb.sound hfresh
        · exact absurd hpos hnone
      · exact Session.reserved_keeps h hb.sound rfl rfl (hs.reserved id s' hold)
    · rw [hend.sessions] at hs'
      rcases Table.find?_set_cases hs' with ⟨rfl, hnew, -⟩ | ⟨-, hold⟩
      · subst hnew
        exact Session.reserved_keeps h hb.sound hend.user hend.hold
          (hs.reserved id s₁ hend.found)
      · exact Session.reserved_keeps h hb.sound rfl rfl (hs.reserved id s' hold)
  closes id r hr := by
    have hpools : ∀ {pool : PoolId}, (db.pools.find? pool).isSome →
        (db'.pools.find? pool).isSome := by
      intro pool hpool
      obtain ⟨p, hp⟩ := Option.isSome_iff_exists.1 hpool
      obtain ⟨p', hp', -⟩ := h.pools.old hp
      rw [hp']
      rfl
    rcases h.settlement_cases hr with hold | ⟨hpool, hnew⟩
    · obtain ⟨hpool, s, hfound, hcloses⟩ := hs.closes id r hold
      obtain ⟨s', hs', hkeeps⟩ := h.sessions.old hfound
      refine ⟨hpools hpool, s', hs', ?_⟩
      rw [hkeeps.ended hcloses.ended]
      exact ⟨hcloses.ended, hcloses.pool, hcloses.charged, hcloses.hold⟩
    · exact ⟨hpools hpool, hnew⟩

/-- Every reachable database has its settlements in order. -/
theorem reachable_settled (h : Machine.Reachable (controlSystem env) db) : Settled env db :=
  reachable_of_booked_changes (fun _ => ⟨fun _ _ hs => (by cases hs), fun _ _ hr => (by cases hr)⟩)
    (fun _ _ _ _ hb hs hc => hc.settled hb hs) h

/-- An account that the entries of the journal move exists. -/
theorem Entered.isSome {books : Books} {key : BusinessKey} {entries : List (AccountId × Int)}
    {a : AccountId} (h : Entered env books key entries) (hs : books.Sound)
    (ha : Ledger.entrySum a entries ≠ 0) : (books.accounts.find? a).isSome := by
  obtain ⟨j, -, hlines⟩ := h
  have hline := Ledger.linesOf_of_entrySum_ne_zero env.accountLe ha
  have hmem : (⟨j, a, Ledger.entrySum a entries⟩ : JournalLine AccountId) ∈
      books.linesOfJournal j := by
    rw [hlines]
    exact List.mem_map.2 ⟨_, hline, rfl⟩
  exact (hs.owned _ (List.mem_of_mem_filter hmem)).2

/-! ### What a refund does -/

/-- **The consumption of a session is given back**: the accounts of the pool give back the parts of
the settlement, the consumer has the charge again, and no other account moves. -/
structure GivenBack (db db' : Db) (id : SessionId) (s : Settlement) (user : UserId) : Prop where
  working : db'.books.balance (.coopWorking s.poolId) =
    db.books.balance (.coopWorking s.poolId) - s.working
  reserve : db'.books.balance (.coopReserve s.poolId) =
    db.books.balance (.coopReserve s.poolId) - s.reserve
  burn : db'.books.balance (.coopBurn s.poolId) = db.books.balance (.coopBurn s.poolId) - s.burned
  consumer : db'.books.balance (.available user) = db.books.balance (.available user) + s.charge
  apart : ∀ a, a ≠ .coopWorking s.poolId → a ≠ .coopReserve s.poolId → a ≠ .coopBurn s.poolId →
    a ≠ .available user → db'.books.balance a = db.books.balance a
  first : db.refunds.find? id = none
  recorded : db'.refunds.find? id ≠ none

/-- What a settlement moved into an account is no debt. -/
theorem Settlement.into_nonneg (hparts : 0 ≤ s.working ∧ 0 ≤ s.reserve ∧ 0 ≤ s.burned)
    (a : AccountId) : 0 ≤ s.into a := by
  simp only [Settlement.into, Settlement.entries, Ledger.entrySum_cons, Ledger.entrySum_nil]
  split <;> split <;> split <;> omega

/-- **The part that was burned is always there**: the account of what a pool burned has what its
settlements burned and nobody gave back. -/
theorem burned_covered (h : Machine.Reachable (controlSystem env) db)
    (hs : db.settlements.find? id = some s) (hfirst : db.refunds.find? id = none) :
    s.burned ≤ db.books.balance (.coopBurn s.poolId) := by
  have hbooks := reachable_poolBooks h
  have hbalance := hbooks.balance (.coopBurn s.poolId) rfl
  rw [leasedFrom_burn, committedTo_burn] at hbalance
  have hpart : s.burned ≤ recycledInto db (.coopBurn s.poolId) := by
    have hinto : s.into (.coopBurn s.poolId) = s.burned := by
      simp [Settlement.into, Settlement.entries]
    refine le_trans (le_of_eq ?_) (Table.le_sum hs fun id' s' hs' => ?_)
    · rw [Settlement.kept, if_pos hfirst, hinto]
    · unfold Settlement.kept
      split
      · exact s'.into_nonneg (hbooks.parts id' s' (Table.find?_eq_some.2 hs')).2.2 _
      · exact le_rfl
  omega

/-- What the entries of a refund move. -/
theorem entrySum_refundEntries_eq (u : UserId) (s : Settlement) (a : AccountId) :
    Ledger.entrySum a (refundEntries u s) =
      (if .coopWorking s.poolId = a then -s.working else 0) +
        (if .coopReserve s.poolId = a then -s.reserve else 0) +
        (if .coopBurn s.poolId = a then -s.burned else 0) +
        (if .available u = a then s.charge else 0) := by
  simp only [refundEntries, Ledger.entrySum_cons, Ledger.entrySum_nil]
  ring

/-- A posting of the entries of a refund gives the consumption back. -/
theorem givenBack_of_booked {books : Books} {user : UserId}
    (hb : Booked env db.xid db.books (.coopRefund id) (refundEntries user s) books)
    (hfresh : db.books.findKey (.coopRefund id) = none) (hbooks : db'.books = books)
    (hfirst : db.refunds.find? id = none) (hrecorded : db'.refunds.find? id ≠ none) :
    GivenBack db db' id s user := by
  have hbalance : ∀ a, db'.books.balance a =
      db.books.balance a + Ledger.entrySum a (refundEntries user s) := by
    intro a
    rw [hbooks]
    exact hb.balance_of_fresh hfresh a
  refine ⟨?_, ?_, ?_, ?_, fun a hw hr hburn hu => ?_, hfirst, hrecorded⟩
  all_goals rw [hbalance, entrySum_refundEntries_eq]
  · simp [sub_eq_add_neg]
  · simp [sub_eq_add_neg]
  · simp [sub_eq_add_neg]
  · simp
  · simp [Ne.symm hw, Ne.symm hr, Ne.symm hburn, Ne.symm hu]

/-- A consumption that was given back stays so, and is given back no more. -/
theorem refund_recorded_run (hr : db.refunds.find? id ≠ none) (is : List (Tx × Request)) :
    ((controlSystem env).run db is).refunds.find? id ≠ none := by
  refine run_of_changes (P := fun db => db.refunds.find? id ≠ none)
    (fun req tx db db' hr h => ?_) hr is
  obtain ⟨r, hr⟩ := Option.ne_none_iff_exists'.1 hr
  obtain ⟨r', hr', -⟩ := h.frozen.2.2.2.old hr
  rw [hr']
  exact Option.some_ne_none _

/-- A request for a refund that was made has no effect. -/
theorem refund_noEffect (hr : db.refunds.find? id ≠ none) :
    NoEffect db ((controlSystem env).step (tx, .user caller (.refund id reason)) db) := by
  rcases user_step env tx db caller (.refund id reason) with hquiet | ⟨db₁, -, hrun, hstep⟩
  · exact hquiet
  · obtain ⟨-, _, _, -, -, ⟨-, rfl⟩ | ⟨hid, -⟩⟩ := refundConsumption_ok hrun
    · exact hstep ▸ rfl
    · exact absurd hid hr

/-- **A request for a refund** gives the consumption back, or has no effect. -/
theorem refund_step (tx : Tx) (caller : Actor) (reason : String)
    (h : Machine.Reachable (controlSystem env) db) (hs : db.settlements.find? id = some s)
    (hsession : db.sessions.find? id = some session) :
    NoEffect db ((controlSystem env).step (tx, .user caller (.refund id reason)) db) ∨
      GivenBack db ((controlSystem env).step (tx, .user caller (.refund id reason)) db) id s
        session.userId := by
  rcases user_step env tx db caller (.refund id reason) with hquiet | ⟨db₁, -, hrun, hstep⟩
  · exact .inl hquiet
  · rw [hstep]
    obtain ⟨-, session', s', hsession', hs', hcases⟩ := refundConsumption_ok hrun
    rw [hsession, Option.some.injEq] at hsession'
    rw [hs, Option.some.injEq] at hs'
    subst hsession' hs'
    rcases hcases with ⟨-, rfl⟩ | ⟨hid, r, books, hb, rfl⟩
    · exact .inl rfl
    · have hfresh : db.books.findKey (.coopRefund id) = none :=
        (reachable_booking h).fresh fun ⟨r, hr⟩ => by
          rw [hid] at hr
          cases hr
      refine .inr (givenBack_of_booked hb hfresh rfl hid ?_)
      show (db.refunds.insert id r hid).find? id ≠ none
      rw [Table.find?_insert_self]
      exact Option.some_ne_none _

/-! ### When a refund succeeds -/

/-- The identifier that a transaction draws for its entry is new. -/
def NewEntry (tx : Tx) (db : Db) : Prop :=
  db.books.journal.find? (tx.uuid 0) = none ∧ ∀ r ∈ db.refunds.rows, r.2.journalId ≠ tx.uuid 0

/-- **A refund that the accounts cover succeeds.**

**Proof sketch.** The key is new, as there is no refund yet. The accounts of the pool cover their
parts, the burn account among them in every reachable database, and the consumer's account exists
since the hold left it. So the posting is accepted, and the rows after it are written. -/
theorem refund_covered (reason : String) (h : Machine.Reachable (controlSystem env) db)
    (hs : db.settlements.find? id = some s) (hsession : db.sessions.find? id = some session)
    (hnew : NewEntry tx db) (hadmin : caller.role = .admin) (hfirst : db.refunds.find? id = none)
    (hworking : s.working ≤ db.books.balance (.coopWorking s.poolId))
    (hreserve : s.reserve ≤ db.books.balance (.coopReserve s.poolId))
    (hfits : db.books.balance (.available session.userId) + s.charge ≤ maxAmount) :
    ∃ db₁, refundConsumption env tx db caller id reason = .ok db₁ ∧ db₁.books.Sound ∧
      db₁.refunds.find? id ≠ none := by
  have hbooking := reachable_booking h
  obtain ⟨hcharge, hsum, hw, hr, hburned⟩ := (reachable_poolBooks h).parts id s hs
  obtain ⟨hpool, _, hsession', hcloses⟩ := (reachable_settled h).closes id s hs
  rw [hsession, Option.some.injEq] at hsession'
  subst hsession'
  obtain ⟨p, hp⟩ := Option.isSome_iff_exists.1 hpool
  have hconsumer := (reachable_balance h (a := .available session.userId) (by simp)).1
  have hburn := burned_covered h hs hfirst
  have hkey : db.books.findKey (.coopRefund id) = none := hbooking.fresh fun ⟨r, hr⟩ => by
    rw [hfirst] at hr
    cases hr
  -- the consumer's account exists since the hold left it, the others since they are not empty
  have hreserved := (reachable_settled h).reserved id session hsession
    (hcharge.trans_le hcloses.hold)
  have havailable : (db.books.accounts.find? (.available session.userId)).isSome := by
    refine hreserved.isSome hbooking.sound ?_
    have hhold := hcharge.trans_le hcloses.hold
    simp [reserveEntries]
    omega
  have hexists : ∀ a, 0 < db.books.balance a → (db.books.accounts.find? a).isSome := by
    intro a ha
    cases hrow : db.books.accounts.find? a with
    | some row => rfl
    | none =>
      rw [Ledger.balance_eq_zero hrow] at ha
      exact absurd ha (lt_irrefl 0)
  have hcovers : db.books.Covers (refundEntries session.userId s) := by
    refine Ledger.covers_of_entries (by simp [refundEntries]) fun e he hne => ?_
    simp only [refundEntries, List.mem_cons, List.not_mem_nil, or_false] at he
    have hpools : ∀ {a : AccountId} {part : Int}, a ≠ .issuer → 0 ≤ part → part ≤ s.charge →
        part ≤ db.books.balance a → -part ≠ 0 →
        (db.books.accounts.find? a).isSome ∧ 0 ≤ db.books.balance a + -part ∧
          db.books.balance a + -part ≤ maxAmount ∧ -part ≤ maxAmount ∧ -maxAmount ≤ -part := by
      intro a part ha hnonneg hle hcovered hne
      have hmax := (reachable_balance h ha).2
      exact ⟨hexists a (by omega), by omega, by omega, by omega, by omega⟩
    rcases he with rfl | rfl | rfl | rfl
    · exact hpools (by simp) hw (by omega) hworking hne
    · exact hpools (by simp) hr (by omega) hreserve hne
    · exact hpools (by simp) hburned (by omega) hburn hne
    · refine ⟨havailable, ?_⟩
      show 0 ≤ db.books.balance (.available session.userId) + s.charge ∧ _ ≤ maxAmount ∧
        s.charge ≤ maxAmount ∧ -maxAmount ≤ s.charge
      exact ⟨by omega, hfits, by omega, by omega⟩
  obtain ⟨books, hpost, hposted⟩ := Ledger.post_of_covers env.accountLe db.xid
    (tx.posting .cooperativeConsumptionRefund) (refundEntries session.userId s)
    (a := .available session.userId) hkey (hbooking.sound.unused hnew.1)
    (by simp [refundEntries]; omega) (by rw [entrySum_refundEntries_eq]; simp; omega) hcovers
  refine ⟨{ db with
    books
    refunds := db.refunds.insert id ⟨caller.id, reason, tx.uuid 0, tx.now⟩ hfirst
    sessions := db.sessions.set id { session with billingState := .refunded } }, ?_,
    hposted.sound hbooking.sound, ?_⟩
  · unfold refundConsumption Db.post
    rw [hfirst]
    simp only [Checked.bind_ok, needRow_ok, need_ok, constraint_ok, reference_ok, Checked.pure_ok,
      exists_const, Table.insert?_eq_some, Prod.exists, Prod.mk.injEq]
    exact ⟨hadmin, session, hsession, s, hs, p, hp, tx.uuid 0, _,
      ⟨_, _, hpost, rfl, rfl⟩, hnew.2, _, ⟨hfirst, rfl⟩, rfl⟩
  · rw [Table.find?_insert_self]
    exact Option.some_ne_none _

/-- A request of a user that succeeds on sound books is committed. -/
theorem user_step_of_ok {user : Actor} {r : UserRequest} (hauth : db.authenticated user = true)
    (h : performUser env tx db user r = .ok db') (hs : db'.books.Sound) :
    (controlSystem env).step (tx, .user user r) db = { db' with xid := db.xid + 1 } := by
  have htransaction : transaction env tx db (.user user r) = .ok db' := by
    simp only [transaction, perform, Checked.bind_ok, need_ok, Checked.pure_ok, exists_const]
    exact ⟨db', ⟨hauth, h⟩, (), hs.commit db.xid, rfl⟩
  show { Checked.settle (transaction env tx db (.user user r)) db with xid := db.xid + 1 } = _
  rw [htransaction, Checked.settle_ok]

/-- **Refunds are exact.** In every reachable database, a settlement closes a session with its
charge, and the part of it that was burned can be given back. A request for its refund either has no
effect, or takes the parts of the settlement out of the accounts of the pool and returns the charge
to the consumer, and no other account moves. It is made exactly when an administrator asks for the
first time, the working and the reserve account cover their parts, and the charge fits the account
of the consumer. Once it is made, no request in any run has an effect.

**Proof sketch.** A committed refund moves the entries of the settlement (`refund_step`), and the
balances that it leads to are not negative and within their range; this gives the condition. A
covered request commits (`refund_covered`). Once the refund is recorded, no later request finds it
missing. -/
theorem refund_exact (h : Machine.Reachable (controlSystem env) db)
    (hs : db.settlements.find? id = some s) :
    ∃ session, db.sessions.find? id = some session ∧ s.Closes session ∧
      s.charge = s.working + s.reserve + s.burned ∧
      (db.refunds.find? id = none → s.burned ≤ db.books.balance (.coopBurn s.poolId)) ∧
      ∀ tx caller reason db',
        db' = (controlSystem env).step (tx, .user caller (.refund id reason)) db →
        (NoEffect db db' ∨ GivenBack db db' id s session.userId) ∧
        (NewEntry tx db → (GivenBack db db' id s session.userId ↔
          caller.role = .admin ∧ db.authenticated caller = true ∧ db.refunds.find? id = none ∧
            s.working ≤ db.books.balance (.coopWorking s.poolId) ∧
            s.reserve ≤ db.books.balance (.coopReserve s.poolId) ∧
            db.books.balance (.available session.userId) + s.charge ≤ maxAmount)) ∧
        (GivenBack db db' id s session.userId → ∀ is tx' caller' reason',
          NoEffect ((controlSystem env).run db' is) ((controlSystem env).step
            (tx', .user caller' (.refund id reason')) ((controlSystem env).run db' is))) := by
  obtain ⟨-, session, hsession, hcloses⟩ := (reachable_settled h).closes id s hs
  obtain ⟨-, hsum, -⟩ := (reachable_poolBooks h).parts id s hs
  refine ⟨session, hsession, hcloses, hsum, burned_covered h hs,
    fun tx caller reason db' hdb' => ?_⟩
  subst hdb'
  have hreach : Machine.Reachable (controlSystem env)
      ((controlSystem env).step (tx, .user caller (.refund id reason)) db) := h.step _
  refine ⟨refund_step tx caller reason h hs hsession,
    fun hnew => ⟨fun hgiven => ?_, fun hcovered => ?_⟩,
    fun hgiven is tx' caller' reason' => ?_⟩
  · rcases user_step env tx db caller (.refund id reason) with
      hquiet | ⟨db₁, hauth, hrun, -⟩
    · have hsame : db.refunds.find? id ≠ none := by
        have hrecorded := hgiven.recorded
        rw [hquiet] at hrecorded
        exact hrecorded
      exact absurd hgiven.first hsame
    · have hworking := (reachable_balance hreach (a := .coopWorking s.poolId) (by simp)).1
      have hreserve := (reachable_balance hreach (a := .coopReserve s.poolId) (by simp)).1
      have hconsumer := (reachable_balance hreach (a := .available session.userId) (by simp)).2
      rw [hgiven.working] at hworking
      rw [hgiven.reserve] at hreserve
      rw [hgiven.consumer] at hconsumer
      exact ⟨(refundConsumption_ok hrun).1, hauth, hgiven.first, by omega, by omega, hconsumer⟩
  · obtain ⟨hadmin, hauth, hfirst, hworking, hreserve, hfits⟩ := hcovered
    obtain ⟨db₁, hrun, hsound, hrecorded⟩ :=
      refund_covered reason h hs hsession hnew hadmin hfirst hworking hreserve hfits
    have hstep := user_step_of_ok hauth (r := .refund id reason) hrun hsound
    rcases refund_step tx caller reason h hs hsession with
      hquiet | hgiven
    · have hkept := congrArg Db.refunds hquiet
      have hsame : db₁.refunds = db.refunds := (congrArg Db.refunds hstep).symm.trans hkept
      rw [hsame] at hrecorded
      exact absurd hfirst hrecorded
    · exact hgiven
  · exact refund_noEffect (refund_recorded_run hgiven.recorded is)

/-- The administrator of the laboratory gives the consumption of the session `41000` back. -/
theorem refund_exact_lab :
    ∃ (s : Settlement) (session : Session),
      (labDb (labSetup ++ labPlan ++ labWork)).settlements.find? 41000 = some s ∧
      GivenBack (labDb (labSetup ++ labPlan ++ labWork))
        ((controlSystem labEnv).step (labTx 71 20000, .user labAdmin (.refund 41000 "r"))
          (labDb (labSetup ++ labPlan ++ labWork))) 41000 s session.userId := by
  have hlab : ((labDb (labSetup ++ labPlan ++ labWork)).settlements.find? 41000).isSome ∧
      ((labDb (labSetup ++ labPlan ++ labWork)).books.journal.find? 71000 = none ∧
        ∀ r ∈ (labDb (labSetup ++ labPlan ++ labWork)).refunds.rows, r.2.journalId ≠ 71000) ∧
      (labDb (labSetup ++ labPlan ++ labWork)).authenticated labAdmin = true ∧
      (labDb (labSetup ++ labPlan ++ labWork)).refunds.find? 41000 = none ∧
      ∀ s ∈ (labDb (labSetup ++ labPlan ++ labWork)).settlements.find? 41000,
        ∀ session ∈ (labDb (labSetup ++ labPlan ++ labWork)).sessions.find? 41000,
          s.working ≤ (labDb (labSetup ++ labPlan ++ labWork)).books.balance
            (.coopWorking s.poolId) ∧
          s.reserve ≤ (labDb (labSetup ++ labPlan ++ labWork)).books.balance
            (.coopReserve s.poolId) ∧
          (labDb (labSetup ++ labPlan ++ labWork)).books.balance (.available session.userId) +
            s.charge ≤ maxAmount := by decide +kernel
  obtain ⟨hsettled, hnew, hauth, hfirst, hcovered⟩ := hlab
  obtain ⟨s, hs⟩ := Option.isSome_iff_exists.1 hsettled
  obtain ⟨session, hsession, -, -, -, hrefund⟩ := refund_exact (reachable_lab _) hs
  obtain ⟨-, hmade, -⟩ := hrefund (labTx 71 20000) labAdmin "r" _ rfl
  exact ⟨s, session, hs, (hmade hnew).2 ⟨rfl, hauth, hfirst, hcovered s hs session hsession⟩⟩

end NetworkAi
