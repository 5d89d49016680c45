import NetworkAi.Invariants.HeldFunds
import NetworkAi.Invariants.Participants

set_option relaxedAutoImplicit false
set_option autoImplicit false

/-!
# Payouts of routes

A charge on a route that no pool covers is divided among the participants by their shares, after
the fee of the laboratory. The parts are written into the rows of the participants and into the
journal in one transaction; a session that is not settled this way has paid nobody.

## Main definitions

* `NetworkAi.Session.roles` — the entries of a settlement, one for each role.
* `NetworkAi.Session.roleSum` — what the roles of one account sum to.
* `NetworkAi.Session.Paid` — the participants of a session have been paid as its state says.

## Main results

* `NetworkAi.Session.Step.paid` — a step of a session keeps what its participants were paid, or
  settles it.
* `NetworkAi.route_payouts` — the invariant of payouts.
-/

namespace NetworkAi

open Relational

variable {env : Env} {req : Request} {tx t : Tx} {db db' : Db} {id : SessionId} {s s' : Session}

/-! ### Roles -/

/-- The fee of a charge. -/
def Session.fee (s : Session) : Int := s.charged * 2000 / 10000

/-- The entries of the settlement of a route, one for each role: the hold leaves the held account,
what is not charged returns to the user, every participant is paid, and the laboratory takes its
fee. -/
def Session.roles (s : Session) : List (AccountId × Int) :=
  holdEntries s s.charged ++
    (s.participants.map (fun p => (.available p.providerId, p.paid)) ++ [(.labWorking, s.fee)])

/-- What the roles of one account in the settlement of a route sum to. -/
def Session.roleSum (s : Session) (a : AccountId) : Int :=
  (if a = .held s.userId then -s.hold else 0) +
    (if a = .available s.userId then s.hold - s.charged else 0) +
    (s.participants.map fun p => if a = .available p.providerId then p.paid else 0).sum +
    (if a = .labWorking then s.fee else 0)

/-- What an account is paid by the participants that name it. -/
theorem entrySum_map_paid (a : AccountId) (ps : List SessionParticipant) :
    Ledger.entrySum a (ps.map fun p => (.available p.providerId, p.paid)) =
      (ps.map fun p => if a = .available p.providerId then p.paid else 0).sum := by
  induction ps with
  | nil => rfl
  | cons p ps ih =>
    rw [List.map_cons, List.map_cons, List.sum_cons, Ledger.entrySum_cons, ih]
    by_cases hp : a = .available p.providerId
    · rw [if_pos hp, if_pos hp.symm]
    · rw [if_neg hp, if_neg (Ne.symm hp)]

/-- The entries of a settlement, combined. -/
theorem Session.entrySum_roles (s : Session) (a : AccountId) :
    Ledger.entrySum a s.roles = s.roleSum a := by
  unfold roles roleSum holdEntries
  rw [Ledger.entrySum_append, Ledger.entrySum_append, entrySum_map_paid]
  simp only [Ledger.entrySum_cons, Ledger.entrySum_nil, eq_comm (b := a), add_zero]
  ring

/-! ### The invariant -/

/-- **The participants of a session have been paid** as its billing state says: by their shares
when it is settled on a route that no pool covers, and otherwise not at all. -/
structure Session.Paid (env : Env) (books : Books) (id : SessionId) (s : Session) : Prop where
  live : s.state.terminal = false → s.billingState = .held ∧ ∀ p ∈ s.participants, p.paid = 0
  unpaid : s.billingState ≠ .settled ∨ s.cooperativePoolId.isSome → ∀ p ∈ s.participants, p.paid = 0
  settled : s.routeId.isSome → s.cooperativePoolId = none → s.billingState = .settled →
    splitByBps (s.charged - s.fee) (s.participants.map (·.shareBps)) =
        .ok (s.participants.map (·.paid)) ∧
      Entered env books (.settle id) s.roles

/-- The participants of every session have been paid, and only ended sessions of pools have
settlements. -/
structure Payouts (env : Env) (db : Db) : Prop where
  paid : ∀ id s, db.sessions.find? id = some s → s.Paid env db.books id
  settlements : ∀ id row, db.settlements.find? id = some row → ∃ s,
    db.sessions.find? id = some s ∧ s.cooperativePoolId.isSome ∧ s.state.terminal = true

/-- A session that has nothing to pay yet, or that ended without paying. -/
theorem Session.Paid.of_unpaid {books : Books}
    (hlive : s.state.terminal = false → s.billingState = .held)
    (hsettled : s.routeId.isSome → s.cooperativePoolId = none → s.billingState ≠ .settled)
    (hzero : ∀ p ∈ s.participants, p.paid = 0) : s.Paid env books id where
  live ht := ⟨hlive ht, hzero⟩
  unpaid _ := hzero
  settled hroute hpool hbilling := absurd hbilling (hsettled hroute hpool)

/-- Participants with the same frozen parts are paid alike. -/
theorem paid_zero_of_frozen {ps ps' : List SessionParticipant}
    (h : ps'.map (·.frozen) = ps.map (·.frozen)) (hzero : ∀ p ∈ ps, p.paid = 0) :
    ∀ p ∈ ps', p.paid = 0 := by
  intro p hp
  have hmem : p.frozen ∈ ps.map (·.frozen) := h ▸ List.mem_map_of_mem hp
  obtain ⟨q, hq, hfrozen⟩ := List.mem_map.1 hmem
  have hpaid : q.paid = p.paid := congrArg FrozenParticipant.paid hfrozen
  rw [← hpaid]
  exact hzero q hq

/-- The payments are what the participants are paid. -/
theorem map_paid_payParticipants {ps : List SessionParticipant} {payments : List Int}
    (hlength : payments.length = ps.length) :
    (payParticipants ps payments).map (·.paid) = payments := by
  unfold payParticipants
  rw [List.map_zipWith, ← List.map_uncurry_zip_eq_zipWith]
  exact List.map_snd_zip hlength.le

/-! ### Steps -/

/-- A session that is created has paid nobody. -/
theorem newSession_paid {books : Books} (t : Tx) (user : UserId) (d : CreateRequest)
    (quote : Quote) : (newSession t user d quote).Paid env books id :=
  .of_unpaid (fun _ => rfl) (fun _ _ h => by cases h) (fun p hp => by cases hp)

/-- An admission pays nobody. -/
theorem Admitted.paid {o : Offer} {books books' : Books} (h : Admitted t db s o s')
    (hp : s.Placed db.registry) (hs : s.Paid env books id) : s'.Paid env books' id := by
  have hlive : s.state.terminal = false := by rw [h.queued]; rfl
  have hbilling : s'.billingState = .held := by
    rw [h.row]
    exact (hs.live hlive).1
  obtain ⟨members, hmembers, hps⟩ := h.members
  rw [(hp.queued h.queued).2.2, List.nil_append] at hps
  refine .of_unpaid (fun _ => hbilling) (fun _ _ hsettled => ?_) fun p hpmem => ?_
  · rw [hbilling] at hsettled
    cases hsettled
  · rw [hps] at hpmem
    exact ((admitMembers_ok hmembers).2 p hpmem).2.1

/-- An update pays nobody. -/
theorem Session.Continues.paid {books books' : Books} (h : s.Continues s')
    (hs : s.Paid env books id) : s'.Paid env books' id := by
  obtain ⟨hheld, hzero⟩ := hs.live h.live
  have hbilling : s'.billingState = .held := by
    rw [h.row]
    exact hheld
  refine .of_unpaid (fun _ => hbilling) (fun _ _ hsettled => ?_) fun p hp => ?_
  · rw [hbilling] at hsettled
    cases hsettled
  · exact paid_zero_of_frozen h.participants hzero p hp

/-- A session whose end pays nobody: it is not charged, or a pool or a single node takes the
charge. -/
theorem Session.Paid.finished {books : Books} {state : ReceiptState} {charge : Int}
    {error : Option String} {billing : Option BillingState}
    (hzero : ∀ p ∈ s.participants, p.paid = 0)
    (hbilling : s.routeId.isSome → s.cooperativePoolId = none →
      charge ≤ 0 ∧ (billing = none ∨ billing = some .disputed)) :
    (s.finished t state charge error billing).Paid env books id := by
  refine .of_unpaid (fun hlive => ?_) (fun hroute hpool hsettled => ?_) hzero
  · cases state <;> cases hlive
  · obtain ⟨hfree, hbilling⟩ := hbilling hroute hpool
    have hsettled : billing.getD (if 0 < charge then .settled else .refunded) = .settled := hsettled
    rw [if_neg (not_lt.2 hfree)] at hsettled
    rcases hbilling with rfl | rfl <;> cases hsettled

/-- **The end of a session** pays its participants when it is settled on a route, and nobody
otherwise.

**Proof sketch.** By the division. Only that of a route writes payments, which are the parts of the
charge by the shares of the participants; its billing state is settled, and the others leave the
payments at zero. -/
theorem Split.paid {state : ReceiptState} {charge : Int} {error : Option String}
    {billing : Option BillingState} {entries : List (AccountId × Int)}
    {settlements : Table SessionId Settlement} {books : Books}
    (hsplit : Split db id s charge entries s' settlements)
    (hbilling : billing = none ∨ billing = some .disputed)
    (hpaid : 0 < charge → Payable t db s state charge billing)
    (hentered : 0 < charge → Entered env books (.settle id) (holdEntries s charge ++ entries))
    (hzero : ∀ p ∈ s.participants, p.paid = 0) :
    (s'.finished t state charge error billing).Paid env books id := by
  cases hsplit with
  | free hfree => exact .finished hzero fun _ _ => ⟨hfree, hbilling⟩
  | recycled _ hpool =>
    refine .finished hzero fun _ hnone => ?_
    rw [hpool] at hnone
    cases hnone
  | node _ _ hroute =>
    refine .finished hzero fun hsome _ => ?_
    rw [hroute] at hsome
    cases hsome
  | @route payments hpos hpool hroute hpay =>
    have hlength := length_splitByBps hpay
    rw [List.length_map] at hlength
    have hstate : billing.getD (if 0 < charge then .settled else .refunded) = .settled := by
      rw [(hpaid hpos).billing, if_pos hpos]
      rfl
    refine ⟨fun hlive => ?_, fun hfree => ?_, fun _ _ _ => ⟨?_, hentered hpos⟩⟩
    · cases state <;> cases hlive
    · rcases hfree with hfree | hsome
      · exact absurd hstate hfree
      · have hsome : s.cooperativePoolId.isSome := hsome
        rw [hpool] at hsome
        cases hsome
    · show splitByBps (charge - charge * 2000 / 10000)
        ((payParticipants s.participants payments).map (·.shareBps)) =
        .ok ((payParticipants s.participants payments).map (·.paid))
      rw [map_paid_payParticipants hlength, map_payParticipants (fun _ _ => rfl) hlength]
      exact hpay

/-- **A step of a session** keeps what its participants were paid, or settles it. -/
theorem Session.Step.paid (h : s.Step env req db db' id s') (hb : Booking db)
    (hs : db.sessions.find? id = some s) (hplaced : s.Placed db.registry) (hp : Payouts env db)
    (hkept : ∀ entries, Entered env db.books (.settle id) entries →
      Entered env db'.books (.settle id) entries) : s'.Paid env db'.books id := by
  have hpaid := hp.paid id s hs
  cases h with
  | same =>
    exact ⟨hpaid.live, hpaid.unpaid, fun hroute hpool hsettled =>
      (hpaid.settled hroute hpool hsettled).imp_right (hkept _)⟩
  | admitted h => exact h.paid hplaced hpaid
  | updated h => exact h.continues.paid hpaid
  | finalized hreport hlive hcharge hbilling hpay hsplit hbook =>
    refine hsplit.paid hbilling hpay (fun hpos => ?_) ?_
    · have hfresh : db.books.findKey (.settle id) = none := hb.fresh fun ⟨s₁, hs₁, ht⟩ => by
        rw [hs, Option.some.injEq] at hs₁
        rw [← hs₁, hlive] at ht
        cases ht
      rcases hbook with ⟨-, hbooked⟩ | ⟨hfree, -⟩
      · exact hbooked.entered hb.sound hfresh
      · omega
    · rw [hreport.row]
      exact (hpaid.live hlive).2
  | refunded hrow =>
    -- only the consumption of a pool is given back, and a pool's session paid nobody
    obtain ⟨s₁, hs₁, hpool, hended⟩ := hp.settlements id _ hrow
    rw [hs, Option.some.injEq] at hs₁
    subst hs₁
    refine .of_unpaid (fun hlive => ?_) (fun _ _ hsettled => by cases hsettled)
      (hpaid.unpaid (.inr hpool))
    have hlive : s.state.terminal = false := hlive
    rw [hended] at hlive
    cases hlive

/-- **A settlement closes its session**: the session has ended with the charge of the settlement,
which its hold covers, and the pool of the settlement paid for it. -/
structure Settlement.Closes (r : Settlement) (s : Session) : Prop where
  ended : s.state.terminal = true
  pool : s.cooperativePoolId = some r.poolId
  charged : s.charged = r.charge
  hold : r.charge ≤ s.hold

/-- A settlement after a change is an old one, or that of a pool's session that ended. -/
theorem Change.settlement_cases (h : Change env req tx db db') {row : Settlement}
    (hrow : db'.settlements.find? id = some row) :
    db.settlements.find? id = some row ∨ (db.pools.find? row.poolId).isSome ∧
      ∃ s, db'.sessions.find? id = some s ∧ row.Closes s := by
  rcases h with h | h
  · cases h with
    | @sessionFinalized t id' s₀ s s' state charge error billing entries settlements books hs
        hreport hlive hcharge hbilling hpaid hsplit hb htimely hrecorded =>
      have hcases := hsplit
      cases hcases with
      | free | route | node => exact .inl hrow
      | recycled _ hpool _ hrcharge _ _ hid =>
        have hrow' := hrow
        rcases Table.find?_insert_cases (h := hid) hrow with ⟨rfl, rfl⟩ | ⟨-, hold⟩
        · refine .inr ⟨(hrecorded _ hrow' hid).pool, _, Table.find?_set_self hs, ?_⟩
          exact ⟨by cases state <;> rfl, hpool, hrcharge.symm, hrcharge ▸ hcharge.2⟩
        · exact .inl hold
    | _ => exact .inl hrow
  · cases h <;> exact .inl hrow

/-- **Every change keeps the invariant of payouts.** -/
theorem Change.payouts (h : Change env req tx db db') (hb : Booking db) (hplaced : Placements db)
    (hp : Payouts env db) : Payouts env db' where
  paid id s' hs' := by
    rcases h.session_cases hs' with ⟨-, t, user, d, quote, -, rfl⟩ | ⟨s, hs, hstep⟩
    · exact newSession_paid t user d quote
    · exact hstep.paid hb hs (hplaced id s hs) hp fun _ => h.entered hb.sound
  settlements id row hrow := by
    rcases h.settlement_cases hrow with hold | hnew
    · obtain ⟨s, hs, hpool, hended⟩ := hp.settlements id row hold
      obtain ⟨s', hs', hkeeps⟩ := h.sessions.old hs
      exact ⟨s', hs', by rw [hkeeps.pool]; exact hpool, by rw [hkeeps.ended hended]; exact hended⟩
    · obtain ⟨-, s, hs, hcloses⟩ := hnew
      exact ⟨s, hs, by rw [hcloses.pool]; rfl, hcloses.ended⟩

/-- An empty database has paid nobody. -/
theorem initial_payouts (env : Env) (admin : UserId) : Payouts env (Db.initial admin) where
  paid _ _ hs := by cases hs
  settlements _ _ hrow := by cases hrow

/-- Every reachable database has its payouts in order. -/
theorem reachable_payouts (h : Machine.Reachable (controlSystem env) db) : Payouts env db :=
  (reachable_of_booked_changes (P := fun db => Placements db ∧ Payouts env db)
    (fun admin => ⟨fun _ _ hs => (by cases hs), initial_payouts env admin⟩)
    (fun _ _ _ _ hb hp hc => ⟨hc.placements hp.1, hc.payouts hb hp.1 hp.2⟩) h).2

/-! ### Settled routes -/

/-- **How a route is settled**: its participants are the members of the route in the order of their
ordinals, their payments are the rounded prefixes of what the fee leaves of the charge, and the
journal entry of the settlement has one line for each account, the sum of the roles of the account,
or none where this sum is zero. -/
structure RouteSettled (env : Env) (db : Db) (id : SessionId) (s : Session) (e : ExecutionRoute)
    (j : JournalId) : Prop where
  members : s.participants.map (·.member) = e.members
  ordinals : s.participants.map (·.ordinal) = List.range s.participants.length
  split : splitByBps (s.charged - s.charged * 2000 / 10000) (s.participants.map (·.shareBps)) =
    .ok (s.participants.map (·.paid))
  prefixes : ∀ k, ((s.participants.map (·.paid)).take k).sum =
    (s.charged - s.charged * 2000 / 10000) *
      (((s.participants.map (·.shareBps)).take k).sum : Nat) / 10000
  nonneg : ∀ p ∈ s.participants, 0 ≤ p.paid
  total : (s.participants.map (·.paid)).sum = s.charged - s.charged * 2000 / 10000
  key : db.books.findKey (.settle id) = some j
  lines : ∀ a, (db.books.linesOfJournal j).filter (fun l => l.accountId = a) =
    if s.roleSum a = 0 then [] else [⟨j, a, s.roleSum a⟩]

/-- The lines of a journal entry on one account. -/
theorem filter_storedLines_linesOf (j : JournalId) (entries : List (AccountId × Int))
    (a : AccountId) :
    (Ledger.storedLines j (Ledger.linesOf env.accountLe entries)).filter
        (fun l => l.accountId = a) =
      if Ledger.entrySum a entries = 0 then [] else [⟨j, a, Ledger.entrySum a entries⟩] := by
  rw [filter_storedLines, Ledger.filter_linesOf]
  split <;> rfl

/-- A session that is settled on a route that no pool covers. -/
theorem Session.Paid.routeSettled (h : s.Paid env db.books id) (hplaced : s.Placed db.registry)
    {route : RouteId} (hroute : s.routeId = some route) (hpool : s.cooperativePoolId = none)
    (hbilling : s.billingState = .settled) :
    ∃ e j, db.registry.routes.find? route = some e ∧ RouteSettled env db id s e j := by
  obtain ⟨e, -, he, -, hmembers, -⟩ := hplaced.route route hroute
  obtain ⟨hsplit, j, hkey, hlines⟩ := h.settled (by rw [hroute]; rfl) hpool hbilling
  refine ⟨e, j, he, hmembers, ?_, hsplit, splitByBps_take hsplit, fun p hp => ?_,
    splitByBps_sum hsplit, hkey, fun a => ?_⟩
  · have hlength := congrArg List.length hmembers
    rw [List.length_map] at hlength
    have hordinals := congrArg (List.map (·.ordinal)) hmembers
    rw [List.map_map, e.complete.ordinals, ← hlength] at hordinals
    exact hordinals
  · exact splitByBps_nonneg hsplit _ (List.mem_map_of_mem hp)
  · rw [hlines, filter_storedLines_linesOf, s.entrySum_roles]

/-- **Route payouts.** In every reachable database, a session that is settled on a route that no
pool covers has divided its charge, after the fee, by the shares of the route, and its settlement
moves on each account the sum of the roles of the account; every other session, and every session
of a pool, has paid its participants nothing.

**Proof sketch.** From the invariant of payouts, whose participants and shares are those of the
route, as the placement of the session says. -/
theorem route_payouts (h : Machine.Reachable (controlSystem env) db)
    (hs : db.sessions.find? id = some s) :
    (∀ route, s.routeId = some route → s.cooperativePoolId = none → s.billingState = .settled →
      ∃ e j, db.registry.routes.find? route = some e ∧ RouteSettled env db id s e j) ∧
      (s.billingState ≠ .settled ∨ s.cooperativePoolId.isSome →
        ∀ p ∈ s.participants, p.paid = 0) := by
  have hpaid := (reachable_payouts h).paid id s hs
  refine ⟨fun route hroute hpool hbilling => ?_, hpaid.unpaid⟩
  exact hpaid.routeSettled (reachable_placed h id s hs) hroute hpool hbilling

/-- The administrator of the laboratory consumes the route of its own nodes. -/
def labOwn : List (Tx × Request) := [
    (labTx 27 0, .background (.bootstrap 0)),
    (labTx 30 0, .user labAdmin (.quote ⟨"m", 16, none⟩)),
    (labTx 31 0, .user labAdmin (.createSession ⟨30000, "k", "s", 10, "m", 16, 10, 1⟩))] ++
  labStart 30 0 ++ labReceipts 30 0

/-- One owner is the consumer and both participants: the charge of 110 returns to it but for the
fee. -/
theorem route_payouts_lab : ∃ s e j,
    (labDb (labSetup ++ labOwn)).sessions.find? 31000 = some s ∧ s.charged = 110 ∧
      s.participants.map (fun p => (p.providerId, p.paid)) = [(0, 44), (0, 44)] ∧ s.userId = 0 ∧
      s.roleSum (.available 0) = 234 ∧ s.roleSum .labWorking = 22 ∧
      RouteSettled labEnv (labDb (labSetup ++ labOwn)) 31000 s e j := by
  have hfacts : ((labDb (labSetup ++ labOwn)).sessions.find? 31000).map (fun s =>
        (s.charged, s.participants.map fun p => (p.providerId, p.paid))) =
          some (110, [(0, 44), (0, 44)]) ∧
      ((labDb (labSetup ++ labOwn)).sessions.find? 31000).map (fun s =>
        (s.userId, s.roleSum (.available 0), s.roleSum .labWorking)) = some (0, 234, 22) ∧
      ((labDb (labSetup ++ labOwn)).sessions.find? 31000).map (fun s =>
        (s.routeId, s.cooperativePoolId, s.billingState)) =
        some (some 19000, none, .settled) := by
    decide +kernel
  obtain ⟨hpaid, hroles, hroute⟩ := hfacts
  obtain ⟨s, hs, hpaid⟩ := Option.map_eq_some_iff.1 hpaid
  rw [hs, Option.map_some] at hroles hroute
  simp only [Option.some.injEq, Prod.mk.injEq] at hpaid hroles hroute
  obtain ⟨hcharged, hpaid⟩ := hpaid
  obtain ⟨huser, havailable, hfee⟩ := hroles
  obtain ⟨hroute, hpool, hbilling⟩ := hroute
  obtain ⟨e, j, -, hsettled⟩ :=
    (route_payouts (reachable_lab (labSetup ++ labOwn)) hs).1 19000 hroute hpool hbilling
  exact ⟨s, e, j, hs, hcharged, hpaid, huser, havailable, hfee, hsettled⟩

end NetworkAi
