import NetworkAi.Invariants.HeldFunds

set_option relaxedAutoImplicit false
set_option autoImplicit false

/-!
# Expansions rest on demand

A window that expands the coverage of a pool is opened only by an attempt of a renewal, and only
while the pool keeps its floor and its reserve, the sponsor has a contract to spare, and a funded
request of an independent consumer waits. The request is consumed with the window: it is recorded,
once and for all, as the demand of this window and of no other.

## Main definitions

* `NetworkAi.Elsewhere` — what the acceptance of a window and its authority leave alone.
* `NetworkAi.Classified` — a user belongs to a party at a time.
* `NetworkAi.SafeExpansion` — what holds of an expansion at its commit.

## Main results

* `NetworkAi.openRenewal_expansion` — the renewal that opens an expansion.
* `NetworkAi.attempt_opens` — the attempt that makes it, with the gates it has passed.
* `NetworkAi.reachable_demands`, `NetworkAi.reachable_onlyOne` — demands and parties are unique.
* `NetworkAi.expansion_safety` — the safety of expansions, over every run.
-/

namespace NetworkAi

open Relational

variable {env : Env} {req : Request} {tx t : Tx} {db db' db₁ db₂ : Db} {id : LeaseId}

/-! ### What the acceptance of a window leaves alone -/

/-- **Elsewhere** than at one window, its claims and its authority, nothing has changed, and the
window has kept its sponsor, its route and its budget. -/
structure Elsewhere (id : LeaseId) (db db' : Db) : Prop where
  books : db'.books = db.books
  registry : db'.registry = db.registry
  pools : db'.pools = db.pools
  windows : db'.windows = db.windows
  incidents : db'.incidents = db.incidents
  sessions : db'.sessions = db.sessions
  affiliations : db'.affiliations = db.affiliations
  nodeLeases : db'.nodeLeases = db.nodeLeases
  others : db'.routeLeases.without id = db.routeLeases.without id
  lease : ∀ l, db.routeLeases.find? id = some l → ∃ l', db'.routeLeases.find? id = some l' ∧
    l'.sponsorId = l.sponsorId ∧ l'.routeId = l.routeId ∧ l'.budget = l.budget

namespace Elsewhere

/-- Nothing happens elsewhere. -/
theorem refl (id : LeaseId) (db : Db) : Elsewhere id db db :=
  ⟨rfl, rfl, rfl, rfl, rfl, rfl, rfl, rfl, rfl, fun l hl => ⟨l, hl, rfl, rfl, rfl⟩⟩

/-- What happens elsewhere after what happened elsewhere. -/
theorem trans (h₁ : Elsewhere id db db₁) (h₂ : Elsewhere id db₁ db₂) : Elsewhere id db db₂ where
  books := h₂.books.trans h₁.books
  registry := h₂.registry.trans h₁.registry
  pools := h₂.pools.trans h₁.pools
  windows := h₂.windows.trans h₁.windows
  incidents := h₂.incidents.trans h₁.incidents
  sessions := h₂.sessions.trans h₁.sessions
  affiliations := h₂.affiliations.trans h₁.affiliations
  nodeLeases := h₂.nodeLeases.trans h₁.nodeLeases
  others := h₂.others.trans h₁.others
  lease l hl := by
    obtain ⟨l₁, hl₁, hsponsor₁, hroute₁, hbudget₁⟩ := h₁.lease l hl
    obtain ⟨l₂, hl₂, hsponsor₂, hroute₂, hbudget₂⟩ := h₂.lease l₁ hl₁
    exact ⟨l₂, hl₂, hsponsor₂.trans hsponsor₁, hroute₂.trans hroute₁, hbudget₂.trans hbudget₁⟩

/-- A write to the window itself. -/
theorem of_set {row l : RouteLease} {claims : Table DomainId ClaimOwner}
    (hrow : db.routeLeases.find? id = some row) (hsponsor : l.sponsorId = row.sponsorId)
    (hroute : l.routeId = row.routeId) (hbudget : l.budget = row.budget) :
    Elsewhere id db { db with routeLeases := db.routeLeases.set id l, claims } := by
  refine ⟨rfl, rfl, rfl, rfl, rfl, rfl, rfl, rfl, Table.without_set _ _ _, fun l₁ hl₁ => ?_⟩
  rw [hrow, Option.some.injEq] at hl₁
  subst hl₁
  exact ⟨l, Table.find?_set_self hrow, hsponsor, hroute, hbudget⟩

end Elsewhere

/-- An acceptance of a window happens elsewhere. -/
theorem acceptRouteTransaction_elsewhere {user : UserId} {sha : String}
    {mandate : Option MandateId} (h : acceptRouteTransaction t db user id sha mandate = .ok db') :
    Elsewhere id db db' := by
  unfold acceptRouteTransaction at h
  simp only [Checked.bind_ok, needRow_ok, need_ok, exists_const] at h
  obtain ⟨row, hrow, -, -, h⟩ := h
  split at h
  · simp only [Checked.pure_ok] at h
    exact h ▸ .refl id db
  simp only [Checked.bind_ok, need_ok, exists_const] at h
  obtain ⟨⟨hstate, -⟩, h⟩ := h
  obtain ⟨acceptances, haccepting, -⟩ := row.accepting_mem user sha mandate
  rw [haccepting] at h
  split at h
  · simp only [Checked.pure_ok] at h
    exact h ▸ .of_set hrow rfl rfl rfl
  unfold activateRoute at h
  simp only [Checked.bind_ok, need_ok, exists_const] at h
  obtain ⟨-, -, observation, -, -, hupdate⟩ := h
  obtain ⟨claims, -, rfl⟩ := Db.updateRouteLease_starts hupdate (by rw [hstate]; rfl) rfl
  exact .of_set hrow rfl rfl rfl

/-- The consumption of an authorization happens elsewhere. -/
theorem consumeRenewalAuthority_elsewhere {lease : LeaseId} {run : RenewalRun}
    (h : consumeRenewalAuthority t db lease run = .ok db') : Elsewhere id db db' := by
  unfold consumeRenewalAuthority at h
  simp only [Checked.bind_ok, constraint_ok, reference_ok, Checked.pure_ok, exists_const] at h
  obtain ⟨a, -, l, -, w, -, -, -, -, -, -, -, runs, -, rfl⟩ := h
  exact ⟨rfl, rfl, rfl, rfl, rfl, rfl, rfl, rfl, rfl, fun l hl => ⟨l, hl, rfl, rfl, rfl⟩⟩

/-- An authorization commits the budget of the window that it opens, out of its source. -/
theorem consumeRenewalAuthority_window {lease : LeaseId} {run : RenewalRun}
    (h : consumeRenewalAuthority t db lease run = .ok db') :
    ∃ l w, db.routeLeases.find? lease = some l ∧ db.windows.find? lease = some w ∧
      l.budget = run.committed ∧ w.source = run.source := by
  unfold consumeRenewalAuthority at h
  simp only [Checked.bind_ok, constraint_ok, reference_ok, exists_const] at h
  obtain ⟨a, -, l, hl, w, hw, -, -, -, -, hcovers, -⟩ := h
  simp only [authorityCovers, Bool.decide_and, Bool.and_eq_true, decide_eq_true_eq] at hcovers
  obtain ⟨-, -, -, -, -, -, -, -, hsource, hcommitted, -⟩ := hcovers
  exact ⟨l, w, hl, hw, hcommitted.symm, hsource.symm⟩

/-- The consumption of a mandate happens elsewhere. -/
theorem consumeProviderMandate_elsewhere {lease : LeaseId} {provider : UserId}
    {usage : MandateUsage} (h : consumeProviderMandate t db lease provider usage = .ok db') :
    Elsewhere id db db' := by
  unfold consumeProviderMandate at h
  simp only [Checked.bind_ok, constraint_ok, reference_ok, Checked.pure_ok, exists_const] at h
  obtain ⟨m, -, l, -, w, -, -, -, -, -, usages, -, rfl⟩ := h
  exact ⟨rfl, rfl, rfl, rfl, rfl, rfl, rfl, rfl, rfl, fun l hl => ⟨l, hl, rfl, rfl, rfl⟩⟩

/-! ### What an expansion leaves alone -/

/-- The windows of a pool after an expansion: the old ones, and expansions. -/
theorem poolWindows_expanded {w : CoopWindow} (hid : db.windows.find? id = none)
    (hwindows : db'.windows = db.windows.insert id w hid) (hkind : w.kind = .expansion)
    (hothers : db'.routeLeases.without id = db.routeLeases) (pool : PoolId) :
    ∃ tail, poolWindows db' pool = poolWindows db pool ++ tail ∧
      ∀ x ∈ tail, x.2.1.kind = .expansion := by
  let read : LeaseId × CoopWindow → Option (LeaseId × CoopWindow × RouteLease) := fun w =>
    if w.2.poolId = pool then (db'.routeLeases.find? w.1).map fun l => (w.1, w.2, l) else none
  refine ⟨[(id, w)].filterMap read, ?_, fun x hx => ?_⟩
  · have hold : db.windows.rows.filterMap read = poolWindows db pool := by
      refine List.filterMap_congr fun r hr => ?_
      have hne : r.1 ≠ id := fun e => Table.find?_eq_none.1 hid (e ▸ List.mem_map_of_mem hr)
      have hsame : db'.routeLeases.find? r.1 = db.routeLeases.find? r.1 := by
        rw [← hothers, Table.find?_without_ne hne]
      simp only [read, hsame]
    calc poolWindows db' pool = (db.windows.rows ++ [(id, w)]).filterMap read := by
          unfold poolWindows
          rw [hwindows]
          rfl
      _ = poolWindows db pool ++ [(id, w)].filterMap read := by
          rw [List.filterMap_append, hold]
  · obtain ⟨r, hr, hread⟩ := List.mem_filterMap.1 hx
    obtain rfl := List.mem_singleton.1 hr
    simp only [read] at hread
    split at hread
    · obtain ⟨l, -, rfl⟩ := Option.map_eq_some_iff.1 hread
      exact hkind
    · cases hread

/-- An expansion holds nothing for the essential windows. -/
theorem essentialHeld_expanded {pool : PoolId} {tail : List (LeaseId × CoopWindow × RouteLease)}
    (hnow : tx.now = t.now) (htail : poolWindows db' pool = poolWindows db pool ++ tail)
    (hkind : ∀ x ∈ tail, x.2.1.kind = .expansion) (g : CoopGroup) :
    essentialHeld tx db' pool g = essentialHeld t db pool g := by
  unfold essentialHeld
  rw [htail, List.map_append, List.sum_append, hnow]
  have hzero : ∀ x ∈ tail.map (fun w : LeaseId × CoopWindow × RouteLease =>
      if w.2.1.groupKey = g.key ∧ w.2.1.kind = .essential ∧ w.2.2.state.funded ∧
          ((∃ ends ∈ w.2.2.endsMs, t.now < ofMs ends) ∨
            (w.2.2.state = .offered ∧ t.now < w.2.2.offerExpiresAt)) then
        w.2.2.budget - w.2.2.paid
      else 0), x = 0 := by
    intro x hx
    obtain ⟨r, hr, rfl⟩ := List.mem_map.1 hx
    rw [if_neg]
    rintro ⟨-, hessential, -⟩
    rw [hkind r hr] at hessential
    cases hessential
  rw [List.sum_eq_zero hzero, add_zero]

/-- An expansion covers no essential group. -/
theorem groupCommitted_expanded {pool : PoolId}
    {tail : List (LeaseId × CoopWindow × RouteLease)}
    (htail : poolWindows db' pool = poolWindows db pool ++ tail)
    (hkind : ∀ x ∈ tail, x.2.1.kind = .expansion) (key : String) :
    groupCommitted db' pool key .essential = groupCommitted db pool key .essential := by
  unfold groupCommitted
  rw [htail, List.any_append]
  have hnone : tail.any (fun w => w.2.1.groupKey = key ∧ w.2.1.kind = .essential ∧
      w.2.2.state.funded) = false := by
    refine List.any_eq_false.2 fun x hx => ?_
    rw [hkind x hx]
    simp
  rw [hnone, Bool.or_false]

/-- One more window is one more contract at most. -/
theorem openContracts_le (hnodes : db'.nodeLeases = db.nodeLeases)
    (hothers : db'.routeLeases.without id = db.routeLeases) (sponsor : UserId) :
    openContracts db' sponsor ≤ openContracts db sponsor + 1 := by
  have hrows := Table.length_filter_le_without db'.routeLeases id
    fun l => l.2.sponsorId = sponsor ∧ l.2.state.funded
  rw [hothers] at hrows
  unfold openContracts
  rw [hnodes]
  omega

/-- The gates of a view that nothing blocks are open. -/
theorem Gates.open_of_blockedBy {g : Gates} (h : g.blockedBy = []) : ∀ e ∈ g.entries, e.2 = true := by
  intro e he
  have hclosed := List.filter_eq_nil_iff.1 (List.map_eq_nil_iff.1 h) e he
  simpa using hclosed

/-! ### A safe expansion -/

/-- A user is classified at a time: a current affiliation names its party. -/
def Classified (db : Db) (time : Micros) (user : UserId) (party : PartyId) : Prop :=
  ∃ id a, db.affiliations.find? id = some a ∧ a.userId = user ∧ a.partyId = party ∧
    a.revokedAt = none ∧ a.createdAt ≤ time ∧ time < a.expiresAt

/-- **A safe expansion**: what holds of an expansion window at its commit, between the databases
before and after the transaction. The pool keeps its floor and its reserve, and only its working
funds pay; one queued session with funds held is the demand of the window, and every provider of
the group and the creator of the pool are of other parties than its consumer; the sponsor still
has a contract for each essential group. -/
structure SafeExpansion (tx : Tx) (db db' : Db) (id : LeaseId) (w : CoopWindow) (p : Pool)
    (l : RouteLease) (e : ExpansionDemand) (s : Session) (a : Affiliation) : Prop where
  pool : db'.pools.find? w.poolId = some p
  lease : db'.routeLeases.find? id = some l ∧ l.sponsorId = p.creatorId
  source : w.source = .working
  debit : db'.books.balance (.coopWorking w.poolId) =
    db.books.balance (.coopWorking w.poolId) - l.budget
  others : ∀ account, account ≠ .coopWorking w.poolId → account ≠ .routeEscrow id →
    db'.books.balance account = db.books.balance account
  floor : (cooperativeSnapshot tx db' w.poolId p).floor ≤ db'.books.balance (.coopWorking w.poolId)
  reserve : (cooperativeSnapshot tx db' w.poolId p).reserveTarget ≤
    db'.books.balance (.coopReserve w.poolId)
  demand : db'.demands.find? id = some e
  session : db'.sessions.find? e.sessionId = some s
  waiting : s.state = .queued ∧ s.billingState = .held ∧ 0 < s.hold
  held : holdPosted db' e.sessionId s = true ∧ s.hold ≤ db'.books.balance (.held s.userId)
  consumer : db'.affiliations.find? e.affiliationId = some a ∧ a.userId = s.userId ∧
    a.partyId = e.consumerPartyId ∧ a.revokedAt = none ∧ tx.wall 8 < a.expiresAt ∧
    a.OnlyOne e.affiliationId db'.affiliations
  independent : ∀ actor ∈ groupActors db' p w.groupKey,
    (∃ party, Classified db' (tx.wall 3) actor party) ∧
      ∀ party, Classified db' (tx.wall 3) actor party → party ≠ e.consumerPartyId
  slots : openContracts db' p.creatorId + uncoveredGroups tx db' p.creatorId ≤ 4

/-! ### One demand, one party -/

/-- A change records one demand at most, for a session that no other demand names. -/
theorem Change.demand_cases (h : Change env req tx db db') :
    db'.demands = db.demands ∨ ∃ lease e, ∃ hid : db.demands.find? lease = none,
      (∀ d ∈ db.demands.rows, d.2.sessionId ≠ e.sessionId) ∧
        db'.demands = db.demands.insert lease e hid := by
  rcases h with h | h
  · exact .inl h.authority.2.2
  · cases h with
    | demand hid _ hsession => exact .inr ⟨_, _, hid, hsession, rfl⟩
    | _ => exact .inl rfl

/-- No session is the demand of two windows. -/
theorem reachable_demands (h : Machine.Reachable (controlSystem env) db) :
    ∀ id₁ id₂ e₁ e₂, db.demands.find? id₁ = some e₁ → db.demands.find? id₂ = some e₂ →
      e₁.sessionId = e₂.sessionId → id₁ = id₂ := by
  refine reachable_of_changes (P := fun db => ∀ id₁ id₂ e₁ e₂, db.demands.find? id₁ = some e₁ →
    db.demands.find? id₂ = some e₂ → e₁.sessionId = e₂.sessionId → id₁ = id₂) ?_ ?_ h
  · intro admin id₁ id₂ e₁ e₂ he₁
    cases he₁
  · intro req tx db db' ih hc id₁ id₂ e₁ e₂ he₁ he₂ hsame
    rcases hc.demand_cases with hdemands | ⟨lease, e, hid, hsession, hdemands⟩
    · rw [hdemands] at he₁ he₂
      exact ih id₁ id₂ e₁ e₂ he₁ he₂ hsame
    rw [hdemands] at he₁ he₂
    rcases Table.find?_insert_cases he₁ with ⟨rfl, rfl⟩ | ⟨-, hold₁⟩
    · rcases Table.find?_insert_cases he₂ with ⟨rfl, -⟩ | ⟨-, hold₂⟩
      · rfl
      · exact absurd hsame.symm (hsession _ (Table.find?_eq_some.1 hold₂))
    · rcases Table.find?_insert_cases he₂ with ⟨rfl, rfl⟩ | ⟨-, hold₂⟩
      · exact absurd hsame (hsession _ (Table.find?_eq_some.1 hold₁))
      · exact ih id₁ id₂ e₁ e₂ hold₁ hold₂ hsame

/-- No user has two current affiliations. -/
theorem reachable_onlyOne (h : Machine.Reachable (controlSystem env) db) :
    ∀ id a, db.affiliations.find? id = some a → a.revokedAt = none →
      a.OnlyOne id db.affiliations := by
  refine reachable_of_changes (P := fun db => ∀ id a, db.affiliations.find? id = some a →
    a.revokedAt = none → a.OnlyOne id db.affiliations) ?_ ?_ h
  · intro admin id a ha
    cases ha
  · intro req tx db db' ih hc id a ha hcurrent id' a' ha' huser hcurrent'
    rcases hc.affiliations.cases ha with ⟨old, hold, hrevokes⟩ | ⟨-, hone⟩
    · rcases hc.affiliations.cases ha' with ⟨old', hold', hrevokes'⟩ | ⟨-, hone'⟩
      · have huser₁ : old'.userId = old.userId := by
          rw [hrevokes.row, hrevokes'.row] at huser
          exact huser
        exact ih id old hold (hrevokes.current hcurrent) id' old' hold' huser₁
          (hrevokes'.current hcurrent')
      · exact (hone' id a ha huser.symm hcurrent).symm
    · exact hone id' a' ha' huser hcurrent'

/-- An open session's hold is in the held account of its user. -/
theorem HeldBooks.hold_le (h : HeldBooks env db) {id : SessionId} {s : Session}
    (hs : db.sessions.find? id = some s) (hlive : s.state.terminal = false) :
    s.hold ≤ db.books.balance (.held s.userId) := by
  have hown : s.heldOf s.userId = s.hold := if_pos ⟨rfl, hlive⟩
  rw [h.balance, ← hown]
  refine Table.le_sum (g := fun _ s₁ => s₁.heldOf s.userId) hs fun k s₁ hs₁ => ?_
  show 0 ≤ s₁.heldOf s.userId
  unfold Session.heldOf
  split
  · exact h.hold k s₁ (Table.find?_eq_some.2 hs₁)
  · exact le_rfl

/-! ### The renewal that opens an expansion -/

/-- **A recorded demand**: the queued session, the consumer's affiliation and the parties of the
group, as the trigger found them. -/
structure RecordedDemand (t : Tx) (db : Db) (id : LeaseId) (e : ExpansionDemand) (s : Session)
    (a : Affiliation) (p : Pool) (w : CoopWindow) : Prop where
  demand : db.demands.find? id = some e
  session : db.sessions.find? e.sessionId = some s
  window : db.windows.find? id = some w
  pool : db.pools.find? w.poolId = some p
  current : demandCurrent t db e.sessionId s w p = true
  consumer : db.affiliations.find? e.affiliationId = some a ∧ a.userId = s.userId ∧
    a.partyId = e.consumerPartyId ∧ a.revokedAt = none ∧ t.wall 8 < a.expiresAt
  actors : actorsDiffer t db p w.groupKey e.consumerPartyId = true

/-- The demand that a renewal records. -/
theorem recordDemand_recorded {e : WaitingDemand × ExpansionEvidence}
    (h : recordDemand env t db id (some e) = .ok db') :
    (∃ d s a p w, RecordedDemand t db' id d s a p w) ∧ Elsewhere id db db' := by
  simp only [recordDemand] at h
  unfold validateExpansionDemand at h
  simp only [Checked.bind_ok, constraint_ok, reference_ok, Checked.pure_ok, exists_const,
    Table.insert?_eq_some] at h
  obtain ⟨l, -, w, hw, s, hs, a, ha, p, hp, ⟨-, -, -, hdemand, huser, hparty, hcurrent, hexpires, -,
    -, hactors, -⟩, -, -, _, ⟨hid, rfl⟩, rfl⟩ := h
  refine ⟨⟨_, s, a, p, w, Table.find?_insert_self (h := hid), hs, hw, hp, hdemand,
    ⟨ha, huser, hparty, hcurrent, hexpires⟩, hparty ▸ hactors⟩, ?_⟩
  exact ⟨rfl, rfl, rfl, rfl, rfl, rfl, rfl, rfl, rfl, fun l hl => ⟨l, hl, rfl, rfl, rfl⟩⟩

/-- The actors of a group, as the trigger compared them with a party. -/
theorem actorsDiffer_classified {p : Pool} {key : String} {party : PartyId}
    (h : actorsDiffer t db p key party = true) : ∀ actor ∈ groupActors db p key,
      (∃ other, Classified db (t.wall 3) actor other) ∧
        ∀ other, Classified db (t.wall 3) actor other → other ≠ party := by
  intro actor hactor
  simp only [actorsDiffer, List.all_eq_true, List.any_eq_true, decide_eq_true_eq] at h
  obtain ⟨⟨⟨k, a⟩, ha, huser, hcurrent, hcreated, hexpires⟩, hall⟩ := h actor hactor
  refine ⟨⟨a.partyId, k, a, Table.find?_eq_some.2 ha, huser, rfl, hcurrent, hcreated, hexpires⟩, ?_⟩
  rintro other ⟨k', a', ha', huser', hother, hcurrent', hcreated', hexpires'⟩ rfl
  exact hall _ (Table.find?_eq_some.1 ha') ⟨huser', hcurrent', hcreated', hexpires', hother⟩

/-- A renewal offers a window, accepts it and consumes its authority, and records its demand. -/
theorem openRenewal_opened {auth : AuthorizationId} {a : Authorization} {p : Pool} {g : CoopGroup}
    {source : FundSource} {r : CoopRoute} {mandates : List (MandateId × Mandate)}
    {evidence : Option (WaitingDemand × ExpansionEvidence)}
    (h : openRenewal env t db auth a p g source r mandates evidence = .ok db') :
    ∃ lease user d o db₁ db₄ db₅, o.expansion = evidence.map Prod.snd ∧
      offerWindowTransaction env (t.call 2) db user a.poolId d o = .ok (lease, db₁) ∧
      Elsewhere lease db₁ db₄ ∧
      (∃ l w, db₄.routeLeases.find? lease = some l ∧ db₄.windows.find? lease = some w ∧
        l.budget = g.cost ∧ w.source = source) ∧ recordDemand env t db₄ lease evidence = .ok db₅ ∧
      db' = note t db₅ auth .renewed := by
  unfold openRenewal at h
  simp only [Checked.bind_ok, reference_ok, constraint_ok, Checked.pure_ok, exists_const,
    Prod.exists] at h
  obtain ⟨creator, -, lease, db₁, hoffer, l, -, db₂, haccept, db₃, hauthority, db₄, hmandates,
    db₅, hdemand, -, -, rfl⟩ := h
  have h₂ : Elsewhere lease db₁ db₂ :=
    Checked.foldlM_invariant (P := fun db' => Elsewhere lease db₁ db') haccept (.refl lease db₁)
      fun _ _ _ _ ih hx => ih.trans (acceptRouteTransaction_elsewhere hx)
  have h₃ : Elsewhere lease db₂ db₃ := consumeRenewalAuthority_elsewhere hauthority
  have h₄ : Elsewhere lease db₃ db₄ :=
    Checked.foldlM_invariant (P := fun db' => Elsewhere lease db₃ db') hmandates (.refl lease db₃)
      fun _ _ _ _ ih hx => ih.trans (consumeProviderMandate_elsewhere hx)
  refine ⟨lease, _, _, _, db₁, db₄, db₅, rfl, hoffer, (h₂.trans h₃).trans h₄, ?_, hdemand,
    rfl⟩
  obtain ⟨l₂, w₂, hl₂, hw₂, hbudget, hsource⟩ := consumeRenewalAuthority_window hauthority
  obtain ⟨l₄, hl₄, -, -, hsame⟩ := (h₃.trans h₄).lease l₂ hl₂
  exact ⟨l₄, w₂, hl₄, by rw [(h₃.trans h₄).windows, hw₂], hsame.trans hbudget, hsource⟩

/-- What the record of a demand leaves alone. -/
theorem recordDemand_elsewhere {evidence : Option (WaitingDemand × ExpansionEvidence)}
    (h : recordDemand env t db id evidence = .ok db') : Elsewhere id db db' := by
  cases evidence with
  | none =>
    simp only [recordDemand, Checked.pure_ok] at h
    exact h ▸ .refl id db
  | some e =>
    exact (recordDemand_recorded h).2

/-- The status of an attempt is noted at its authorization. -/
theorem note_elsewhere (auth : AuthorizationId) (status : RenewalStatus) :
    Elsewhere id db (note t db auth status) :=
  ⟨rfl, rfl, rfl, rfl, rfl, rfl, rfl, rfl, rfl, fun l hl => ⟨l, hl, rfl, rfl, rfl⟩⟩

/-- **A new expansion** of a renewal: the window that it offered, with the checks of its funds,
and the demand that it recorded.

**Proof sketch.** A replayed offer opens no window, so that the offer was a new one, with the checks
and the row of `offerNewWindow_ok`. The steps that follow it concern the new window alone, and the
recording of the demand has found the evidence current. -/
theorem openRenewal_new {auth : AuthorizationId} {a : Authorization} {p : Pool} {g : CoopGroup}
    {source : FundSource} {r : CoopRoute} {mandates : List (MandateId × Mandate)}
    {evidence : Option (WaitingDemand × ExpansionEvidence)} {w : CoopWindow}
    (hpool : db.pools.find? a.poolId = some p)
    (h : openRenewal env t db auth a p g source r mandates evidence = .ok db')
    (hnew : db.windows.find? id = none) (hw : db'.windows.find? id = some w)
    (hkind : w.kind = .expansion) :
    evidence.isSome ∧ (∃ e s a p w, RecordedDemand t db' id e s a p w) ∧
      ∃ t₁ t₂ rd route terms books incidents c,
        ∃ hoffered : RouteOffered env t₁ db rd route terms books,
        t₂.now = t.now ∧ id = terms.leaseId ∧ WindowMatches db terms w p c ∧ w.source = .working ∧
        (cooperativeSnapshot t₂ db w.poolId p).floor + terms.budget ≤
          db.books.balance (.coopWorking w.poolId) ∧
        (cooperativeSnapshot t₂ db w.poolId p).reserveTarget ≤
          db.books.balance (.coopReserve w.poolId) ∧
        Elsewhere id { db with
          books, incidents
          routeLeases := db.routeLeases.insert terms.leaseId
            (newRouteLease env t₁ db.xid rd terms) hoffered.id
          windows := db.windows.insert id w hnew } db' := by
  obtain ⟨lease, user, wd, o, db₁, db₄, db₅, ho, hoffer, h₁₄, -, hdemand, rfl⟩ :=
    openRenewal_opened h
  have hall : Elsewhere lease db₁ (note t db₅ auth .renewed) :=
    (h₁₄.trans (recordDemand_elsewhere hdemand)).trans (note_elsewhere auth .renewed)
  rw [hall.windows] at hw
  rcases offerWindowTransaction_cases hoffer with rfl | ⟨p', hp', hnone, hoffer⟩
  · -- a replay of an offer opens no window
    rw [hnew] at hw
    cases hw
  rw [hpool, Option.some.injEq] at hp'
  subst hp'
  obtain ⟨rd, route, terms, books, incidents, w', c, hoffered, hid, rfl, hmatch, hwpool, hwkind,
    -, hliquid, -, rfl⟩ := offerNewWindow_ok hpool hnone hoffer
  rcases Table.find?_insert_cases (h := hid) hw with ⟨rfl, rfl⟩ | ⟨-, hold⟩
  · rw [← hwpool] at hliquid
    obtain ⟨hsource, hfloor, hreserve⟩ := hliquid (hwkind ▸ hkind)
    rw [hwkind, WindowOptions.kind, ho] at hkind
    cases evidence with
    | none => cases hkind
    | some e =>
      obtain ⟨e, s, a, p, w, hrecorded⟩ := (recordDemand_recorded hdemand).1
      have hnoted : RecordedDemand t (note t db₅ auth .renewed) terms.leaseId e s a p w :=
        ⟨hrecorded.demand, hrecorded.session, hrecorded.window, hrecorded.pool, hrecorded.current,
          hrecorded.consumer, hrecorded.actors⟩
      exact ⟨rfl, ⟨e, s, a, p, w, hnoted⟩, _, (t.call 2).call 0, rd, route, terms, books,
        incidents, c, hoffered, rfl, rfl, hmatch, hsource, hfloor, hreserve, hall⟩
  · rw [hnew] at hold
    cases hold

/-- The floor and the reserve target of a pool depend on what its essential windows hold. -/
theorem cooperativeSnapshot_floor {pool : PoolId} {p : Pool}
    (h : ∀ g, essentialHeld tx db' pool g = essentialHeld t db pool g) :
    (cooperativeSnapshot tx db' pool p).floor = (cooperativeSnapshot t db pool p).floor ∧
      (cooperativeSnapshot tx db' pool p).reserveTarget =
        (cooperativeSnapshot t db pool p).reserveTarget := by
  have hheld : essentialHeld tx db' pool = essentialHeld t db pool := funext h
  refine ⟨?_, rfl⟩
  show gap _ _ = gap _ _
  rw [hheld]

/-- The posting of a new window of a pool, which its source pays whole. -/
theorem RouteOffered.balance_of_source {t₁ : Tx} {rd : RouteOffer} {route : ExecutionRoute}
    {terms : LeaseTerms} {books : Books} {w : CoopWindow} {p : Pool} {c : CoopContext}
    (h : RouteOffered env t₁ db rd route terms books) (hbooking : Booking db)
    (hmatch : WindowMatches db terms w p c) (account : AccountId) :
    books.balance account = db.books.balance account + Ledger.entrySum account
      [(w.source.account w.poolId, -terms.budget), (.routeEscrow terms.leaseId, terms.budget)] := by
  have hfund : fundingAccount terms.sponsorId terms.cooperative = w.source.account w.poolId := by
    rw [hmatch.context]
    show c.source.account c.poolId = _
    rw [hmatch.source, hmatch.poolId]
  have hfresh : db.books.findKey (.routeFund terms.leaseId) = none := by
    refine hbooking.fresh fun ⟨l, hl⟩ => ?_
    rw [h.id] at hl
    cases hl
  have hbalance := h.booked.balance_of_fresh (by rw [findKey_openAccount]; exact hfresh) account
  rw [balance_openAccount, hfund] at hbalance
  exact hbalance

/-- **The renewal that opens an expansion** opens a safe one, if the sponsor had a contract to
spare.

**Proof sketch.** The one posting is from the working funds into the new escrow, so that all other
balances are those from before. The floor, the reserve target and the essential groups do not count
expansions, and so they are the same after the step as in the check of the offer. The hold of the
demand is covered by the held account in every reachable database. -/
theorem openRenewal_expansion (hreach : Machine.Reachable (controlSystem env) db)
    {auth : AuthorizationId} {a : Authorization} {p : Pool} {g : CoopGroup} {source : FundSource}
    {r : CoopRoute} {mandates : List (MandateId × Mandate)}
    {evidence : Option (WaitingDemand × ExpansionEvidence)} {w : CoopWindow}
    (hpool : db.pools.find? a.poolId = some p)
    (hslots : evidence.isSome →
      openContracts db p.creatorId + uncoveredGroups t db p.creatorId < 4)
    (h : openRenewal env t db auth a p g source r mandates evidence = .ok db')
    (hnew : db.windows.find? id = none) (hw : db'.windows.find? id = some w)
    (hkind : w.kind = .expansion) : ∃ l e s a, SafeExpansion t db db' id w p l e s a := by
  obtain ⟨hsome, ⟨e, s, a, p', w', hrec⟩, t₁, t₂, rd, route, terms, books, incidents, c, hoffered,
    hnow, rfl, hmatch, hsource, hfloor, hreserve, helse⟩ := openRenewal_new hpool h hnew hw hkind
  obtain rfl : w' = w := by
    rw [← Option.some.injEq, ← hrec.window, hw]
  have hpool' : db'.pools.find? w'.poolId = some p := by
    rw [helse.pools]
    exact hmatch.pool
  obtain rfl : p' = p := by
    rw [← Option.some.injEq, ← hrec.pool, hpool']
  obtain ⟨l, hl, hsponsor, -, hbudget⟩ := helse.lease _ (Table.find?_insert_self (h := hoffered.id))
  have hothers : db'.routeLeases.without terms.leaseId = db.routeLeases := by
    rw [helse.others]
    exact Table.without_insert (h := hoffered.id)
  -- the money: one posting, from the working funds into a new escrow
  have hbalance : ∀ account, db'.books.balance account = db.books.balance account +
      Ledger.entrySum account [(.coopWorking w'.poolId, -terms.budget),
        (.routeEscrow terms.leaseId, terms.budget)] := by
    intro account
    rw [helse.books]
    have hsourced := hoffered.balance_of_source (reachable_booking hreach) hmatch account
    rw [hsource] at hsourced
    exact hsourced
  have hothersBalance : ∀ account, account ≠ .coopWorking w'.poolId →
      account ≠ .routeEscrow terms.leaseId →
      db'.books.balance account = db.books.balance account := by
    intro account hworking hescrow
    rw [hbalance, Ledger.entrySum_cons, Ledger.entrySum_cons, if_neg (Ne.symm hworking),
      if_neg (Ne.symm hescrow)]
    simp
  have hdebit : db'.books.balance (.coopWorking w'.poolId) =
      db.books.balance (.coopWorking w'.poolId) - l.budget := by
    have hnewBudget : l.budget = terms.budget := hbudget
    rw [hbalance, hnewBudget]
    simp
    ring
  -- the floor, the reserve target and the essential groups are those from before
  obtain ⟨tail, htail, htailKind⟩ :=
    poolWindows_expanded hnew helse.windows hkind hothers w'.poolId
  have hessential : ∀ g, essentialHeld t db' w'.poolId g = essentialHeld t₂ db w'.poolId g :=
    essentialHeld_expanded hnow.symm htail htailKind
  obtain ⟨hfloor', hreserve'⟩ := cooperativeSnapshot_floor (p := p') hessential
  have huncovered : uncoveredGroups t db' p'.creatorId = uncoveredGroups t db p'.creatorId := by
    have hcommitted : ∀ pool key, groupCommitted db' pool key .essential =
        groupCommitted db pool key .essential := by
      intro pool key
      obtain ⟨tail, htail, htailKind⟩ :=
        poolWindows_expanded hnew helse.windows hkind hothers pool
      exact groupCommitted_expanded htail htailKind key
    unfold uncoveredGroups
    rw [helse.pools]
    simp only [hcommitted]
  have hcurrent := hrec.current
  simp only [demandCurrent, Bool.decide_and, Bool.and_eq_true, decide_eq_true_eq] at hcurrent
  obtain ⟨hqueued, hbilling, hhold, -, -, -, -, -, -, -, hposted⟩ := hcurrent
  obtain ⟨ha, huser, hparty, hnotRevoked, hexpires⟩ := hrec.consumer
  refine ⟨l, e, s, a, ⟨hpool', ⟨hl, hsponsor.trans hmatch.sponsor⟩, hsource, hdebit,
    hothersBalance, ?_, ?_, hrec.demand, hrec.session, ⟨hqueued, hbilling, hhold⟩,
    ⟨by simpa using hposted, ?_⟩, ⟨ha, huser, hparty, hnotRevoked, hexpires, ?_⟩,
    actorsDiffer_classified hrec.actors, ?_⟩⟩
  · have hnewBudget : l.budget = terms.budget := hbudget
    rw [hfloor', hdebit, hnewBudget]
    omega
  · rw [hreserve', hothersBalance _ (by simp) (by simp)]
    exact hreserve
  · have hs : db.sessions.find? e.sessionId = some s := by
      rw [← hrec.session, helse.sessions]
    rw [hothersBalance _ (by simp) (by simp)]
    exact (reachable_heldBooks hreach).hold_le hs (by rw [hqueued]; rfl)
  · have hsame : db'.affiliations = db.affiliations := helse.affiliations
    rw [hsame] at ha ⊢
    exact reachable_onlyOne hreach _ a ha hnotRevoked
  · have hcontracts := @openContracts_le db _ _ helse.nodeLeases hothers p'.creatorId
    have hfour := hslots hsome
    rw [huncovered]
    omega

/-! ### The attempt -/

/-- **An attempt** opens no window, or it makes a renewal; for one with a demand the sponsor had a
contract to spare. -/
theorem attempt_opens {auth : AuthorizationId} (h : attempt env t db auth = .ok db') :
    db'.windows = db.windows ∨ ∃ a p g source r mandates evidence,
      db.pools.find? a.poolId = some p ∧
      (evidence.isSome → openContracts db p.creatorId + uncoveredGroups t db p.creatorId < 4) ∧
      openRenewal env t db auth a p g source r mandates evidence = .ok db' := by
  cases attempt_ok h with
  | unchanged | noted | closed => exact .inl rfl
  | @renewed _ a p g source r mandates evidence _ hp _ hgates _ hdemand h =>
    refine .inr ⟨a, p, g, source, r, mandates, evidence, hp, fun hsome => ?_, h⟩
    -- an evidence rests on facts, whose gates are all open
    cases hfacts : attemptFacts t db a p g (cooperativeSnapshot (t.call 0) db a.poolId p) with
    | none =>
      rw [hfacts] at hdemand
      simp only [selectDemand, Option.bind_none, Checked.pure_ok] at hdemand
      rw [← hdemand] at hsome
      cases hsome
    | some facts =>
      rw [hfacts, Option.bind_some, List.head?_eq_none_iff] at hgates
      unfold attemptFacts at hfacts
      split at hfacts
      · rw [Option.some.injEq] at hfacts
        subst hfacts
        have hopen := Gates.open_of_blockedBy hgates
        have hslot := hopen ("essential_contract_slots", _) (by
          simp only [Gates.entries, List.mem_cons]
          exact .inr (.inr (.inr (.inr (.inr (.inr (.inl rfl)))))))
        simp only [expansionFacts, decide_eq_true_eq] at hslot
        exact hslot
      · cases hfacts

/-! ### Every step -/

/-- Only an attempt opens an expansion. -/
theorem step_expansion {i : Tx × Request} {w : CoopWindow} (hnew : db.windows.find? id = none)
    (hw : ((controlSystem env).step i db).windows.find? id = some w) (hkind : w.kind = .expansion) :
    ∃ auth, i.2 = .background (.attempt auth) := by
  have hopened := (@step_changes env i db).preserves
    (P := fun db' => ∀ w, db'.windows.find? id = some w → w.kind = .expansion →
      ∃ auth, i.2 = .background (.attempt auth))
    (fun a b hc ih w hw hkind => by
      rcases hc.windows.cases hw with ⟨w', hw', rfl⟩ | ⟨-, hnew⟩
      · exact ih w' hw' hkind
      · obtain ⟨t, d, route, terms, books, p, c, -, -, -, -, honly⟩ := hnew
        exact honly hkind)
    (fun w hw => by
      rw [hnew] at hw
      cases hw)
  exact hopened w hw hkind

/-- **A step that opens an expansion** opens a safe one. -/
theorem step_safeExpansion (h : Machine.Reachable (controlSystem env) db) {i : Tx × Request}
    {w : CoopWindow} (hnew : db.windows.find? id = none)
    (hw : ((controlSystem env).step i db).windows.find? id = some w) (hkind : w.kind = .expansion) :
    ∃ p l e s a, SafeExpansion i.1 db ((controlSystem env).step i db) id w p l e s a := by
  obtain ⟨auth, hreq⟩ := step_expansion hnew hw hkind
  have hstep : (controlSystem env).step i db =
    { Checked.settle (transaction env i.1 db i.2) db with xid := db.xid + 1 } := rfl
  rw [hstep] at hw ⊢
  rcases Checked.settle_cases (transaction env i.1 db i.2) db with ⟨db', hdb', hset⟩ | hset
  · rw [hset] at hw ⊢
    simp only [transaction, Checked.bind_ok, Checked.pure_ok, hreq, perform,
      performBackground] at hdb'
    obtain ⟨db₁, hattempt, _, -, rfl⟩ := hdb'
    rcases attempt_opens hattempt with hsame | ⟨a, p, g, source, r, mandates, evidence, hp, hslots,
      hopen⟩
    · have hwindows : db₁.windows.find? id = some w := hw
      rw [hsame, hnew] at hwindows
      cases hwindows
    · obtain ⟨l, e, s, a, hsafe⟩ := openRenewal_expansion h hp hslots hopen hnew hw hkind
      exact ⟨p, l, e, s, a, ⟨hsafe.pool, hsafe.lease, hsafe.source, hsafe.debit, hsafe.others,
        hsafe.floor, hsafe.reserve, hsafe.demand, hsafe.session, hsafe.waiting, hsafe.held,
        hsafe.consumer, hsafe.independent, hsafe.slots⟩⟩
  · rw [hset] at hw
    have hwindows : db.windows.find? id = some w := hw
    rw [hnew] at hwindows
    cases hwindows

/-- A recorded demand stays, whatever becomes of its window. -/
theorem Changes.demand {e : ExpansionDemand} (h : Changes env req tx db db')
    (he : db.demands.find? id = some e) : db'.demands.find? id = some e :=
  Machine.Star.preserves (P := fun db' => db'.demands.find? id = some e)
    (fun _ _ hc he => by
      obtain ⟨e', he', rfl⟩ := hc.records.2.2.old he
      exact he') h he

/-- Every expansion has its demand. -/
theorem reachable_expansionDemand (h : Machine.Reachable (controlSystem env) db) :
    ∀ id w, db.windows.find? id = some w → w.kind = .expansion →
      ∃ e, db.demands.find? id = some e := by
  refine h.invariant (P := fun db => ∀ id w, db.windows.find? id = some w → w.kind = .expansion →
    ∃ e, db.demands.find? id = some e) ?_ ?_
  · rintro db ⟨admin, rfl⟩ id w hw
    cases hw
  · intro db i hreach ih id w hw hkind
    cases hold : db.windows.find? id with
    | none =>
      obtain ⟨p, l, e, s, a, hsafe⟩ := step_safeExpansion hreach hold hw hkind
      exact ⟨e, hsafe.demand⟩
    | some w₁ =>
      have hstays : ((controlSystem env).step i db).windows.find? id = some w₁ :=
        (step_changes i db).preserves (P := fun db' => db'.windows.find? id = some w₁)
          (fun a b hc hw₁ => by
            obtain ⟨w₂, hw₂, rfl⟩ := hc.windows.old hw₁
            exact hw₂) hold
      rw [hw, Option.some.injEq] at hstays
      subst hstays
      obtain ⟨e, he⟩ := ih id w hold hkind
      exact ⟨e, (step_changes i db).demand he⟩

/-- **Demand-backed expansion.** A step from a reachable database that opens an expansion opens a
safe one. Every expansion has one session as its recorded demand, no session is the demand of two
windows, and the record stays along every run, whatever becomes of the window.

**Proof sketch.** A step opens an expansion by a renewal alone, which is safe. The demands are
unique by the check at their recording, and no change deletes one. -/
theorem expansion_safety (h : Machine.Reachable (controlSystem env) db) :
    (∀ i id w, db.windows.find? id = none →
      ((controlSystem env).step i db).windows.find? id = some w → w.kind = .expansion →
      ∃ p l e s a, SafeExpansion i.1 db ((controlSystem env).step i db) id w p l e s a) ∧
    (∀ id w, db.windows.find? id = some w → w.kind = .expansion →
      ∃ e, db.demands.find? id = some e) ∧
    (∀ id₁ id₂ e₁ e₂, db.demands.find? id₁ = some e₁ → db.demands.find? id₂ = some e₂ →
      e₁.sessionId = e₂.sessionId → id₁ = id₂) ∧
    ∀ is id e, db.demands.find? id = some e →
      ((controlSystem env).run db is).demands.find? id = some e := by
  refine ⟨fun i id w hnew hw hkind => step_safeExpansion h hnew hw hkind,
    reachable_expansionDemand h, reachable_demands h, fun is id e he => ?_⟩
  exact run_of_changes (P := fun db => db.demands.find? id = some e)
    (fun _ _ _ _ he hc => by
      obtain ⟨e', he', rfl⟩ := hc.records.2.2.old he
      exact he') he is

/-- The requests of the laboratory before its expansion. -/
def labBeforeExpansion : List (Tx × Request) :=
  labSetup ++ labPlan ++ labWork ++ labExpansion.dropLast

/-- The expansion of the laboratory is demanded by the session that waited. -/
theorem expansion_safety_lab : ∃ w p l e s a,
    SafeExpansion (labTx 66 20000) (labDb labBeforeExpansion)
      ((controlSystem labEnv).step (labTx 66 20000, .background (.attempt 64000))
        (labDb labBeforeExpansion)) 66039 w p l e s a ∧ e.sessionId = 61000 ∧ l.budget = 60 := by
  have hfacts : ((labDb labBeforeExpansion).windows.find? 66039 = none) ∧
      (let db := (controlSystem labEnv).step (labTx 66 20000, .background (.attempt 64000))
        (labDb labBeforeExpansion)
      ((db.windows.find? 66039).map (·.kind), (db.demands.find? 66039).map (·.sessionId),
        (db.routeLeases.find? 66039).map (·.budget)) =
          (some .expansion, some 61000, some 60)) := by
    decide +kernel
  obtain ⟨hnew, hfacts⟩ := hfacts
  simp only [Prod.mk.injEq] at hfacts
  obtain ⟨hwindow, hdemand, hlease⟩ := hfacts
  obtain ⟨w, hw, hkind⟩ := Option.map_eq_some_iff.1 hwindow
  obtain ⟨p, l, e, s, a, hsafe⟩ := (expansion_safety (reachable_lab labBeforeExpansion)).1
    (labTx 66 20000, .background (.attempt 64000)) 66039 w hnew hw hkind
  rw [hsafe.demand, Option.map_some, Option.some.injEq] at hdemand
  rw [hsafe.lease.1, Option.map_some, Option.some.injEq] at hlease
  exact ⟨w, p, l, e, s, a, hsafe, hdemand, hlease⟩

end NetworkAi
