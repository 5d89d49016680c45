import NetworkAi.Control.Backup
import NetworkAi.Invariants.Bindings
import NetworkAi.Invariants.Claims
import NetworkAi.Invariants.NodeLeases
import NetworkAi.Invariants.Refunds
import NetworkAi.Invariants.RenewalAuthority

set_option relaxedAutoImplicit false
set_option autoImplicit false

/-!
# Every reachable database passes the verification

The verification of a backup knows nothing of how rows come about. Each of its queries finds nothing
because an operation, a trigger or a whole run of the coordinator keeps what the query asks for.

## Main results

* `NetworkAi.Backup.missingClaims_nil`, `NetworkAi.Backup.renewalBindings_nil`, … — one query
  finds nothing.
* `NetworkAi.backup_verified` — a backup of a reachable database is accepted.
-/

namespace NetworkAi

open Relational

variable {env : Env} {db : Db}

/-! ### Accounts stay -/

/-- An account is never deleted. -/
theorem Booked.account_isSome {xid : Nat} {books books' : Books} {key : BusinessKey}
    {entries : List (AccountId × Int)} {a : AccountId} (h : Booked env xid books key entries books')
    (ha : (books.accounts.find? a).isSome) : (books'.accounts.find? a).isSome := by
  cases h with
  | known => exact ha
  | posted hp => exact (hp.isSome_iff a).2 ha

/-- A posting closes no account. -/
theorem BookedIf.account_isSome {c : Prop} {xid : Nat} {books books' : Books} {key : BusinessKey}
    {entries : List (AccountId × Int)} {a : AccountId}
    (h : BookedIf c env xid books key entries books') (ha : (books.accounts.find? a).isSome) :
    (books'.accounts.find? a).isSome := by
  rcases h with ⟨-, hb⟩ | ⟨-, rfl⟩
  · exact hb.account_isSome ha
  · exact ha

/-- An opened account closes no other. -/
theorem openAccount_isSome {books : Books} {a : AccountId} (b : AccountId) (kind : AccountKind)
    (ha : (books.accounts.find? a).isSome) :
    ((books.openAccount b kind).accounts.find? a).isSome := by
  unfold Ledger.openAccount
  split
  · obtain ⟨row, hrow⟩ := Option.isSome_iff_exists.1 ha
    simp [Table.find?_insert_of_some hrow]
  · exact ha

/-- A change closes no account. -/
theorem Change.account_isSome {req : Request} {tx : Tx} {db' : Db} {a : AccountId}
    (h : Change env req tx db db') (ha : (db.books.accounts.find? a).isSome) :
    (db'.books.accounts.find? a).isSome := by
  rcases h with h | h
  · cases h with
    | accounts u => exact openAccount_isSome _ _ (openAccount_isSome _ _ ha)
    | granted _ hb | consumptionRefunded _ _ _ hb | funded _ _ hb => exact hb.account_isSome ha
    | sessionCreated _ _ _ _ hb | sessionFinalized _ _ _ _ _ _ _ hb
    | nodeLeaseSampled _ _ _ _ _ _ hb | nodeLeaseClosed _ _ _ hb
    | routeSampled _ _ _ _ _ _ _ _ _ hb | routeClosed _ _ hb => exact hb.account_isSome ha
    | nodeLeaseOffered _ _ _ _ _ _ _ hb => exact hb.account_isSome (openAccount_isSome _ _ ha)
    | routeOffered h | windowOffered h =>
      exact h.booked.account_isSome (openAccount_isSome _ _ ha)
    | poolCreated =>
      exact openAccount_isSome _ _ (openAccount_isSome _ _ (openAccount_isSome _ _ ha))
    | _ => exact ha
  · cases h <;> exact ha

namespace Backup

/-- A query of a table finds nothing if no row meets its condition. -/
theorem query_nil {K V α : Type} [DecidableEq K] {t : Table K V} {p : K × V → Bool}
    {f : K × V → α} (h : ∀ k v, t.find? k = some v → p (k, v) = false) :
    (t.rows.filter p).map f = [] := by
  simp only [List.map_eq_nil_iff, List.filter_eq_nil_iff]
  rintro ⟨k, v⟩ hmem hp
  rw [h k v (Table.find?_eq_some.2 hmem)] at hp
  cases hp

/-! ### The ledger -/

/-- The ledger's sum is zero, and there are accounts. -/
theorem balance_sum (h : Machine.Reachable (controlSystem env) db) :
    db.books.accounts.rows ≠ [] ∧ db.books.totalBalance = 0 := by
  refine ⟨fun hnil => ?_, (reachable_booking h).sound.total⟩
  have hissuer : (db.books.accounts.find? .issuer).isSome :=
    reachable_of_changes (P := fun db => (db.books.accounts.find? .issuer).isSome)
      (fun admin => openAccount_isSome _ _ (openAccount_isSome _ _ rfl))
      (fun _ _ _ _ ha hc => hc.account_isSome ha) h
  obtain ⟨row, hrow⟩ := Option.isSome_iff_exists.1 hissuer
  have hmem := Table.find?_eq_some.1 hrow
  simp [hnil] at hmem

/-- No account differs from the lines of its journal. -/
theorem mismatch_nil (h : Machine.Reachable (controlSystem env) db) : mismatch db = [] := by
  refine query_nil fun a row hrow => ?_
  simp [(reachable_booking h).sound.projection a row hrow]

/-- An escrow account that holds what its contract has left. -/
theorem escrowDiffers_eq_false {account : AccountId} {left : Int}
    (h : db.books.balance account = left) : escrowDiffers db account left = false := by
  unfold escrowDiffers
  split
  · rename_i a ha
    rw [Ledger.balance_eq ha] at h
    simp [h]
  · rfl

/-! ### The contracts -/

/-- No contract differs from its escrow. -/
theorem escrowMismatch_nil (h : Machine.Reachable (controlSystem env) db) :
    escrowMismatch db = [] := by
  refine query_nil fun id l hl => escrowDiffers_eq_false ?_
  have haccounted := (reachable_nodeLeaseBooks h).accounted id l hl
  cases hopen : l.state.isOpen with
  | true => simpa [NodeLease.remaining] using haccounted.escrow hopen
  | false => simpa using haccounted.empty hopen

/-- No window differs from its escrow. -/
theorem coverageEscrow_nil (h : Machine.Reachable (controlSystem env) db) :
    coverageEscrow db = [] := by
  refine query_nil fun id l hl => escrowDiffers_eq_false ?_
  have haccounted := (reachable_routeLeaseBooks h).accounted id l hl
  cases hfunded : l.state.funded with
  | true => simpa [RouteLease.remaining] using haccounted.escrow hfunded
  | false => simpa using haccounted.empty hfunded

/-- No window differs from what its members are due and paid. -/
theorem coverageProjection_nil (h : Machine.Reachable (controlSystem env) db) :
    coverageProjection db = [] := by
  refine query_nil fun id l hl => ?_
  have hsound := ((reachable_routeLeaseBooks h).accounted id l hl).sound
  simp [hsound.budget, hsound.paid]

/-- No claim is of a lease that pays for nothing. -/
theorem coverageClaims_nil (h : Machine.Reachable (controlSystem env) db) :
    coverageClaims db = [] := by
  refine query_nil fun d owner hclaim => ?_
  have hpaid := (reachable_records h d owner).1 hclaim
  cases owner with
  | nodeLease id =>
    cases hl : db.nodeLeases.find? id with
    | none => simp [hl]
    | some l =>
      have hactive : l.state = .active := by
        by_contra hno
        simp [Db.paid, hl, NodeLease.paidDomains, hno] at hpaid
      simp [hl, hactive]
  | routeLease id =>
    cases hl : db.routeLeases.find? id with
    | none => simp [hl]
    | some l =>
      have hrunning : l.state.running = true := by
        by_contra hno
        simp [Db.paid, hl, RouteLease.paidDomains, hno] at hpaid
      simp [hl, hrunning]

/-- The claims that are expected are those of the domains that leases pay for.

**Proof sketch.** By the owner of the claim. An active contract is expected to claim its node's
domain, a running window the domains of its members, and this is what they pay for. -/
theorem mem_expectedClaims {d : DomainId} {owner : ClaimOwner} :
    (d, owner) ∈ expectedClaims db ↔ d ∈ db.paid owner := by
  simp only [expectedClaims, List.mem_append, List.mem_map, List.mem_flatMap, List.mem_filter,
    List.mem_dedup, Prod.exists, ← Table.find?_eq_some, decide_eq_true_eq, Prod.mk.injEq]
  cases owner with
  | nodeLease id =>
    constructor
    · rintro (⟨k, l, ⟨hl, hactive⟩, rfl, hk⟩ | ⟨k, l, -, m, -, -, hk⟩)
      · obtain rfl := ClaimOwner.nodeLease.inj hk
        simp [Db.paid, hl, NodeLease.paidDomains, hactive]
      · cases hk
    · intro hd
      cases hl : db.nodeLeases.find? id with
      | none => simp [Db.paid, hl] at hd
      | some l =>
        simp only [Db.paid, hl, Option.map_some, Option.getD_some, NodeLease.paidDomains] at hd
        split at hd
        · rename_i hactive
          exact .inl ⟨id, l, ⟨hl, hactive⟩, (List.mem_singleton.1 hd).symm, rfl⟩
        · cases hd
  | routeLease id =>
    constructor
    · rintro (⟨k, l, -, -, hk⟩ | ⟨k, l, ⟨hl, hrunning⟩, m, hm, rfl, hk⟩)
      · cases hk
      · obtain rfl := ClaimOwner.routeLease.inj hk
        simp only [Db.paid, hl, Option.map_some, Option.getD_some, RouteLease.paidDomains,
          hrunning, if_true, RouteLease.domains, mem_distinctDomains, List.mem_map]
        exact ⟨m, hm, rfl⟩
    · intro hd
      cases hl : db.routeLeases.find? id with
      | none => simp [Db.paid, hl] at hd
      | some l =>
        simp only [Db.paid, hl, Option.map_some, Option.getD_some, RouteLease.paidDomains] at hd
        split at hd
        · rename_i hrunning
          simp only [RouteLease.domains, mem_distinctDomains, List.mem_map] at hd
          obtain ⟨m, hm, hd⟩ := hd
          exact .inr ⟨id, l, ⟨hl, hrunning⟩, m, hm, hd, rfl⟩
        · cases hd

/-- No domain that a lease pays for is without its claim. -/
theorem missingClaims_nil (h : Machine.Reachable (controlSystem env) db) :
    missingClaims db = [] := by
  have hsame : ∀ c, c ∈ expectedClaims db ↔ c ∈ db.claims.rows := by
    rintro ⟨d, owner⟩
    rw [mem_expectedClaims, ← reachable_records h d owner, Table.find?_eq_some]
  simp [missingClaims, List.filter_eq_nil_iff, hsame]

/-! ### Settled consumption -/

/-- No session on a route differs from what its participants are paid. -/
theorem routeProjection_nil (h : Machine.Reachable (controlSystem env) db) :
    routeProjection db = [] := by
  refine query_nil fun id s hs => ?_
  have hpaid := (reachable_payouts h).paid id s hs
  simp only [decide_eq_false_iff_not, not_and, not_not]
  intro hroute _
  split
  · rename_i hsettled
    exact splitByBps_sum (hpaid.settled hroute hsettled.2 hsettled.1).1
  · rename_i hunsettled
    have hzero := hpaid.unpaid (by
      by_contra hboth
      simp only [not_or, not_not, Option.not_isSome_iff_eq_none] at hboth
      exact hunsettled hboth)
    rw [List.map_eq_replicate_iff.2 hzero]
    simp

/-- No settlement differs from its session, its pool, its window and its journal. -/
theorem cooperativeMismatches_nil (h : Machine.Reachable (controlSystem env) db) :
    cooperativeMismatches db = [] := by
  refine query_nil fun id cs hcs => ?_
  obtain ⟨-, s, hs, hcloses⟩ := (reachable_settled h).closes id cs hcs
  obtain ⟨⟨p, hp, hpolicy⟩, w, hw, hpool⟩ := (reachable_bindings h).settlements id cs hcs
  obtain ⟨hpos, hsum, -⟩ := (reachable_poolBooks h).parts id cs hcs
  have hposted := (reachable_heldBooks h).released id s hs hcloses.ended
    (lt_of_lt_of_le hpos hcloses.hold)
  simp [settlementDiffers, hs, hp, hw, hcloses.charged, hcloses.pool, hpool, hpolicy, ← hsum,
    hposted]

/-! ### Renewals -/

/-- No authorization differs from its runs. -/
theorem renewalProjection_nil (h : Machine.Reachable (controlSystem env) db) :
    renewalProjection db = [] := by
  refine query_nil fun id a ha => ?_
  have hcounts := ((reachable_renewalBooks h).authorization id a ha).1
  have hcommitted : ∀ S, committedBy db id S = committedFrom db id S := by
    intro S
    simp only [committedBy, committedFrom, runsOf, List.filter_filter, Bool.decide_and,
      Bool.and_comm]
  simp [hcommitted, hcounts.windows, hcounts.working, hcounts.reserve, runsOf]

/-- No mandate differs from its usages. -/
theorem mandateProjection_nil (h : Machine.Reachable (controlSystem env) db) :
    mandateProjection db = [] := by
  refine query_nil fun id m hm => ?_
  have hcounts := (reachable_renewalBooks h).mandate id m hm
  simp [hcounts.windows, usagesOf]

/-- No run differs from its authorization, its window and its usages. -/
theorem renewalBindings_nil (h : Machine.Reachable (controlSystem env) db) :
    renewalBindings db = [] := by
  refine query_nil fun lease run hrun => ?_
  obtain ⟨a, w, l, hb⟩ := (reachable_bindings h).runs lease run hrun
  obtain ⟨l₁, hl₁, hcomplete⟩ := reachable_complete h lease run hrun
  obtain rfl : l₁ = l := Option.some.inj (hl₁.symm.trans hb.lease)
  obtain ⟨r, hr, hid, -, hsha⟩ := citesAuthorization_cases hb.cited
  have hends : ∀ ends, l₁.endsMs = some ends → ends ≤ epochMs a.expiresAt := hb.ends
  have husages : ∀ m ∈ l₁.members, db.usages.find? (lease, m.providerId) ≠ none := by
    intro m hm
    rw [← Option.isSome_iff_ne_none]
    exact hcomplete m.providerId (List.mem_map_of_mem hm)
  simpa [runDiffers, hb.authorization, hb.window, hb.lease, hb.plan, hb.money, hr, hid, hsha]
    using And.intro hends husages

/-- No usage differs from its mandate, its window and its acceptance. -/
theorem mandateBindings_nil (h : Machine.Reachable (controlSystem env) db) :
    mandateBindings db = [] := by
  refine query_nil ?_
  rintro ⟨lease, provider⟩ usage husage
  obtain ⟨m, l, hb⟩ := (reachable_bindings h).usages lease provider usage husage
  have hkeys := (reachable_bindings h).keys lease l hb.lease
  have hends : ∀ ends, l.endsMs = some ends → ends ≤ epochMs m.expiresAt := hb.ends
  obtain ⟨p, hp, hpart⟩ := List.mem_map.1 hb.member
  -- the provider has accepted once, with this mandate
  obtain ⟨ac, hac, hacProvider, hacMandate, hacSha⟩ := hb.acceptance
  have honly : ∀ ac' ∈ l.acceptances, ac'.providerId = provider → ac' = ac := fun ac' hac' hsame =>
    List.inj_on_of_nodup_map hkeys hac' hac (hsame.trans hacProvider.symm)
  have haccepted : ∀ ac' ∈ l.acceptances, ac'.providerId = provider →
      ac'.mandateId = some usage.mandateId ∧ ac'.termsSha256 = l.termsSha256 := by
    intro ac' hac' hsame
    rw [honly ac' hac' hsame]
    exact ⟨hacMandate, hacSha⟩
  simpa [usageDiffers, hb.mandate, hb.lease, hb.terms, hb.route, hb.kind] using
    And.intro ⟨ac, hac, hacProvider⟩ (And.intro haccepted (And.intro hends ⟨p, hp, hpart⟩))

/-! ### Expansions -/

/-- No expansion differs from its demand and its run.

**Proof sketch.** An essential window has no demand, as a demand is of an expansion. An expansion
has one, and a run; what the query compares is what the run and the demand are bound to, and the
digest is that of the recorded evidence. -/
theorem expansionBindings_nil (h : Machine.Reachable (controlSystem env) db) :
    expansionBindings db env = [] := by
  have hbind := reachable_bindings h
  refine query_nil fun lease w hw => ?_
  obtain ⟨l, c, hl, hc, -, hkind⟩ := hbind.windows lease w hw
  have hnone : w.kind = .essential → db.demands.find? lease = none := by
    intro hessential
    by_contra hsome
    obtain ⟨e, he⟩ := Option.ne_none_iff_exists'.1 hsome
    have hexpansion := (hbind.demands lease e he).window
    rw [hw, Option.map_some, hessential] at hexpansion
    cases hexpansion
  have hdiffers : w.kind = .expansion → expansionDiffers db env lease w l = false := by
    intro hexpansion
    obtain ⟨e, he⟩ := reachable_expansionDemand h lease w hw hexpansion
    have hfits := hbind.demands lease e he
    obtain ⟨run, hrun⟩ := Option.isSome_iff_exists.1 hfits.run
    obtain ⟨a, w₁, l₁, hbound⟩ := hbind.runs lease run hrun
    obtain rfl : w₁ = w := Option.some.inj (hbound.window.symm.trans hw)
    obtain rfl : l₁ = l := Option.some.inj (hbound.lease.symm.trans hl)
    obtain ⟨k, os, cited, hk, hos, hospool, hospolicy, hview, hsha⟩ := hbound.support hexpansion
    have hauthorization : authorizationOf db lease = some a := by
      simp [authorizationOf, hrun, hbound.authorization]
    have hsupport : supportOf db lease = some os := by
      simp [supportOf, hauthorization, hk, hos]
    have hterms : l₁.terms.cooperative.bind (·.expansion) = some e.evidence := by
      have hterms := hfits.terms
      rw [hl] at hterms
      exact hterms
    have hcited : e.evidence.view.support.map (·.termsSha256) = some os.termsSha256 := by
      rw [hterms, Option.bind_some] at hview
      rw [hview, Option.map_some, hsha]
    have hsource := reachable_expansionSource h lease w₁ hw hexpansion
    obtain ⟨s, ea, hs, hea, huser, hparty⟩ := hfits.consumer
    have hdigest := reachable_evidence h lease e he
    simp only [expansionDiffers, he, hsupport]
    simp [hauthorization, hsource, hterms, hdigest, hs, hea, huser, hparty, hfits.named, hospool,
      hospolicy, hbound.plan, hcited]
  simpa [coverageDiffers, hl, hc, hkind] using And.intro hnone hdiffers

end Backup

/-! ### The verification -/

/-- **A backup of a reachable database is accepted**: none of the queries finds a row.

**Proof sketch.** Each query looks for rows that break an invariant of reachable databases, and
finds none. -/
theorem backup_verified (h : Machine.Reachable (controlSystem env) db) :
    Backup.mismatches db env = [] := by
  obtain ⟨haccounts, htotal⟩ := Backup.balance_sum h
  simp [Backup.mismatches, Backup.findings, haccounts, htotal, Backup.mismatch_nil h,
    Backup.escrowMismatch_nil h, Backup.coverageEscrow_nil h, Backup.coverageProjection_nil h,
    Backup.coverageClaims_nil h, Backup.missingClaims_nil h, Backup.routeProjection_nil h,
    Backup.cooperativeMismatches_nil h, Backup.renewalProjection_nil h,
    Backup.mandateProjection_nil h, Backup.renewalBindings_nil h, Backup.mandateBindings_nil h,
    Backup.expansionBindings_nil h]

/-- A claim that no contract has is found. -/
example : Backup.mismatches { Db.initial 0 with claims := ⟨[(1, .nodeLease 2)], by simp⟩ } labEnv =
    ["missing_or_extra_readiness_domain_claims"] := by decide +kernel

/-- The laboratory after its expansion, with a settlement, a renewal and a demand, is accepted. -/
theorem backup_verified_lab :
    let db := labDb (labSetup ++ labPlan ++ labWork ++ labExpansion)
    (db.settlements.rows.length = 1 ∧ db.runs.rows.length = 1 ∧ db.usages.rows.length = 1 ∧
      db.demands.rows.length = 1) ∧ Backup.mismatches db labEnv = [] := by
  intro db
  have hrows : db.settlements.rows.length = 1 ∧ db.runs.rows.length = 1 ∧
      db.usages.rows.length = 1 ∧ db.demands.rows.length = 1 := by
    decide +kernel
  exact ⟨hrows, backup_verified (reachable_lab _)⟩

end NetworkAi
