import NetworkAi.Invariants.Books
import NetworkAi.Lib.Holdings

set_option relaxedAutoImplicit false
set_option autoImplicit false

/-!
# Claims on physical domains

A readiness lease pays for physical machines only while it runs, and a machine is paid for by one
lease at a time, whether the lease is of a single node or of a route. The table of claims records
exactly the domains of the running leases of both kinds.

## Main definitions

* `NetworkAi.Db.paid` — the domains that a lease pays for.

## Main results

* `NetworkAi.Change.claimStep` — a change starts a lease, ends one, or leaves claims alone.
* `NetworkAi.exclusive_claims` — the claims are the domains of the running leases, and no domain
  is paid for twice.
-/

namespace NetworkAi

open Relational

variable {env : Env} {req : Request} {tx : Tx} {db db' : Db}

/-! ### The domains that a lease pays for -/

/-- The domain of a node's lease, while it is active. -/
def NodeLease.paidDomains (l : NodeLease) : List DomainId :=
  if l.state = .active then [l.resourceDomainId] else []

/-- The distinct domains of a window, while it is active or draining. -/
def RouteLease.paidDomains (l : RouteLease) : List DomainId :=
  if l.state.running then l.domains else []

/-- The domains that a lease of either kind pays for. -/
def Db.paid (db : Db) : ClaimOwner → List DomainId
  | .nodeLease id => ((db.nodeLeases.find? id).map (·.paidDomains)).getD []
  | .routeLease id => ((db.routeLeases.find? id).map (·.paidDomains)).getD []

/-- What a successful insertion of claims wrote. -/
theorem insertClaims_ok {owner : ClaimOwner} : ∀ {domains : List DomainId}
    {claims claims' : Table DomainId ClaimOwner}, insertClaims claims owner domains = .ok claims' →
      ∀ d o, claims'.find? d = some o ↔ claims.find? d = some o ∨ (o = owner ∧ d ∈ domains)
  | [], claims, claims', h => by
    intro d o
    simp only [insertClaims, List.foldlM_nil, Checked.pure_ok] at h
    simp [h]
  | e :: domains, claims, claims', h => by
    intro d o
    simp only [insertClaims, List.foldlM_cons, Checked.bind_ok, reference_ok,
      Table.insert?_eq_some] at h
    obtain ⟨claims₁, ⟨hfresh, rfl⟩, hrest⟩ := h
    rw [insertClaims_ok hrest d o]
    by_cases he : e = d
    · subst he
      rw [Table.find?_insert_self, hfresh]
      simp only [Option.some.injEq, reduceCtorEq, List.mem_cons, true_or, and_true, false_or]
      constructor
      · rintro (ho | ⟨ho, -⟩)
        · exact ho.symm
        · exact ho
      · intro ho
        exact .inl ho.symm
    · have hne : d ≠ e := fun h => he h.symm
      rw [Table.find?_insert_ne he]
      simp [hne]

/-- The domains of a window depend only on the frozen part of its members. -/
theorem RouteLease.domains_congr {l l' : RouteLease}
    (h : l'.members.map (·.frozen) = l.members.map (·.frozen)) : l'.domains = l.domains := by
  have hmap : ∀ ms : List LeaseMember, ms.map (·.resourceDomainId) =
      (ms.map (·.frozen)).map (·.resourceDomainId) := fun ms => by
    rw [List.map_map]
    rfl
  unfold RouteLease.domains
  rw [hmap, h, ← hmap]

/-! ### Writes to one lease -/

/-- Every lease but one pays for what it paid for. -/
structure PaidExcept (owner : ClaimOwner) (db db' : Db) : Prop where
  other : ∀ o, o ≠ owner → db'.paid o = db.paid o

/-- A write to one contract leaves what the other leases paid for. -/
theorem PaidExcept.of_nodeLeases {id : LeaseId} {t : Table LeaseId NodeLease}
    (h : ∀ id', id' ≠ id → t.find? id' = db.nodeLeases.find? id')
    (hn : db'.nodeLeases = t) (hr : db'.routeLeases = db.routeLeases) :
    PaidExcept (.nodeLease id) db db' := by
  refine ⟨fun o ho => ?_⟩
  cases o with
  | nodeLease id' =>
    have hne : id' ≠ id := fun e => ho (by rw [e])
    simp only [Db.paid, hn, h id' hne]
  | routeLease id' => simp only [Db.paid, hr]

/-- A write to one window leaves what the other leases paid for. -/
theorem PaidExcept.of_routeLeases {id : LeaseId} {t : Table LeaseId RouteLease}
    (h : ∀ id', id' ≠ id → t.find? id' = db.routeLeases.find? id')
    (hr : db'.routeLeases = t) (hn : db'.nodeLeases = db.nodeLeases) :
    PaidExcept (.routeLease id) db db' := by
  refine ⟨fun o ho => ?_⟩
  cases o with
  | nodeLease id' => simp only [Db.paid, hn]
  | routeLease id' =>
    have hne : id' ≠ id := fun e => ho (by rw [e])
    simp only [Db.paid, hr, h id' hne]

/-- **The changes that concern claims**: a lease starts and claims its domains, a lease ends and
its claims are deleted, or the leases pay for what they paid for. -/
inductive ClaimStep (db db' : Db) : Prop
  | same (hpaid : ∀ o, db'.paid o = db.paid o) (hclaims : db'.claims = db.claims)
  | started {o : ClaimOwner} (hother : PaidExcept o db db') (hnone : db.paid o = [])
      (hclaims : insertClaims db.claims o (db'.paid o) = .ok db'.claims)
  | ended {o : ClaimOwner} (hother : PaidExcept o db db') (hnone : db'.paid o = [])
      (hclaims : db'.claims = deleteClaims db.claims o)

/-- What a write to one lease does to the claims, by what it pays for before and after. -/
inductive OwnStep (db db' : Db) (o : ClaimOwner) (before after : List DomainId) : Prop
  | same (h : after = before) (hclaims : db'.claims = db.claims)
  | started (h : before = []) (hclaims : insertClaims db.claims o after = .ok db'.claims)
  | ended (h : after = []) (hclaims : db'.claims = deleteClaims db.claims o)

/-- A write to one lease is a step of the claims, when the others stay as they are. -/
theorem OwnStep.claimStep {o : ClaimOwner} (h : OwnStep db db' o (db.paid o) (db'.paid o))
    (hother : PaidExcept o db db') : ClaimStep db db' := by
  cases h with
  | same heq hclaims =>
    refine .same (fun o' => ?_) hclaims
    by_cases he : o' = o
    · rw [he, heq]
    · exact hother.other o' he
  | started hnone hclaims => exact .started hother hnone hclaims
  | ended hnone hclaims => exact .ended hother hnone hclaims

/-- A write to a node's lease. -/
theorem ClaimStep.setNode {id : LeaseId} {l l' : NodeLease} (hl : db.nodeLeases.find? id = some l)
    (hn : db'.nodeLeases = db.nodeLeases.set id l') (hr : db'.routeLeases = db.routeLeases)
    (h : OwnStep db db' (.nodeLease id) l.paidDomains l'.paidDomains) : ClaimStep db db' := by
  have hbefore : db.paid (.nodeLease id) = l.paidDomains := by simp [Db.paid, hl]
  have hafter : db'.paid (.nodeLease id) = l'.paidDomains := by
    simp [Db.paid, hn, Table.find?_set_self hl]
  rw [← hbefore, ← hafter] at h
  exact h.claimStep (.of_nodeLeases (fun _ hne => Table.find?_set_ne hne) hn hr)

/-- A write to a window. -/
theorem ClaimStep.setRoute {id : LeaseId} {l l' : RouteLease}
    (hl : db.routeLeases.find? id = some l) (hr : db'.routeLeases = db.routeLeases.set id l')
    (hn : db'.nodeLeases = db.nodeLeases)
    (h : OwnStep db db' (.routeLease id) l.paidDomains l'.paidDomains) : ClaimStep db db' := by
  have hbefore : db.paid (.routeLease id) = l.paidDomains := by simp [Db.paid, hl]
  have hafter : db'.paid (.routeLease id) = l'.paidDomains := by
    simp [Db.paid, hr, Table.find?_set_self hl]
  rw [← hbefore, ← hafter] at h
  exact h.claimStep (.of_routeLeases (fun _ hne => Table.find?_set_ne hne) hr hn)

/-- A new lease of a node pays for nothing yet. -/
theorem ClaimStep.insertNode {id : LeaseId} {l : NodeLease} (hid : db.nodeLeases.find? id = none)
    (hstate : l.state = .offered) (hn : db'.nodeLeases = db.nodeLeases.insert id l hid)
    (hr : db'.routeLeases = db.routeLeases) (hclaims : db'.claims = db.claims) :
    ClaimStep db db' := by
  have hother : PaidExcept (.nodeLease id) db db' :=
    .of_nodeLeases (fun _ hne => Table.find?_insert_ne (Ne.symm hne)) hn hr
  refine OwnStep.claimStep (.same ?_ hclaims) hother
  simp [Db.paid, hn, hid, NodeLease.paidDomains, hstate]

/-- A new window pays for nothing yet. -/
theorem ClaimStep.insertRoute {id : LeaseId} {l : RouteLease}
    (hid : db.routeLeases.find? id = none) (hstate : l.state = .offered)
    (hr : db'.routeLeases = db.routeLeases.insert id l hid)
    (hn : db'.nodeLeases = db.nodeLeases) (hclaims : db'.claims = db.claims) :
    ClaimStep db db' := by
  have hother : PaidExcept (.routeLease id) db db' :=
    .of_routeLeases (fun _ hne => Table.find?_insert_ne (Ne.symm hne)) hr hn
  refine OwnStep.claimStep (.same ?_ hclaims) hother
  simp [Db.paid, hr, hid, RouteLease.paidDomains, hstate, RouteLeaseState.running]

/-! ### The changes that concern claims -/

/-- A window pays for nothing before it runs, and for its domains while it runs. -/
theorem RouteLease.paidDomains_running {l : RouteLease} (h : l.state.running = true) :
    l.paidDomains = l.domains := by
  unfold RouteLease.paidDomains
  rw [if_pos h]

/-- A window that does not run pays for no domain. -/
theorem RouteLease.paidDomains_idle {l : RouteLease} (h : l.state.running = false) :
    l.paidDomains = [] := by
  unfold RouteLease.paidDomains
  rw [h]
  rfl

/-- **Every change is a step of the claims.**

**Proof sketch.** By the move. An activation claims the domains that its lease begins to pay for, an
end releases those that it paid for, and the other writes of a lease keep its state and its members'
domains. -/
theorem Change.claimStep (h : Change env req tx db db') : ClaimStep db db' := by
  rcases h with h | h
  · cases h with
    | nodeLeaseOffered hid hstate => exact .insertNode hid hstate rfl rfl rfl
    | nodeLeaseActivated hrow hstate hclaims =>
      refine .setNode hrow rfl rfl (.started ?_ hclaims)
      unfold NodeLease.paidDomains
      rw [hstate]
      rfl
    | nodeLeaseSampled hrow => exact .setNode hrow rfl rfl (.same rfl rfl)
    | @nodeLeaseClosed t id row state _ hrow _ hclosed =>
      have hnone : (row.closed t state).paidDomains = [] := by
        unfold NodeLease.paidDomains
        rw [if_neg]
        rintro hactive
        have hactive : state = .active := hactive
        rw [hactive] at hclosed
        cases hclosed
      refine .setNode hrow rfl rfl ?_
      by_cases hactive : row.state = .active
      · refine .ended hnone ?_
        simp only [releaseClaims, hactive, decide_true, if_true]
      · refine .same ?_ ?_
        · rw [hnone, NodeLease.paidDomains, if_neg hactive]
        · simp only [releaseClaims, hactive, decide_false, Bool.false_eq_true, if_false]
    | routeOffered h | windowOffered h => exact .insertRoute h.id rfl rfl rfl rfl
    | routeAccepted hrow => exact .setRoute hrow rfl rfl (.same rfl rfl)
    | routeActivated hrow hstate _ _ _ _ hclaims =>
      refine .setRoute hrow rfl rfl (.started (RouteLease.paidDomains_idle ?_) hclaims)
      rw [hstate]
      rfl
    | @routeSampled _ row _ _ _ observation _ _ _ hrow hstate _ _ _ hobs hcredits hsampled =>
      subst hsampled
      refine .setRoute hrow rfl rfl (.same ?_ rfl)
      rw [RouteLease.paidDomains_running (RouteLease.sampled_running hstate _ _ _ _ _),
        RouteLease.paidDomains_running hstate]
      exact RouteLease.domains_congr (credits_frozen hobs hcredits)
    | @routeDrained t user _ row hrow hstate =>
      refine .setRoute hrow rfl rfl (.same ?_ rfl)
      have hrunning : (row.drained t user).state.running = true := rfl
      rw [RouteLease.paidDomains_running hrunning, RouteLease.paidDomains_running hstate]
      exact RouteLease.domains_congr (drained_frozen row t user)
    | @routeClosed t _ row state _ _ hrow hend =>
      have hidle : (row.closed t state).state.running = false := by
        show state.running = false
        rcases hend with ⟨-, -, rfl | ⟨rfl, -⟩⟩ | ⟨-, -, rfl, -⟩ <;> rfl
      have hnone := RouteLease.paidDomains_idle hidle
      refine .setRoute hrow rfl rfl ?_
      cases hrunning : row.state.running with
      | true => exact .ended hnone (by simp only [releaseClaims, if_true])
      | false =>
        refine .same ?_ ?_
        · rw [hnone, RouteLease.paidDomains_idle hrunning]
        · simp only [releaseClaims, Bool.false_eq_true, if_false]
    | _ => exact .same (fun _ => rfl) rfl
  · cases h <;> exact .same (fun _ => rfl) rfl

/-- A step of the claims keeps the table what the leases pay for. -/
theorem ClaimStep.records (h : ClaimStep db db') (hr : db.claims.Records db.paid) :
    db'.claims.Records db'.paid := by
  cases h with
  | same hpaid hclaims =>
    rw [hclaims]
    exact hr.congr hpaid
  | started hother hnone hclaims =>
    exact hr.acquire hnone (insertClaims_ok hclaims) rfl hother.other
  | ended hother hnone hclaims =>
    rw [hclaims]
    exact hr.release hnone hother.other

/-- **The claims of every reachable database** are what its leases pay for. -/
theorem reachable_records (h : Machine.Reachable (controlSystem env) db) :
    db.claims.Records db.paid := by
  refine reachable_of_changes (fun admin => ?_) (fun _ _ _ _ hr hc => hc.claimStep.records hr) h
  refine Table.Records.empty.congr fun o => ?_
  cases o <;> rfl

/-- **Exclusive availability claims.** In every reachable database the table of claims is exactly
the set of pairs of a domain and a lease that pays for it: an active lease of a node for the
domain of its node, an active or draining window for the domains of its members. So no domain is
paid for by two leases, whatever their kinds.

**Proof sketch.** The claims are exactly the pairs of a domain and a lease that pays for it
(`reachable_records`). What a lease pays for is read off its state, and a domain has one claim. -/
theorem exclusive_claims (h : Machine.Reachable (controlSystem env) db) :
    (∀ d id, db.claims.find? d = some (.nodeLease id) ↔
      ∃ l, db.nodeLeases.find? id = some l ∧ l.state = .active ∧ l.resourceDomainId = d) ∧
      (∀ d id, db.claims.find? d = some (.routeLease id) ↔
        ∃ l, db.routeLeases.find? id = some l ∧ (l.state = .active ∨ l.state = .draining) ∧
          ∃ m ∈ l.members, m.resourceDomainId = d) ∧
      ∀ d o o', d ∈ db.paid o → d ∈ db.paid o' → o = o' := by
  have hrecords := reachable_records h
  refine ⟨fun d id => ?_, fun d id => ?_, fun d o o' => hrecords.exclusive⟩
  · rw [hrecords d (.nodeLease id)]
    cases hl : db.nodeLeases.find? id with
    | none => simp [Db.paid, hl]
    | some l =>
      have hpaid : db.paid (.nodeLease id) = l.paidDomains := by simp [Db.paid, hl]
      rw [hpaid, NodeLease.paidDomains]
      by_cases hactive : l.state = .active
      · simp [hactive, eq_comm]
      · simp [hactive]
  · rw [hrecords d (.routeLease id)]
    cases hl : db.routeLeases.find? id with
    | none => simp [Db.paid, hl]
    | some l =>
      have hpaid : db.paid (.routeLease id) = l.paidDomains := by simp [Db.paid, hl]
      have hmem : d ∈ l.domains ↔ ∃ m ∈ l.members, m.resourceDomainId = d := by
        rw [RouteLease.domains, mem_distinctDomains, List.mem_map]
      rw [hpaid, RouteLease.paidDomains]
      cases hstate : l.state <;> simp [hstate, RouteLeaseState.running, hmem]

/-- In the laboratory the first window runs, and claims the two domains of its route. -/
theorem exclusive_claims_lab :
    let db := labDb (labSetup ++ labPlan)
    db.claims.find? 1 = some (.routeLease 36006) ∧ db.claims.find? 2 = some (.routeLease 36006) ∧
      db.claims.find? 3 = none ∧
      (∀ d id, db.claims.find? d = some (.routeLease id) ↔
        ∃ l, db.routeLeases.find? id = some l ∧ (l.state = .active ∨ l.state = .draining) ∧
          ∃ m ∈ l.members, m.resourceDomainId = d) := by
  refine ⟨?_, ?_, ?_, (exclusive_claims (reachable_lab (labSetup ++ labPlan))).2.1⟩
  · decide +kernel
  · decide +kernel
  · decide +kernel

end NetworkAi
