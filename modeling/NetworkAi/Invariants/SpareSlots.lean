import NetworkAi.Control.Capacity
import NetworkAi.Invariants.Caps
import NetworkAi.Invariants.Claims
import Mathlib.Order.Bounds.Basic

set_option relaxedAutoImplicit false
set_option autoImplicit false

/-!
# The spare slots of covered routes

The facts of an expansion count the sessions that still fit on the covered routes of a group, by
the greedy pass of `capacity`.  A greedy pass over routes that overlap may miss sessions, but the
windows that cover a group claim their domains, so that the covered routes are disjoint.

## Main definitions

* `NetworkAi.RouteLease.OnRoute` — a window is for the domains of its route.
* `NetworkAi.Placeable` — the numbers of further sessions that the free slots allow.

## Main results

* `NetworkAi.reachable_onRoute` — every window of a reachable database is on its route.
* `NetworkAi.disjoint_coveredDomains` — the covered routes share no domain.
* `NetworkAi.spare_exact` — the greedy figure is the greatest number of further sessions.
-/

namespace NetworkAi

open Relational

variable {env : Env} {req : Request} {tx : Tx} {db db' : Db}

/-! ### Windows and their routes -/

/-- A window is for the domains of its route. -/
def RouteLease.OnRoute (r : Registry) (l : RouteLease) : Prop :=
  ∃ e, r.routes.find? l.routeId = some e ∧
    l.domains = distinctDomains (e.members.map (·.resourceDomainId))

/-- The members of an offered window are on the machines of the members of its route. -/
theorem RouteOffered.domains {t : Tx} {d : RouteOffer} {route : ExecutionRoute}
    {terms : LeaseTerms} {books : Books} (h : RouteOffered env t db d route terms books) :
    (newRouteLease env t db.xid d terms).domains =
      distinctDomains (route.members.map (·.resourceDomainId)) := by
  obtain ⟨maxima, hmaxima, -, hmembers⟩ := h.members
  have hlength : route.members.length ≤ maxima.length := by
    rw [length_splitByBps hmaxima, List.length_map]
  unfold RouteLease.domains
  congr 1
  calc (newRouteLease env t db.xid d terms).members.map (·.resourceDomainId)
      = terms.members.map fun m => m.1.resourceDomainId := by
        simp only [newRouteLease, List.map_map]
        rfl
    _ = (terms.members.map Prod.fst).map (·.resourceDomainId) := by
        rw [List.map_map]
        rfl
    _ = route.members.map (·.resourceDomainId) := by
        rw [hmembers, List.map_fst_zip hlength]

/-- In a change, a window keeps the domains of its route. -/
theorem Change.onRoute (hc : Change env req tx db db')
    (h : ∀ id l, db.routeLeases.find? id = some l → l.OnRoute db.registry) {id : LeaseId}
    {l : RouteLease} (hl : db'.routeLeases.find? id = some l) : l.OnRoute db'.registry := by
  have hon : l.OnRoute db.registry := by
    rcases hc.routeLeases.cases hl with ⟨l₀, hl₀, hkeeps⟩ |
      ⟨-, t, d, route, terms, books, hoffer, -, rfl⟩
    · obtain ⟨e, he, hdomains⟩ := h id l₀ hl₀
      exact ⟨e, by rw [hkeeps.route, he], by rw [RouteLease.domains_congr hkeeps.members, hdomains]⟩
    · exact ⟨route, hoffer.found, hoffer.domains⟩
  obtain ⟨e, he, hdomains⟩ := hon
  obtain ⟨e', he', hsame⟩ := hc.registry.routes.old he
  exact ⟨e', he', by rw [hdomains, hsame.members]⟩

/-- **Every window is on its route.** -/
theorem reachable_onRoute (h : Machine.Reachable (controlSystem env) db) :
    ∀ id l, db.routeLeases.find? id = some l → l.OnRoute db.registry :=
  reachable_of_changes (P := fun db => ∀ id l, db.routeLeases.find? id = some l →
      l.OnRoute db.registry) (fun _ _ _ hl => by cases hl)
    (fun _ _ _ _ hp hc _ _ hl => hc.onRoute hp hl) h

/-! ### The covered routes -/

/-- The domains of a ready route are those of a window on it. -/
theorem offerDomains_eq {l : RouteLease} (h : l.OnRoute db.registry) {domains : List DomainId}
    (hd : offerDomains tx db l.routeId = some domains) : domains = l.domains ∧ domains ≠ [] := by
  obtain ⟨o, ho, rfl⟩ := Option.map_eq_some_iff.mp hd
  have hready := List.mem_of_find?_eq_some ho
  have hroute : o.routeId = some l.routeId := by simpa using List.find?_some ho
  refine ⟨?_, (readyOffers_domains hready).1⟩
  obtain ⟨e, he, hdomains⟩ := h
  rcases readyOffers_cases hready with ⟨id, n, -, -, hnone⟩ | ⟨id, route, hfound, hids, hid⟩
  · rw [hnone] at hroute
    cases hroute
  · rw [hroute, Option.some.injEq] at hid
    rw [← hid, he, Option.some.injEq] at hfound
    rw [hids, hdomains, hfound]

/-- **The covered routes share no domain**, since their windows claim their domains.

**Proof sketch.** A covered route is the one of an active window, which pays for the domains of the
route. Two windows that pay for one domain are the same, and no window is listed twice. -/
theorem disjoint_coveredDomains (h : Machine.Reachable (controlSystem env) db) (tx : Tx)
    (pool : PoolId) (groupKey : String) :
    (coveredDomains tx db pool groupKey).Pairwise List.Disjoint ∧
      ∀ domains ∈ coveredDomains tx db pool groupKey, domains ≠ [] := by
  have hon := reachable_onRoute h
  have hexclusive : ∀ d o o', d ∈ db.paid o → d ∈ db.paid o' → o = o' :=
    fun d o o' => (reachable_records h).exclusive
  unfold coveredDomains
  set windows := (poolWindows db pool).filter fun w => w.2.1.groupKey = groupKey ∧
    w.2.2.covering (tx.wall 1)
  have hwindow : ∀ w ∈ windows.insertionSort fun a b => a.1 ≤ b.1,
      db.routeLeases.find? w.1 = some w.2.2 ∧ w.2.2.state = .active := by
    intro w hw
    rw [(List.perm_insertionSort _ _).mem_iff, List.mem_filter] at hw
    obtain ⟨hmem, hcovers⟩ := hw
    simp only [RouteLease.covering, decide_eq_true_eq] at hcovers
    exact ⟨(mem_poolWindows.mp hmem).2.2, hcovers.2.1⟩
  refine ⟨?_, fun domains hdomains => ?_⟩
  · rw [List.pairwise_filterMap]
    have hdistinct : (windows.insertionSort fun a b => a.1 ≤ b.1).Pairwise
        fun a b => a.1 ≠ b.1 :=
      ((List.pairwise_map.mp (nodup_poolWindows db pool)).filter _).perm
        (List.perm_insertionSort _ _).symm fun hne => Ne.symm hne
    refine hdistinct.imp_of_mem fun {a b} ha hb hne x hx y hy d hdx hdy => hne ?_
    obtain ⟨hla, hsa⟩ := hwindow a ha
    obtain ⟨hlb, hsb⟩ := hwindow b hb
    -- both windows pay for the domain
    have hpaid : ∀ w : LeaseId × CoopWindow × RouteLease,
        db.routeLeases.find? w.1 = some w.2.2 → w.2.2.state = .active →
          db.paid (.routeLease w.1) = w.2.2.domains := by
      intro w hw hactive
      simp [Db.paid, hw, RouteLease.paidDomains, hactive, RouteLeaseState.running]
    rw [(offerDomains_eq (hon a.1 a.2.2 hla) hx).1, ← hpaid a hla hsa] at hdx
    rw [(offerDomains_eq (hon b.1 b.2.2 hlb) hy).1, ← hpaid b hlb hsb] at hdy
    exact ClaimOwner.routeLease.inj (hexclusive d _ _ hdx hdy)
  · obtain ⟨w, hw, hoffer⟩ := List.mem_filterMap.mp hdomains
    exact (offerDomains_eq (hon w.1 w.2.2 (hwindow w hw).1) hoffer).2

/-! ### The figure -/

/-- The numbers of further sessions that can hold slots on some routes at the same time. -/
def Placeable (free : DomainId → Nat) (routes : List (List DomainId)) : Set Int :=
  {n | ∃ plan : List (List DomainId × ℕ), plan.map Prod.fst = routes ∧
    (∀ d, Packing.load plan d ≤ free d) ∧ n = Packing.size plan}

/-- **On disjoint routes the pass is exact.** -/
theorem isGreatest_packed {slots occupied : DomainId → Nat} {routes : List (List DomainId)}
    (hdisjoint : routes.Pairwise List.Disjoint) (hne : ∀ r ∈ routes, r ≠ []) :
    IsGreatest (Placeable (fun d => slots d - occupied d) routes)
      (packed slots occupied routes) := by
  rw [packed_eq]
  refine ⟨⟨_, Packing.map_fst_greedy _ _, Packing.load_greedy_le _ _, rfl⟩, ?_⟩
  rintro n ⟨plan, hplan, hfits, rfl⟩
  exact_mod_cast Packing.size_le_greedy hdisjoint hne hplan hfits

/-- The spare count is the greedy packing of the covered routes, less the occupancy. -/
theorem spareCovered_eq (tx : Tx) (db : Db) (pool : PoolId) (groupKey : String) :
    spareCovered tx db pool groupKey =
      packed db.slots (occupancy db) (coveredDomains tx db pool groupKey) := by
  refine congrArg (packOffers · (coveredDomains tx db pool groupKey)) ?_
  funext d
  unfold Db.slots
  cases db.registry.domains.find? d <;> simp

/-- The figure of disjoint routes does not depend on their order. -/
theorem packed_perm (slots occupied : DomainId → Nat) {routes routes' : List (List DomainId)}
    (hperm : routes'.Perm routes) (hdisjoint : routes.Pairwise List.Disjoint) :
    packed slots occupied routes' = packed slots occupied routes := by
  have hdisjoint' : routes'.Pairwise List.Disjoint :=
    hdisjoint.perm hperm.symm fun h => h.symm
  rw [packed_eq, packed_eq, Packing.size_greedy_of_disjoint _ hdisjoint,
    Packing.size_greedy_of_disjoint _ hdisjoint', (hperm.map _).sum_eq]

/-- **Exactness of the spare slots.** In every reachable database the covered routes of a group
share no domain, and in any order of them the spare slots are the greatest number of further
sessions that can hold slots on these routes at the same time.

**Proof sketch.** Offers that share no domain do not compete, so that the greedy packing is the same
in any order (`packed_perm`) and the greatest (`isGreatest_packed`). -/
theorem spare_exact (h : Machine.Reachable (controlSystem env) db) (tx : Tx) (pool : PoolId)
    (groupKey : String) :
    (coveredDomains tx db pool groupKey).Pairwise List.Disjoint ∧
      ∀ routes, routes.Perm (coveredDomains tx db pool groupKey) →
        packed db.slots (occupancy db) routes = spareCovered tx db pool groupKey ∧
          IsGreatest (Placeable (fun d => db.slots d - occupancy db d) routes)
            (spareCovered tx db pool groupKey) := by
  obtain ⟨hdisjoint, hne⟩ := disjoint_coveredDomains h tx pool groupKey
  refine ⟨hdisjoint, fun routes hperm => ?_⟩
  have hfigure := packed_perm db.slots (occupancy db) hperm hdisjoint
  rw [spareCovered_eq, ← hfigure]
  exact ⟨rfl, isGreatest_packed (hdisjoint.perm hperm.symm fun h => h.symm)
    fun r hr => hne r (hperm.mem_iff.mp hr)⟩

/-- The windows `36006` and `66039` cover the two routes, and the running session has ended. -/
def labBothCovered : List (Tx × Request) :=
  labSetup ++ labPlan ++ labWork ++ labExpansion ++ labReceipts 50 20000

/-- In the laboratory two windows cover the two routes, which hold one more session each, in
whatever order the routes are taken. -/
theorem spare_exact_lab :
    let db := labDb labBothCovered
    coveredDomains (labTx 70 20000) db 29000 "g" = [[1, 2], [3]] ∧
      packed db.slots (occupancy db) [[3], [1, 2]] = 2 ∧
      IsGreatest (Placeable (fun d => db.slots d - occupancy db d) [[3], [1, 2]]) 2 := by
  have hlab : coveredDomains (labTx 70 20000) (labDb labBothCovered) 29000 "g" = [[1, 2], [3]] ∧
      spareCovered (labTx 70 20000) (labDb labBothCovered) 29000 "g" = 2 := by
    decide +kernel
  obtain ⟨hcovered, hspare⟩ := hlab
  have hexact := (spare_exact (reachable_lab labBothCovered) (labTx 70 20000) 29000 "g").2
    [[3], [1, 2]] (by rw [hcovered]; exact List.Perm.swap _ _ _)
  rw [hspare] at hexact
  exact ⟨hcovered, hexact⟩

end NetworkAi
