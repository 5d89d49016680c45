import NetworkAi.Lib.Packing
import NetworkAi.Control.RenewalMoves

set_option relaxedAutoImplicit false
set_option autoImplicit false

/-!
# Capacity of a model

`capacity` reports how many sessions of a model fit on its ready offers, in all and beside those
that occupy slots.  Both figures come from one greedy pass over the offers, which may overlap.

## Main definitions

* `NetworkAi.packed` — `pack` on a list of offers, with slots and occupied slots of each domain.
* `NetworkAi.modelOffers` — the ready offers of a model, in the order of the pass.
* `NetworkAi.occupiedSlots` — the occupied slots that `capacity` reports.

## Main results

* `NetworkAi.packOffers_eq` — the pass is the greedy plan of `Packing`.
* `NetworkAi.packed_le` — the figure does not grow with the occupied slots, up to the factor that
  the overlap of the offers allows.
* `NetworkAi.packed_realised` — the figure is that of an assignment of sessions without room.
-/

namespace NetworkAi

open Relational

/-! ### The pass is the greedy plan -/

/-- The room of an offer with free slots is the room of its domains in the packing. -/
theorem fit_eq (free : DomainId → ℕ) :
    ∀ domains : List DomainId, fit (fun d => (free d : Int)) domains = Packing.room free domains
  | [] => rfl
  | [_] => rfl
  | d :: e :: domains => by
    have htail := fit_eq free (e :: domains)
    simp only [fit, Packing.room, htail, Nat.cast_min]

/-- **The loop of `pack` counts the sessions of the greedy plan.** -/
theorem packOffers_eq (free : DomainId → ℕ) (offers : List (List DomainId)) :
    packOffers (fun d => (free d : Int)) offers = Packing.size (Packing.greedy free offers) := by
  induction offers generalizing free with
  | nil => rfl
  | cons domains offers ih =>
    -- what the loop leaves is what the plan leaves
    have hplace : (fun d => if d ∈ domains then (free d : Int) - Packing.room free domains
        else (free d : Int)) =
          fun d => (Packing.place free domains (Packing.room free domains) d : Int) := by
      funext d
      unfold Packing.place
      split
      · rename_i hd
        rw [Nat.cast_sub (Packing.room_le free hd)]
      · rfl
    simp only [packOffers, fit_eq, hplace, ih, Packing.greedy, Packing.size_cons, Nat.cast_add]
    split
    · rfl
    · rename_i hzero
      have hroom : Packing.room free domains = 0 := by omega
      have hsame : Packing.place free domains 0 = free := by
        funext d
        simp [Packing.place]
      rw [hroom, hsame, Nat.cast_zero, zero_add]

/-! ### `pack` on any offers -/

/-- `pack` on offers with the given domain sets, where domains have slots and some are occupied. -/
def packed (slots occupied : DomainId → Nat) (offers : List (List DomainId)) : Int :=
  packOffers (fun d => max 0 ((slots d : Int) - occupied d)) offers

/-- What `packOffers` takes is the size of the greedy packing with what is not occupied. -/
theorem packed_eq (slots occupied : DomainId → Nat) (offers : List (List DomainId)) :
    packed slots occupied offers =
      Packing.size (Packing.greedy (fun d => slots d - occupied d) offers) := by
  have hfree : (fun d => max 0 ((slots d : Int) - occupied d)) =
      fun d => ((slots d - occupied d : ℕ) : Int) := by
    funext d
    omega
  rw [packed, hfree, packOffers_eq]

/-- **The figure does not grow with the occupied slots**, up to the factor of the overlap. -/
theorem packed_le (slots : DomainId → Nat) {u u' : DomainId → Nat} {offers : List (List DomainId)}
    {w : ℕ}
    (hw : 1 ≤ w) (hle : ∀ d, u d ≤ u' d) (hne : ∀ o ∈ offers, o ≠ [])
    (hnarrow : Packing.Narrow w offers) :
    packed slots u' offers ≤ w * packed slots u offers := by
  rw [packed_eq, packed_eq]
  exact_mod_cast Packing.size_greedy_le hw (fun d => Nat.sub_le_sub_left (hle d) (slots d)) hne
    hnarrow

/-- A number of sessions is that of an assignment of sessions to the offers that exceeds no
domain's free slots and after which no further session fits on an offer. -/
def Realised (free : DomainId → Nat) (offers : List (List DomainId)) (n : Int) : Prop :=
  ∃ plan : List (List DomainId × ℕ), plan.map Prod.fst = offers ∧ n = Packing.size plan ∧
    (∀ d, Packing.load plan d ≤ free d) ∧
    ∀ o ∈ offers, ∃ d ∈ o, free d < Packing.load plan d + 1

/-- **The figure is realised** by a maximal assignment. -/
theorem packed_realised (slots occupied : DomainId → Nat) {offers : List (List DomainId)}
    (hne : ∀ o ∈ offers, o ≠ []) :
    Realised (fun d => slots d - occupied d) offers (packed slots occupied offers) := by
  refine ⟨Packing.greedy (fun d => slots d - occupied d) offers, Packing.map_fst_greedy _ _,
    packed_eq slots occupied offers, Packing.load_greedy_le _ _, fun o ho => ?_⟩
  obtain ⟨d, hd, heq⟩ := Packing.exists_load_greedy_eq (fun d => slots d - occupied d) offers ho
    (hne o ho)
  exact ⟨d, hd, heq ▸ Nat.lt_succ_self _⟩

/-- The figure is zero exactly when every offer has a full domain. -/
theorem packed_eq_zero (slots occupied : DomainId → Nat) {offers : List (List DomainId)}
    (hne : ∀ o ∈ offers, o ≠ []) :
    packed slots occupied offers = 0 ↔ ∀ o ∈ offers, ∃ d ∈ o, slots d ≤ occupied d := by
  rw [packed_eq, Int.natCast_eq_zero, Packing.size_greedy_eq_zero _ _ hne]
  simp only [Nat.sub_eq_zero_iff_le]

/-! ### The offers of the view -/

/-- The ready offers of a model in the order of `pack`: `ORDER BY offer_key`. -/
def modelOffers (tx : Tx) (db : Db) (model : String) : List Offer :=
  ((db.registry.readyOffers tx.now).filter fun o => o.modelId = model).insertionSort
    fun a b => a.key.le b.key

/-- The offers of a model are the ready offers that name it. -/
theorem mem_modelOffers {tx : Tx} {db : Db} {model : String} {o : Offer} :
    o ∈ modelOffers tx db model ↔
      o ∈ db.registry.readyOffers tx.now ∧ o.modelId = model := by
  rw [modelOffers, (List.perm_insertionSort _ _).mem_iff]
  simp

/-- The slots of a domain. -/
def Db.slots (db : Db) (d : DomainId) : Nat :=
  ((db.registry.domains.find? d).map (·.slots)).getD 0

/-- `pack` is the packing of the domains of the model's offers, less the occupancy where it counts.
-/
theorem pack_eq (tx : Tx) (db : Db) (model : String) (occupied : Bool) :
    pack tx db model occupied = packed db.slots (fun d => if occupied then occupancy db d else 0)
      ((modelOffers tx db model).map (·.domainIds)) := by
  refine congrArg (packOffers · ((modelOffers tx db model).map (·.domainIds))) ?_
  funext d
  unfold Db.slots
  cases db.registry.domains.find? d <;> cases occupied <;> simp

/-- `occupied_slots` of `capacity`. -/
def occupiedSlots (tx : Tx) (db : Db) (model : String) : Int :=
  max 0 (pack tx db model false - pack tx db model true)

/-- The offers of the view are those of a node alone and those of a route. -/
theorem readyOffers_cases {r : Registry} {now : Micros} {o : Offer}
    (h : o ∈ r.readyOffers now) :
    (∃ id n, r.nodes.find? id = some n ∧ o.domainIds = [n.resourceDomainId] ∧ o.routeId = none) ∨
      ∃ id route, r.routes.find? id = some route ∧
        o.domainIds = distinctDomains (route.members.map (·.resourceDomainId)) ∧
          o.routeId = some id := by
  unfold Registry.readyOffers at h
  rcases List.mem_append.mp h with h | h
  · obtain ⟨⟨id, n⟩, hn, ho⟩ := List.mem_filterMap.mp h
    unfold Registry.nodeOffer at ho
    split at ho
    · split at ho
      · cases ho
        exact .inl ⟨id, n, Table.find?_eq_some.mpr hn, rfl, rfl⟩
      · cases ho
    · cases ho
  · obtain ⟨⟨id, route⟩, hroute, ho⟩ := List.mem_filterMap.mp h
    unfold Registry.routeOffer at ho
    split at ho
    · split at ho
      · cases ho
        exact .inr ⟨id, route, Table.find?_eq_some.mpr hroute, rfl, rfl⟩
      · cases ho
    · cases ho

/-- The domains of a ready offer: at least one, and each once. -/
theorem readyOffers_domains {r : Registry} {now : Micros} {o : Offer}
    (h : o ∈ r.readyOffers now) : o.domainIds ≠ [] ∧ o.domainIds.Nodup := by
  rcases readyOffers_cases h with ⟨id, n, -, hdomains, -⟩ | ⟨id, route, -, hdomains, -⟩
  · rw [hdomains]
    simp
  · rw [hdomains]
    refine ⟨fun hnil => ?_, nodup_distinctDomains _⟩
    obtain ⟨m, hm, -⟩ := route.complete.root_mem
    have hd : m.resourceDomainId ∈ distinctDomains (route.members.map (·.resourceDomainId)) :=
      mem_distinctDomains.mpr (List.mem_map_of_mem hm)
    rw [hnil] at hd
    cases hd

/-- The domains of the offers of a sound registry are registered. -/
theorem Registry.Sound.offer_domain {env : Env} {r : Registry} (hs : r.Sound env) {now : Micros}
    {o : Offer} (h : o ∈ r.readyOffers now) {d : DomainId} (hd : d ∈ o.domainIds) :
    ∃ row, r.domains.find? d = some row := by
  rw [← Option.isSome_iff_exists]
  rcases readyOffers_cases h with ⟨id, n, hn, hdomains, -⟩ | ⟨id, route, hroute, hdomains, -⟩
  · rw [hdomains, List.mem_singleton] at hd
    rw [hd]
    exact hs.nodes id n hn
  · rw [hdomains] at hd
    obtain ⟨m, hm, rfl⟩ := List.mem_map.mp (mem_distinctDomains.mp hd)
    obtain ⟨n, hn, -, hdomain⟩ := hs.members id route hroute m hm
    rw [← hdomain]
    exact hs.nodes m.nodeId n hn

/-- The domains of a model's offer are some, and each is named once. -/
theorem modelOffers_ne_nil {tx : Tx} {db : Db} {model : String} {domains : List DomainId}
    (h : domains ∈ (modelOffers tx db model).map (·.domainIds)) :
    domains ≠ [] ∧ domains.Nodup := by
  obtain ⟨o, ho, rfl⟩ := List.mem_map.mp h
  exact readyOffers_domains (mem_modelOffers.mp ho).1

/-- Admission's filter on an offer whose domains are registered. -/
theorem offerFree_eq_false {env : Env} {db : Db} (hs : db.registry.Sound env) {now : Micros}
    {o : Offer} (h : o ∈ db.registry.readyOffers now) :
    offerFree db o = false ↔ ∃ d ∈ o.domainIds, db.slots d ≤ occupancy db d := by
  simp only [offerFree, List.all_eq_false]
  refine exists_congr fun d => and_congr_right fun hd => ?_
  obtain ⟨row, hrow⟩ := hs.offer_domain h hd
  simp [Db.slots, hrow]

/-! ### The figures -/

/-- **Capacity monotonicity.** Occupying more slots raises the figure of `pack` at most by the
factor of the widest offer less one, and not at all where an offer, beside any one of its domains,
shares at most one with later offers: there the spare slots are at most the declared ones and
the reported occupied slots are their difference.

**Proof sketch.** Offers are narrow by `w` when, beside any one of its domains, each shares at most
`w` with later ones; so offers of at most `m` domains are narrow by `m - 1`, those of two domains
and disjoint ones by one. Fewer free slots then raise the size of the greedy packing by this factor
at most (`packed_le`). -/
theorem capacity_monotone {slots u u' : DomainId → Nat} {offers : List (List DomainId)}
    (hle : ∀ d, u d ≤ u' d) (hne : ∀ o ∈ offers, o ≠ [] ∧ o.Nodup) :
    (∀ m : ℕ, (∀ o ∈ offers, o.length ≤ m) →
        packed slots u' offers ≤ max 1 (m - 1 : ℕ) * packed slots u offers) ∧
      (Packing.Narrow 1 offers → packed slots u' offers ≤ packed slots u offers) ∧
      (((∀ o ∈ offers, o.length ≤ 2) ∨ offers.Pairwise List.Disjoint) →
        Packing.Narrow 1 offers) ∧
      ∀ (tx : Tx) (db : Db) (model : String),
        Packing.Narrow 1 ((modelOffers tx db model).map (·.domainIds)) →
          pack tx db model true ≤ pack tx db model false ∧
            occupiedSlots tx db model = pack tx db model false - pack tx db model true := by
  have hnil : ∀ o ∈ offers, o ≠ [] := fun o ho => (hne o ho).1
  refine ⟨fun m hm => ?_, fun hnarrow => ?_, ?_, fun tx db model hnarrow => ?_⟩
  · have hnarrow : Packing.Narrow (max 1 (m - 1)) offers :=
      (Packing.narrow_of_length hm).mono (le_max_right _ _)
    have := packed_le slots (le_max_left 1 (m - 1)) hle hnil hnarrow
    push_cast at this ⊢
    exact this
  · have := packed_le slots le_rfl hle hnil hnarrow
    rwa [Nat.cast_one, one_mul] at this
  · rintro (hwidth | hdisjoint)
    · exact Packing.narrow_of_length hwidth
    · exact Packing.narrow_of_disjoint hdisjoint
  · have hspare : pack tx db model true ≤ pack tx db model false := by
      rw [pack_eq, pack_eq]
      have hle : ∀ d, (if false then occupancy db d else 0) ≤ if true then occupancy db d else 0 :=
        fun d => Nat.zero_le _
      have := packed_le db.slots le_rfl hle (fun o ho => (modelOffers_ne_nil ho).1) hnarrow
      rwa [Nat.cast_one, one_mul] at this
    exact ⟨hspare, max_eq_right (by omega)⟩

/-- Occupying one domain of a wide offer makes room for two narrower ones that come later, so the
spare slots exceed the declared ones and none is reported as occupied. -/
theorem capacity_monotone_overlap :
    let offers : List (List DomainId) := [[1, 2, 3], [1, 4], [2, 5]]
    let one : DomainId → Nat := fun _ => 1
    let third : DomainId → Nat := fun d => if d = 3 then 1 else 0
    packed one (fun _ => 0) offers = 1 ∧ packed one third offers = 2 ∧
      max 0 (packed one (fun _ => 0) offers - packed one third offers) = 0 ∧
      ¬ ∀ (slots u u' : DomainId → Nat) (offers : List (List DomainId)), (∀ d, u d ≤ u' d) →
        (∀ o ∈ offers, o ≠ [] ∧ o.Nodup) → packed slots u' offers ≤ packed slots u offers := by
  have hall : packed (fun _ => 1) (fun _ => 0) [[1, 2, 3], [1, 4], [2, 5]] = 1 := by decide
  have hone : packed (fun _ => 1) (fun d => if d = 3 then 1 else 0)
      [[1, 2, 3], [1, 4], [2, 5]] = 2 := by decide
  refine ⟨hall, hone, by rw [hall, hone]; rfl, fun hclaim => ?_⟩
  have := hclaim (fun _ => 1) (fun _ => 0) (fun d => if d = 3 then 1 else 0)
    [[1, 2, 3], [1, 4], [2, 5]] (fun _ => Nat.zero_le _) (by decide)
  rw [hall, hone] at this
  omega

/-- Two offers of two domains that share one: occupying a slot of the shared domain lowers the
figure. -/
theorem capacity_monotone_pairs :
    packed (fun _ => 2) (fun d => if d = 2 then 1 else 0) [[1, 2], [2, 3]] ≤
      packed (fun _ => 2) (fun _ => 0) [[1, 2], [2, 3]] :=
  have hmonotone := @capacity_monotone (fun _ => 2) (fun _ => 0) (fun d => if d = 2 then 1 else 0)
    [[1, 2], [2, 3]] (fun _ => Nat.zero_le _) (by decide)
  hmonotone.2.1 (hmonotone.2.2.1 (.inl (by decide)))

/-- **Capacity packing.** On offers with at least one domain each, the number of `pack` is that of
a maximal assignment of sessions within the free slots of the domains, and it is zero exactly when
each offer has a domain without free slot. In every reachable database both figures of `capacity`
are such numbers, and the spare one is zero exactly when no ready offer of the model passes the
filter of admission.

**Proof sketch.** The figure is the size of the greedy packing, which is realised by the sessions it
places, is maximal as no offer fits into what it leaves, and is zero when nothing fits at first. In
a reachable database the offers of a model have domains, and what fits is what admission's filter
passes. -/
theorem capacity_packing {env : Env} {db : Db}
    (h : Machine.Reachable (controlSystem env) db) :
    (∀ (slots occupied : DomainId → Nat) (offers : List (List DomainId)),
        (∀ o ∈ offers, o ≠ [] ∧ o.Nodup) →
          Realised (fun d => slots d - occupied d) offers (packed slots occupied offers) ∧
            (packed slots occupied offers = 0 ↔ ∀ o ∈ offers, ∃ d ∈ o, slots d ≤ occupied d)) ∧
      ∀ (tx : Tx) (model : String),
        (∀ occupied : Bool, Realised
          (fun d => db.slots d - if occupied then occupancy db d else 0)
            ((modelOffers tx db model).map (·.domainIds)) (pack tx db model occupied)) ∧
          (pack tx db model true = 0 ↔ ∀ o ∈ db.registry.readyOffers tx.now,
            o.modelId = model → offerFree db o = false) := by
  have hsound := reachable_registry h
  refine ⟨fun slots occupied offers hne => ?_, fun tx model => ⟨fun occupied => ?_, ?_⟩⟩
  · have hnil : ∀ o ∈ offers, o ≠ [] := fun o ho => (hne o ho).1
    exact ⟨packed_realised slots occupied hnil, packed_eq_zero slots occupied hnil⟩
  · rw [pack_eq]
    exact packed_realised _ _ fun o ho => (modelOffers_ne_nil ho).1
  · rw [pack_eq, packed_eq_zero _ _ fun o ho => (modelOffers_ne_nil ho).1]
    simp only [List.forall_mem_map, mem_modelOffers, if_true, and_imp]
    refine forall_congr' fun o => forall_congr' fun ho => forall_congr' fun _ => ?_
    exact (offerFree_eq_false hsound ho).symm

/-- In the laboratory a session runs on the first route, and the second one is free. -/
theorem capacity_packing_lab :
    let db := labDb (labSetup ++ labPlan ++ labWork)
    pack (labTx 70 7000) db "m" false = 2 ∧ pack (labTx 70 7000) db "m" true = 1 ∧
      ∃ o ∈ db.registry.readyOffers (labTx 70 7000).now, o.modelId = "m" ∧
        offerFree db o = true := by
  have hspare : pack (labTx 70 7000) (labDb (labSetup ++ labPlan ++ labWork)) "m" true = 1 := by
    decide +kernel
  refine ⟨by decide +kernel, hspare, ?_⟩
  by_contra hnone
  -- otherwise no offer passes the filter and no slot is spare
  have hzero := ((capacity_packing (reachable_lab (labSetup ++ labPlan ++ labWork))).2
    (labTx 70 7000) "m").2.mpr fun o ho hmodel => by
      by_contra hfree
      exact hnone ⟨o, ho, hmodel, by simpa using hfree⟩
  rw [hspare] at hzero
  cases hzero

end NetworkAi
