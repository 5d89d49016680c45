import NetworkAi.Invariants.Participants

set_option relaxedAutoImplicit false
set_option autoImplicit false

/-!
# Occupied domains

A session that runs takes a slot in the physical domain of its node and in every one of its
participants, and no domain has more of them than slots. Only an admission takes slots, all those
of its offer at once, and it finds each of them free. What a session has recorded is what the
registry says of its node and of its route, so that the count is one of the machines in use.

## Main definitions

* `NetworkAi.Session.Uses` — the domains of the node and of the route of a session.
* `NetworkAi.Session.Housed` — the domains that a session has recorded.
* `NetworkAi.Occupied` — the domains of all sessions, within their slots.

## Main results

* `NetworkAi.Session.Step.house` — a step keeps the domains of a session, or admits it.
* `NetworkAi.Change.occupancy_cases` — a change takes a slot only by an admission.
* `NetworkAi.Occupied.uses_iff` — a session occupies what it uses.
* `NetworkAi.no_oversubscription` — the bound, and what a session occupies.
-/

namespace NetworkAi

open Relational

variable {env : Env} {req : Request} {tx t : Tx} {db db' : Db} {id : SessionId} {s s' : Session}
  {o : Offer}

/-! ### The domains of a session -/

/-- **The domains that a session uses**, as the registry has them: the domain of its node, and
those of the members of its route. -/
def Session.Uses (r : Registry) (s : Session) (d : DomainId) : Prop :=
  (∃ n node, s.nodeId = some n ∧ r.nodes.find? n = some node ∧ node.resourceDomainId = d) ∨
    ∃ k e, s.routeId = some k ∧ r.routes.find? k = some e ∧
      ∃ m ∈ e.members, m.resourceDomainId = d

/-- **The domains that a session has recorded**: none while it is queued, the registered domain of
its node, which it has while it occupies anything, alone without a route, and on a route exactly
those of its participants. -/
structure Session.Housed (r : Registry) (s : Session) : Prop where
  queued : s.state = .queued → s.resourceDomainId = none ∧ s.domains = []
  nodup : s.domains.Nodup
  node : ∀ d, s.resourceDomainId = some d → d ∈ s.domains
  hosted : s.state.occupies = true → s.nodeId.isSome = true
  home : ∀ n, s.nodeId = some n → ∃ node, r.nodes.find? n = some node ∧
    s.resourceDomainId = some node.resourceDomainId ∧
    (s.routeId = none → s.domains = [node.resourceDomainId])
  route : s.routeId.isSome = true →
    s.domains = distinctDomains (s.participants.map (·.resourceDomainId))
  found : ∀ d ∈ s.domains, (r.domains.find? d).isSome = true

/-- On a route a session has recorded exactly the domains of its participants. -/
theorem Session.Housed.mem_domains {r : Registry} (h : s.Housed r) {k : RouteId}
    (hk : s.routeId = some k) {d : DomainId} :
    d ∈ s.domains ↔ ∃ p ∈ s.participants, p.resourceDomainId = d := by
  rw [h.route (by rw [hk]; rfl), mem_distinctDomains, List.mem_map]

/-- A session with the domains it had, which it occupies only if it did. -/
structure Session.SameHouse (s s' : Session) : Prop where
  place : s.SamePlace s'
  domain : s'.resourceDomainId = s.resourceDomainId
  domains : s'.domains = s.domains
  occupies : s'.state.occupies = true → s.state.occupies = true

/-- A session occupies what it occupies among its domains. -/
theorem Session.Housed.occupiesDomain_iff {r : Registry} (h : s.Housed r) {d : DomainId} :
    s.occupiesDomain d = true ↔ s.state.occupies = true ∧ d ∈ s.domains := by
  simp only [occupiesDomain, decide_eq_true_eq]
  constructor
  · rintro ⟨hocc, hnode | hmem⟩
    · exact ⟨hocc, h.node d hnode⟩
    · exact ⟨hocc, hmem⟩
  · rintro ⟨hocc, hmem⟩
    exact ⟨hocc, .inr hmem⟩

/-- A session with the domains it had occupies a domain only if it did. -/
theorem Session.SameHouse.occupiesDomain (h : s.SameHouse s') {d : DomainId}
    (hd : s'.occupiesDomain d = true) : s.occupiesDomain d = true := by
  simp only [Session.occupiesDomain, decide_eq_true_eq] at hd ⊢
  rw [h.domain, h.domains] at hd
  exact ⟨h.occupies hd.1, hd.2⟩

/-- The domains of participants are read off what was recorded. -/
theorem map_domain_eq (ps : List SessionParticipant) : ps.map (·.resourceDomainId) =
    (ps.map (·.admitted)).map fun x => x.1.resourceDomainId := by
  rw [List.map_map]
  rfl

/-- A session with the domains it had has them recorded as they were. -/
theorem Session.SameHouse.housed (h : s.SameHouse s') {r : Registry} (hs : s.Housed r) :
    s'.Housed r where
  queued hq := by
    obtain ⟨hnode, hdomains⟩ := hs.queued (h.place.queued hq)
    exact ⟨h.domain.trans hnode, h.domains.trans hdomains⟩
  nodup := h.domains ▸ hs.nodup
  node d hd := h.domains ▸ hs.node d (h.domain ▸ hd)
  hosted hocc := h.place.node ▸ hs.hosted (h.occupies hocc)
  home n hn := by
    obtain ⟨node, hnode, hdomain, hsingle⟩ := hs.home n (h.place.node ▸ hn)
    exact ⟨node, hnode, h.domain.trans hdomain, fun hr =>
      h.domains.trans (hsingle (h.place.route ▸ hr))⟩
  route hr := by
    rw [h.domains, map_domain_eq, h.place.participants, ← map_domain_eq]
    exact hs.route (h.place.route ▸ hr)
  found := h.domains ▸ hs.found

/-- No receipt leaves a session in a state that occupies its domains. -/
theorem ReceiptState.occupies_toSession (state : ReceiptState) :
    state.toSession.occupies = false := by
  cases state <;> rfl

/-- **A step keeps the domains of a session**, or it is the admission of a queued session. -/
theorem Session.Step.house (h : s.Step env req db db' id s') :
    s.SameHouse s' ∨ ∃ t o, Admitted t db s o s' := by
  rcases h.place with hplace | hadmitted
  · cases h with
    | same => exact .inl ⟨hplace, rfl, rfl, fun h => h⟩
    | admitted h => exact .inr ⟨_, _, h⟩
    | updated h =>
      have hrow := h.continues.row
      refine .inl ⟨hplace, by rw [hrow], by rw [hrow], fun hocc => ?_⟩
      rwa [h.continues.occupies] at hocc
    | @finalized t s₁ s₂ state charge error billing entries hreport _ _ _ _ hsplit _ =>
      refine .inl ⟨hplace, ?_, ?_, fun hocc => ?_⟩
      · rw [hsplit.same, hreport.row]
        rfl
      · rw [hsplit.same, hreport.row]
        rfl
      · exact absurd hocc (by rw [show (s₂.finished t state charge error billing).state.occupies =
          false from state.occupies_toSession]; exact Bool.false_ne_true)
    | refunded => exact .inl ⟨hplace, rfl, rfl, fun h => h⟩
  · exact .inr hadmitted

/-! ### Admission -/

/-- **The domains of an offer**: the root's node is in one of them, they are registered, on a route
they are those of its members, and without one there is only the root's.

**Proof sketch.** An offer is the row of a node, which has the one domain of the node, or the row
of a route, whose members are registered nodes in the domains that the route names; the root is
one of these members. -/
theorem Registry.offer_domains {r : Registry} (hr : r.Sound env) {now : Micros} {o : Offer}
    (h : o ∈ r.readyOffers now) :
    o.domainIds.Nodup ∧ (∀ d ∈ o.domainIds, (r.domains.find? d).isSome = true) ∧
      (∀ n, r.nodes.find? o.rootNodeId = some n → n.resourceDomainId ∈ o.domainIds) ∧
      (∀ e, o.routeId.bind r.routes.find? = some e →
        o.domainIds = distinctDomains (e.members.map (·.resourceDomainId))) ∧
      (o.routeId.bind r.routes.find? = none →
        ∀ n, r.nodes.find? o.rootNodeId = some n → o.domainIds = [n.resourceDomainId]) := by
  unfold readyOffers at h
  rw [List.mem_append, List.mem_filterMap, List.mem_filterMap] at h
  rcases h with ⟨⟨k, node⟩, hmem, hn⟩ | ⟨⟨k, e⟩, hmem, he⟩
  · have hnode : r.nodes.find? k = some node := Table.find?_eq_some.2 hmem
    simp only [nodeOffer] at hn
    split at hn
    · split at hn
      · rw [Option.some.injEq] at hn
        subst hn
        refine ⟨List.nodup_singleton _, fun d hd => ?_, fun n hfound => ?_, fun e he => ?_,
          fun _ n hfound => ?_⟩
        · rw [List.mem_singleton.1 hd]
          exact hr.nodes k node hnode
        · rw [← Option.some.inj (hnode.symm.trans hfound)]
          exact List.mem_singleton.2 rfl
        · cases he
        · rw [← Option.some.inj (hnode.symm.trans hfound)]
      · cases hn
    · cases hn
  · have hroute : r.routes.find? k = some e := Table.find?_eq_some.2 hmem
    simp only [routeOffer] at he
    split at he
    · split at he
      · rw [Option.some.injEq] at he
        subst he
        refine ⟨nodup_distinctDomains _, fun d hd => ?_, fun n hfound => ?_, fun e' he' => ?_,
          fun hnone => ?_⟩
        · obtain ⟨m, hm, rfl⟩ := List.mem_map.1 (mem_distinctDomains.1 hd)
          obtain ⟨n, hn, -, hdomain⟩ := hr.members k e hroute m hm
          rw [← hdomain]
          exact hr.nodes _ n hn
        · obtain ⟨m, hm, hid, -⟩ := e.complete.root_mem
          obtain ⟨n', hn', -, hdomain⟩ := hr.members k e hroute m hm
          rw [hid] at hn'
          obtain rfl := Option.some.inj (hn'.symm.trans hfound)
          rw [hdomain]
          exact mem_distinctDomains.2 (List.mem_map_of_mem hm)
        · rw [Option.bind_some, hroute] at he'
          rw [Option.some.inj he']
        · rw [Option.bind_some, hroute] at hnone
          cases hnone
      · cases he
    · cases he

/-- **What an admission records**: all domains of the offer, which are those of the participants,
and the domain of the node that it names.

**Proof sketch.** A queued session has recorded nothing, so that it has the domains of the offer
alone. On a route these are the domains of its members, which the admission records as the
participants; without one the offer has the one domain of its root's node. -/
theorem Admitted.housed (h : Admitted t db s o s') (hr : db.registry.Sound env)
    (hplaced : s.Placed db.registry) (hs : s.Housed db.registry) :
    s'.Housed db.registry ∧ s'.domains = o.domainIds := by
  obtain ⟨-, hnone⟩ := hs.queued h.queued
  obtain ⟨hroute, -, hnil⟩ := hplaced.queued h.queued
  obtain ⟨hnodup, hfound, hroot, hmembers, hsingle⟩ :=
    Registry.offer_domains hr (List.mem_filter.1 h.offer).1
  have hdomains : s'.domains = o.domainIds := by
    rw [h.row]
    show s.domains ++ o.domainIds = _
    rw [hnone, List.nil_append]
  have hroute' : s'.routeId =
      (o.routeId.bind db.registry.routes.find?).bind fun _ => o.routeId := by
    rw [h.row]
  obtain ⟨node, hnode, hid, hdomain, -⟩ := h.node
  refine ⟨⟨fun hq => ?_, ?_, fun d hd => ?_, fun _ => ?_, fun n hn => ?_, fun hsome => ?_, ?_⟩,
    hdomains⟩
  · rw [show s'.state = .preparing by rw [h.row]] at hq
    cases hq
  · rw [hdomains]
    exact hnodup
  · rw [hdomain, Option.some.injEq] at hd
    rw [hdomains, ← hd]
    exact hroot node hnode
  · rw [hid]
    rfl
  · rw [hid, Option.some.injEq] at hn
    subst hn
    refine ⟨node, hnode, hdomain, fun hr => hdomains.trans (hsingle ?_ node hnode)⟩
    rw [hroute'] at hr
    cases he : o.routeId with
    | none => rfl
    | some k =>
      rw [he] at hr
      cases hfind : db.registry.routes.find? k with
      | none => exact hfind
      | some e =>
        rw [Option.bind_some, hfind] at hr
        cases hr
  · obtain ⟨ps, hps, hparticipants⟩ := h.members
    rw [hroute'] at hsome
    cases he : o.routeId.bind db.registry.routes.find? with
    | none =>
      rw [he] at hsome
      cases hsome
    | some e =>
      rw [he] at hps
      have hmap := (admitMembers_ok hps).1
      rw [hdomains, hmembers e he, hparticipants, hnil, List.nil_append]
      have hmap' : ps.map (·.resourceDomainId) = (ps.map (·.member)).map (·.resourceDomainId) := by
        rw [List.map_map]
        rfl
      rw [hmap', hmap]
      rfl
  · rw [hdomains]
    exact hfound

/-! ### The count -/

/-- A write that gives no session more domains takes no slot. -/
theorem occupancy_le {R : Session → Session → Prop} {N : SessionId → Session → Prop}
    (h : db.sessions.Grows R N db'.sessions) {d : DomainId}
    (hold : ∀ s s', R s s' → s'.occupiesDomain d = true → s.occupiesDomain d = true)
    (hnew : ∀ id s, N id s → s.occupiesDomain d = false) :
    occupancy db' d ≤ occupancy db d := by
  have hempty : ∀ k s, db'.sessions.find? k = some s → db.sessions.find? k = none →
      s.occupiesDomain d = true → k ∈ ([] : List SessionId) := by
    intro k s hs hnone hocc
    rcases h.cases hs with ⟨s₀, hs₀, -⟩ | ⟨-, hnew'⟩
    · rw [hnone] at hs₀
      cases hs₀
    · rw [hnew k s hnew'] at hocc
      cases hocc
  exact h.length_filter_le (p := fun s => s.2.occupiesDomain d) (fun _ => hold) hempty

/-- A write to one session takes one slot at most. -/
theorem occupancy_set_le (hset : db'.sessions = db.sessions.set id s') (d : DomainId) :
    occupancy db' d ≤ occupancy db d + 1 := by
  have hle := Table.length_filter_le_without db'.sessions id fun s => s.2.occupiesDomain d
  rw [hset, Table.without_set] at hle
  have hsub : ((db.sessions.without id).rows.filter fun s => s.2.occupiesDomain d).length ≤
      (db.sessions.rows.filter fun s => s.2.occupiesDomain d).length :=
    (List.filter_sublist.filter _).length_le
  unfold occupancy
  rw [hset]
  omega

/-- **A change takes a slot only by an admission.** -/
theorem Change.occupancy_cases (h : Change env req tx db db') :
    (∀ d, occupancy db' d ≤ occupancy db d) ∨
      ∃ id s s' t o, db.sessions.find? id = some s ∧ Admitted t db s o s' ∧
        db'.sessions = db.sessions.set id s' := by
  have hset {id : SessionId} {s s' : Session} (hs : db.sessions.find? id = some s)
      (hset : db'.sessions = db.sessions.set id s')
      (hocc : ∀ d, s'.occupiesDomain d = true → s.occupiesDomain d = true) (d : DomainId) :
      occupancy db' d ≤ occupancy db d := by
    refine occupancy_le (R := fun s s' => s'.occupiesDomain d = true → s.occupiesDomain d = true)
      (N := fun _ _ => False) ?_ (fun _ _ h => h) fun _ _ h => h.elim
    rw [hset]
    exact .set (fun _ h => h) hs (hocc d)
  have hstep {id : SessionId} {s s' : Session} (hs : db.sessions.find? id = some s)
      (hstep : s.Step env req db db' id s') (hset' : db'.sessions = db.sessions.set id s') :
      (∀ d, occupancy db' d ≤ occupancy db d) ∨
        ∃ id s s' t o, db.sessions.find? id = some s ∧ Admitted t db s o s' ∧
          db'.sessions = db.sessions.set id s' := by
    rcases hstep.house with hsame | ⟨t, o, hadmitted⟩
    · exact .inl (hset hs hset' fun d => hsame.occupiesDomain)
    · exact .inr ⟨id, s, s', t, o, hs, hadmitted, hset'⟩
  rcases h with h | h
  · cases h with
    | sessionCreated hid _ _ _ _ =>
      refine .inl fun d => occupancy_le (R := Eq) (N := fun _ s => s.state = .queued)
        (.insert (fun _ => rfl) hid rfl) (fun _ _ h => h ▸ id) fun _ s hq => ?_
      simp [Session.occupiesDomain, hq, SessionState.occupies]
    | sessionAdmitted hs h => exact hstep hs (.admitted h) rfl
    | sessionUpdated hs h => exact hstep hs (.updated h) rfl
    | sessionFinalized hs hreport hlive hcharge hbilling hpaid hsplit hb =>
      exact hstep hs (.finalized hreport hlive hcharge hbilling hpaid hsplit hb) rfl
    | consumptionRefunded hs hrow _ _ => exact hstep hs (.refunded hrow) rfl
    | _ => exact .inl fun d => le_rfl
  · cases h <;> exact .inl fun d => le_rfl

/-! ### The invariant -/

/-- **The domains of all sessions** are recorded, and each is within its slots. -/
structure Occupied (env : Env) (db : Db) : Prop where
  registry : db.registry.Sound env
  placed : Placements db
  housed : ∀ id s, db.sessions.find? id = some s → s.Housed db.registry
  slots : ∀ d row, db.registry.domains.find? d = some row → occupancy db d ≤ row.slots

/-- The registry keeps the domain of every node and forgets no domain. -/
theorem Session.Housed.evolves {r r' : Registry} (hs : s.Housed r) (h : r.Evolves env r') :
    s.Housed r' where
  queued := hs.queued
  nodup := hs.nodup
  node := hs.node
  hosted := hs.hosted
  home n hn := by
    obtain ⟨node, hnode, hdomain, hsingle⟩ := hs.home n hn
    obtain ⟨node', hnode', hsame⟩ := h.nodes.old hnode
    refine ⟨node', hnode', ?_, ?_⟩
    · rw [hsame.domain, hdomain]
    · rw [hsame.domain]
      exact hsingle
  route := hs.route
  found d hd := h.domains.isSome (hs.found d hd)

/-- A change leaves every session with its domains recorded: a new one has none. -/
theorem Change.housed (h : Change env req tx db db') (hocc : Occupied env db) :
    ∀ id s, db'.sessions.find? id = some s → s.Housed db'.registry := by
  intro id s' hs'
  rcases h.session_cases hs' with ⟨-, t, user, d, quote, -, rfl⟩ | ⟨s, hs, hstep⟩
  · refine ⟨fun _ => ⟨rfl, rfl⟩, .nil, fun d hd => ?_, fun hocc => ?_, fun n hn => ?_,
      fun hr => ?_, fun d hd => ?_⟩
    · cases hd
    · cases hocc
    · cases hn
    · cases hr
    · cases hd
  · have hhoused := hocc.housed id s hs
    rcases hstep.house with hsame | ⟨t, o, hadmitted⟩
    · exact (hsame.housed hhoused).evolves h.registry
    · exact (hadmitted.housed hocc.registry (hocc.placed id s hs) hhoused).1.evolves h.registry

/-- An unregistered domain is not occupied. -/
theorem Occupied.free (h : Occupied env db) {d : DomainId}
    (hd : db.registry.domains.find? d = none) : occupancy db d = 0 := by
  unfold occupancy
  rw [List.length_eq_zero_iff, List.filter_eq_nil_iff]
  rintro ⟨id, s⟩ hmem hocc
  have hhoused := h.housed id s (Table.find?_eq_some.2 hmem)
  have hfound := hhoused.found d (hhoused.occupiesDomain_iff.1 hocc).2
  rw [hd] at hfound
  cases hfound

/-- **An admission takes a slot** in each domain of its offer, where it finds one free. -/
theorem Admitted.occupancy_cases (h : Admitted t db s o s') (hocc : Occupied env db)
    (hs : db.sessions.find? id = some s) (hset : db'.sessions = db.sessions.set id s')
    (d : DomainId) :
    occupancy db' d ≤ occupancy db d ∨ ∃ row, db.registry.domains.find? d = some row ∧
      occupancy db d < row.slots ∧ occupancy db' d ≤ occupancy db d + 1 := by
  obtain ⟨hhoused, hdomains⟩ :=
    h.housed hocc.registry (hocc.placed id s hs) (hocc.housed id s hs)
  by_cases hd : d ∈ o.domainIds
  · obtain ⟨row, hrow⟩ := Option.isSome_iff_exists.1 (hhoused.found d (hdomains ▸ hd))
    have hfree : offerFree db o = true := by
      have hoffer := (List.mem_filter.1 h.offer).2
      simp only [decide_eq_true_eq] at hoffer
      exact hoffer.2.2
    have hlt := List.all_eq_true.1 hfree d hd
    rw [hrow] at hlt
    exact .inr ⟨row, hrow, of_decide_eq_true hlt, occupancy_set_le hset d⟩
  · refine .inl (occupancy_le (R := fun s s' => s'.occupiesDomain d = true →
      s.occupiesDomain d = true) (N := fun _ _ => False) ?_ (fun _ _ h => h) fun _ _ h => h.elim)
    rw [hset]
    refine .set (fun _ h => h) hs fun hno => ?_
    rw [hhoused.occupiesDomain_iff, hdomains] at hno
    exact absurd hno.2 hd

/-- **Every change keeps the domains within their slots.** -/
theorem Change.occupied (h : Change env req tx db db') (hocc : Occupied env db) :
    Occupied env db' where
  registry := h.registry.sound hocc.registry
  placed := h.placements hocc.placed
  housed := h.housed hocc
  slots d row hrow := by
    -- a domain is new and free, or has the slots it had
    have hold : occupancy db d ≤ row.slots := by
      rcases h.registry.domains.cases hrow with ⟨row₀, hrow₀, rfl⟩ | ⟨hnone, -⟩
      · exact hocc.slots d _ hrow₀
      · rw [hocc.free hnone]
        exact Nat.zero_le _
    rcases h.occupancy_cases with hle | ⟨id, s, s', t, o, hs, hadmitted, hset⟩
    · exact (hle d).trans hold
    · rcases hadmitted.occupancy_cases hocc hs hset d with hle | ⟨row₀, hrow₀, hlt, hle⟩
      · exact hle.trans hold
      · obtain ⟨row', hrow', rfl⟩ := h.registry.domains.old hrow₀
        obtain rfl := Option.some.inj (hrow'.symm.trans hrow)
        omega

/-- The domains of every reachable database are recorded and within their slots. -/
theorem reachable_occupied (h : Machine.Reachable (controlSystem env) db) : Occupied env db := by
  refine reachable_of_changes (P := Occupied env) (fun admin => ?_)
    (fun _ _ _ _ hocc hc => hc.occupied hocc) h
  have hinit : Machine.Reachable (controlSystem env) (Db.initial admin) := .init ⟨admin, rfl⟩
  refine ⟨reachable_registry hinit, reachable_placed hinit, fun id s hs => ?_, fun d row hrow => ?_⟩
  · cases hs
  · cases hrow

/-- The states of a session that occupies its domains are those from its admission to its end. -/
theorem SessionState.occupies_iff (state : SessionState) :
    state.occupies = true ↔ state ≠ .queued ∧ state.terminal = false := by
  cases state <;> simp [occupies, terminal]

/-- A session that was admitted, with its route and its domains. -/
def HousedIn (id : SessionId) (route : Option RouteId) (domains : List DomainId) (db : Db) : Prop :=
  ∃ s, db.sessions.find? id = some s ∧ s.state ≠ .queued ∧ s.routeId = route ∧ s.domains = domains

/-- Only a queued session is admitted, so that the domains of an admitted one stay. -/
theorem Change.housedIn (h : Change env req tx db db') {route : Option RouteId}
    {domains : List DomainId} (hin : HousedIn id route domains db) :
    HousedIn id route domains db' := by
  obtain ⟨s, hs, hstate, hroute, hdomains⟩ := hin
  obtain ⟨s', hs', hstep⟩ := h.session_step hs
  rcases hstep.house with hsame | ⟨t, o, hadmitted⟩
  · exact ⟨s', hs', fun hq => hstate (hsame.place.queued hq), hsame.place.route.trans hroute,
      hsame.domains.trans hdomains⟩
  · exact absurd hadmitted.queued hstate

/-- A session that was admitted keeps its route and its domains along every run. -/
theorem run_housedIn {route : Option RouteId} {domains : List DomainId}
    (hr : Machine.Reachable (controlSystem env) db) (hin : HousedIn id route domains db)
    (later : List (Tx × Request)) :
    HousedIn id route domains ((controlSystem env).run db later) :=
  Machine.System.run_invariant (fun db i _ hdb =>
    (step_changes i db).preserves (fun _ _ hc hdb => hc.housedIn hdb) hdb) hr hin later

/-- **A session occupies what it uses**: the domain of its node and the domains of its route, as
the registry has them, while its state occupies anything; and then it has a node.

**Proof sketch.** What it occupies is what it has recorded. Without a route that is the domain of
its node alone; on a route it is the domains of the participants, which are the members of the
route. -/
theorem Occupied.uses_iff (h : Occupied env db) (hs : db.sessions.find? id = some s) :
    (s.state.occupies = true → ∃ n node, s.nodeId = some n ∧
      db.registry.nodes.find? n = some node) ∧
      ∀ d, s.occupiesDomain d = true ↔ s.state.occupies = true ∧ s.Uses db.registry d := by
  have hhoused := h.housed id s hs
  have hplaced := h.placed id s hs
  have hhosted (hocc : s.state.occupies = true) : ∃ n node, s.nodeId = some n ∧
      db.registry.nodes.find? n = some node := by
    obtain ⟨n, hn⟩ := Option.isSome_iff_exists.1 (hhoused.hosted hocc)
    obtain ⟨node, hnode, -⟩ := hhoused.home n hn
    exact ⟨n, node, hn, hnode⟩
  -- on a route the recorded domains are those of its members
  have hroute {k : RouteId} (hk : s.routeId = some k) {d : DomainId} : d ∈ s.domains ↔
      ∃ e, db.registry.routes.find? k = some e ∧ ∃ m ∈ e.members, m.resourceDomainId = d := by
    obtain ⟨e, -, he, -, hmembers, -⟩ := hplaced.route k hk
    have hmap : s.participants.map (·.resourceDomainId) = e.members.map (·.resourceDomainId) := by
      rw [← hmembers, List.map_map]
      rfl
    rw [hhoused.mem_domains hk, ← List.mem_map, hmap, List.mem_map]
    constructor
    · exact fun hm => ⟨e, he, hm⟩
    · rintro ⟨e', he', hm⟩
      rwa [Option.some.inj (he.symm.trans he')]
  refine ⟨hhosted, fun d => ?_⟩
  rw [hhoused.occupiesDomain_iff]
  constructor
  · rintro ⟨hocc, hd⟩
    refine ⟨hocc, ?_⟩
    cases hk : s.routeId with
    | none =>
      obtain ⟨n, -, hn, -⟩ := hhosted hocc
      obtain ⟨node, hnode, -, hsingle⟩ := hhoused.home n hn
      rw [hsingle hk, List.mem_singleton] at hd
      exact .inl ⟨n, node, hn, hnode, hd.symm⟩
    | some k =>
      obtain ⟨e, he, hm⟩ := (hroute hk).1 hd
      exact .inr ⟨k, e, hk, he, hm⟩
  · rintro ⟨hocc, ⟨n, node, hn, hnode, rfl⟩ | ⟨k, e, hk, he, hm⟩⟩
    · obtain ⟨node', hnode', hdomain, -⟩ := hhoused.home n hn
      obtain rfl := Option.some.inj (hnode.symm.trans hnode')
      exact ⟨hocc, hhoused.node _ hdomain⟩
    · exact ⟨hocc, (hroute hk).2 ⟨e, he, hm⟩⟩

/-- **No oversubscription.** In every reachable database each domain is taken by at most as many
sessions as it has slots. A session that occupies anything has a registered node, and it occupies
exactly the domain of that node and the domains of the members of its route, as the registry has
them. A session of a route, which it has from its admission on, has recorded
exactly the domains of its participants, and takes a slot in each of them until it is terminal; no
request changes its route or its domains.

**Proof sketch.** Only an admission takes slots. It takes those of all domains of its offer, each
of which had one free, and the domains of an offer are the ones that the registry has for its node
or for its route (`Registry.offer_domains`); every other change keeps the domains of a session or
frees them. -/
theorem no_oversubscription (h : Machine.Reachable (controlSystem env) db) :
    (∀ d, occupancy db d ≤ ((db.registry.domains.find? d).map (·.slots)).getD 0) ∧
      (∀ id s, db.sessions.find? id = some s →
        (s.state.occupies = true → ∃ n node, s.nodeId = some n ∧
          db.registry.nodes.find? n = some node) ∧
        ∀ d, s.occupiesDomain d = true ↔ s.state.occupies = true ∧ s.Uses db.registry d) ∧
      ∀ id s, db.sessions.find? id = some s → ∀ route, s.routeId = some route →
        (s.domains.Nodup ∧ ∀ d, d ∈ s.domains ↔ ∃ p ∈ s.participants, p.resourceDomainId = d) ∧
        (∀ d, s.occupiesDomain d = true ↔
          s.state.terminal = false ∧ ∃ p ∈ s.participants, p.resourceDomainId = d) ∧
        ∀ later, ∃ s', ((controlSystem env).run db later).sessions.find? id = some s' ∧
          s'.routeId = some route ∧ s'.domains = s.domains := by
  have hocc := reachable_occupied h
  refine ⟨fun d => ?_, fun id s hs => hocc.uses_iff hs, fun id s hs route hroute => ?_⟩
  · cases hrow : db.registry.domains.find? d with
    | none => exact (hocc.free hrow).le
    | some row => exact hocc.slots d row hrow
  · have hhoused := hocc.housed id s hs
    have hmem : ∀ d, d ∈ s.domains ↔ ∃ p ∈ s.participants, p.resourceDomainId = d :=
      fun _ => hhoused.mem_domains hroute
    have hqueued : s.state ≠ .queued := by
      intro hq
      have hnone := ((hocc.placed id s hs).queued hq).1
      rw [hroute] at hnone
      cases hnone
    refine ⟨⟨hhoused.nodup, hmem⟩, fun d => ?_, fun later => ?_⟩
    · rw [hhoused.occupiesDomain_iff, hmem, SessionState.occupies_iff]
      exact ⟨fun hd => ⟨hd.1.2, hd.2⟩, fun hd => ⟨⟨hqueued, hd.1⟩, hd.2⟩⟩
    · obtain ⟨s', hs', -, hroute', hdomains⟩ := run_housedIn h ⟨s, hs, hqueued, hroute, rfl⟩ later
      exact ⟨s', hs', hroute', hdomains⟩

/-- The consumer asks for a session outside of every pool, which the coordinator then admits. -/
def labAlone (i : Nat) (ms : Int) : List (Tx × Request) := [
    (labTx i ms, .user labConsumer (.quote ⟨"m", 16, none⟩)),
    (labTx (i + 1) ms, .user labConsumer
      (.createSession ⟨1000 * i, toString i, "s", 10, "m", 16, 10, 1⟩)),
    (labTx (i + 2) ms, .gateway (.admitSession (1000 * (i + 1))))]

/-- A fifth node serves the model alone, in a domain with one slot. It takes the session `75000`,
and the session `78000` gets the route `20000`. -/
def labSolo : List (Tx × Request) := [
    (labTx 70 8000, .user labAdmin (.domain 4 0 1)),
    (labTx 71 8000, .user labAdmin (.invite 5 "t5" 0 4 "m" .inference)),
    (labTx 72 8000, .background (.register "t5" "k5" 1)),
    (labTx 73 8000, .node 5 (.heartbeat 1 1 .ready ["b"] none))] ++
  labAlone 74 8000 ++ labAlone 77 8000

/-- A session on a node alone and two on routes run in the laboratory, each in the only slots of
its domains, and another has to wait. -/
theorem no_oversubscription_lab :
    (((labDb (labSetup ++ labPlan ++ labWork ++ labSolo)).sessions.rows.map fun s =>
        ((s.1, s.2.state), s.2.nodeId, s.2.routeId, s.2.domains)) = [
      ((41000, .completed), some 1, some 19000, [1, 2]),
      ((51000, .running), some 1, some 19000, [1, 2]),
      ((61000, .queued), none, none, []),
      ((75000, .preparing), some 5, none, [4]),
      ((78000, .preparing), some 3, some 20000, [3])] ∧
    ∀ d ∈ [1, 2, 3, 4],
      (labDb (labSetup ++ labPlan ++ labWork ++ labSolo)).registry.domains.find? d =
          some ⟨0, 1⟩ ∧
        occupancy (labDb (labSetup ++ labPlan ++ labWork ++ labSolo)) d = 1) ∧
    ∀ d, occupancy (labDb (labSetup ++ labPlan ++ labWork ++ labSolo)) d ≤
      (((labDb (labSetup ++ labPlan ++ labWork ++ labSolo)).registry.domains.find? d).map
        (·.slots)).getD 0 :=
  ⟨by decide +kernel, (no_oversubscription (reachable_lab _)).1⟩

end NetworkAi
