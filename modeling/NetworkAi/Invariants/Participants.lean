import NetworkAi.Control.SessionSteps
import NetworkAi.Invariants.Books

set_option relaxedAutoImplicit false
set_option autoImplicit false

/-!
# Where a session runs

An admission records the node of a session and, on a route, every member of the route with the
epoch of its node. Nothing changes this record afterwards: the participants of a session are the
members of its route, its own node is the root of them, and no recorded epoch is ahead of the node.

## Main definitions

* `NetworkAi.SessionParticipant.admitted` — what an admission records of a participant.
* `NetworkAi.Session.epochs` — the nodes of a session with their recorded epochs.
* `NetworkAi.Session.Placed` — the record of an admission agrees with the registry.

## Main results

* `NetworkAi.Session.Step.place` — a step keeps the record, or admits a queued session.
* `NetworkAi.reachable_placed` — every session of a reachable database is placed.
-/

namespace NetworkAi

open Relational

variable {env : Env} {req : Request} {tx t : Tx} {db db' : Db} {id : SessionId} {s s' : Session}

/-! ### The record of an admission -/

/-- The member of a route that a participant was admitted as. -/
def SessionParticipant.member (p : SessionParticipant) : RouteMember :=
  ⟨p.nodeId, p.providerId, p.resourceDomainId, p.ordinal, p.role, p.shareBps⟩

/-- What an admission records of a participant: the member, and the epoch of its node. -/
def SessionParticipant.admitted (p : SessionParticipant) : RouteMember × Nat :=
  (p.member, p.nodeEpoch)

/-- The nodes of a session with their recorded epochs: its own node, and its participants'. -/
def Session.epochs (s : Session) : List (NodeId × Nat) :=
  (s.nodeId.bind fun n => s.nodeEpoch.map fun e => (n, e)).toList ++
    s.participants.map fun p => (p.nodeId, p.nodeEpoch)

/-- **The record of an admission** agrees with the registry. -/
structure Session.Placed (r : Registry) (s : Session) : Prop where
  queued : s.state = .queued → s.routeId = none ∧ s.nodeId = none ∧ s.participants = []
  single : s.routeId = none → s.participants = []
  route : ∀ id, s.routeId = some id → ∃ e epoch, r.routes.find? id = some e ∧
    s.routeSha256 = some e.routeSha256 ∧ s.participants.map (·.member) = e.members ∧
    s.nodeId = some e.rootNodeId ∧ s.nodeEpoch = some epoch ∧
    ∀ x ∈ s.participants.map (·.admitted), x.1.role = .root → x.2 = epoch
  epochs : ∀ x ∈ s.epochs, ∃ n, r.nodes.find? x.1 = some n ∧ x.2 ≤ n.epoch

/-- A session that is where it was. -/
structure Session.SamePlace (s s' : Session) : Prop where
  node : s'.nodeId = s.nodeId
  epoch : s'.nodeEpoch = s.nodeEpoch
  route : s'.routeId = s.routeId
  sha : s'.routeSha256 = s.routeSha256
  participants : s'.participants.map (·.admitted) = s.participants.map (·.admitted)
  queued : s'.state = .queued → s.state = .queued

/-- A session is where it is. -/
theorem Session.SamePlace.refl (s : Session) : s.SamePlace s := ⟨rfl, rfl, rfl, rfl, rfl, id⟩

/-- The members and the epochs of a session are read off what was recorded. -/
theorem map_member_eq (ps : List SessionParticipant) :
    ps.map (·.member) = (ps.map (·.admitted)).map Prod.fst := by
  rw [List.map_map]
  rfl

/-- The epochs of a session are read off the records of its admission. -/
theorem Session.epochs_eq (s : Session) : s.epochs =
    (s.nodeId.bind fun n => s.nodeEpoch.map fun e => (n, e)).toList ++
      (s.participants.map (·.admitted)).map fun x => (x.1.nodeId, x.2) := by
  rw [List.map_map]
  rfl

namespace Session.SamePlace

/-- A session that is where it was has the same epochs. -/
theorem epochs_eq (h : s.SamePlace s') : s'.epochs = s.epochs := by
  rw [Session.epochs_eq, Session.epochs_eq, h.node, h.epoch, h.participants]

/-- A session that is where it was has participants as before. -/
theorem nil_iff (h : s.SamePlace s') : s'.participants = [] ↔ s.participants = [] := by
  have hlength : s'.participants.length = s.participants.length := by
    have := congrArg List.length h.participants
    rwa [List.length_map, List.length_map] at this
  rw [← List.length_eq_zero_iff, ← List.length_eq_zero_iff, hlength]

/-- A session that is where it was is placed as it was. -/
theorem placed (h : s.SamePlace s') {r : Registry} (hp : s.Placed r) : s'.Placed r where
  queued hq := by
    obtain ⟨hroute, hnode, hps⟩ := hp.queued (h.queued hq)
    exact ⟨h.route.trans hroute, h.node.trans hnode, h.nil_iff.2 hps⟩
  single hr := h.nil_iff.2 (hp.single (h.route ▸ hr))
  route id hid := by
    obtain ⟨e, epoch, he, hsha, hmembers, hnode, hepoch, hroot⟩ := hp.route id (h.route ▸ hid)
    refine ⟨e, epoch, he, h.sha.trans hsha, ?_, h.node.trans hnode, h.epoch.trans hepoch, ?_⟩
    · rw [map_member_eq, h.participants, ← map_member_eq, hmembers]
    · rw [h.participants]
      exact hroot
  epochs x hx := hp.epochs x (h.epochs_eq ▸ hx)

end Session.SamePlace

/-! ### What a step does to the record -/

/-- What a session keeps while it goes on, as recorded. -/
theorem map_admitted_of_frozen {ps ps' : List SessionParticipant}
    (h : ps'.map (·.frozen) = ps.map (·.frozen)) :
    ps'.map (·.admitted) = ps.map (·.admitted) := by
  have hmap : ∀ l : List SessionParticipant, l.map (·.admitted) = (l.map (·.frozen)).map
      (fun f => (⟨f.nodeId, f.providerId, f.resourceDomainId, f.ordinal, f.role, f.shareBps⟩,
        f.nodeEpoch)) := by
    intro l
    rw [List.map_map]
    rfl
  rw [hmap, h, ← hmap]

/-- A payment changes nothing that does not depend on what was paid. -/
theorem map_payParticipants {β : Type} {f : SessionParticipant → β}
    (hf : ∀ p n, f { p with paid := n } = f p) {payments : List Int} :
    ∀ {ps : List SessionParticipant}, payments.length = ps.length →
      (payParticipants ps payments).map f = ps.map f := by
  induction payments with
  | nil =>
    intro ps hlength
    rw [List.length_nil, eq_comm, List.length_eq_zero_iff] at hlength
    subst hlength
    rfl
  | cons n payments ih =>
    intro ps hlength
    cases ps with
    | nil => cases hlength
    | cons p ps =>
      rw [List.length_cons, List.length_cons, add_left_inj] at hlength
      have htail := ih hlength
      unfold payParticipants at htail ⊢
      rw [List.zipWith_cons_cons, List.map_cons, htail, hf, List.map_cons]

/-- A session that continues is where it was. -/
theorem Session.Continues.place (h : s.Continues s') : s.SamePlace s' where
  node := by rw [h.row]
  epoch := by rw [h.row]
  route := by rw [h.row]
  sha := by rw [h.row]
  participants := map_admitted_of_frozen h.participants
  queued hq := by
    have hlive := h.live
    have hoccupies := h.occupies
    rw [hq] at hoccupies
    revert hlive hoccupies
    cases s.state <;> simp [SessionState.terminal, SessionState.occupies]

/-- The division of a charge pays participants and changes nothing else of them. -/
theorem Split.map_participants {β : Type} {f : SessionParticipant → β}
    (hf : ∀ p n, f { p with paid := n } = f p) {charge : Int} {entries : List (AccountId × Int)}
    {settlements : Table SessionId Settlement} (h : Split db id s charge entries s' settlements) :
    s'.participants.map f = s.participants.map f := by
  cases h with
  | free | recycled | node => rfl
  | route _ _ _ hpay =>
    have hlength := length_splitByBps hpay
    rw [List.length_map] at hlength
    exact map_payParticipants hf hlength

/-- **A step keeps the record of an admission**, or it is the admission of a queued session. -/
theorem Session.Step.place (h : s.Step env req db db' id s') :
    s.SamePlace s' ∨ ∃ t o, Admitted t db s o s' := by
  cases h with
  | same => exact .inl (.refl s)
  | admitted h => exact .inr ⟨_, _, h⟩
  | updated h => exact .inl h.continues.place
  | @finalized t s₁ s₂ state charge error billing entries hreport hlive _ _ _ hsplit _ =>
    refine .inl ⟨?_, ?_, ?_, ?_, ?_, fun hq => ?_⟩
    · rw [hsplit.same, hreport.row]
      rfl
    · rw [hsplit.same, hreport.row]
      rfl
    · rw [hsplit.same, hreport.row]
      rfl
    · rw [hsplit.same, hreport.row]
      rfl
    · have hplace := hsplit.map_participants (f := (·.admitted)) fun _ _ => rfl
      rw [hreport.row] at hplace
      exact hplace
    · have hq : state.toSession = .queued := hq
      cases state <;> cases hq
  | refunded => exact .inl ⟨rfl, rfl, rfl, rfl, rfl, fun h => h⟩

/-! ### Admission -/

/-- The offer of a route names the root of the route. -/
theorem Registry.routeOffer_root {r : Registry} {now : Micros} {o : Offer} {id : RouteId}
    (h : o ∈ r.readyOffers now) (hid : o.routeId = some id) :
    ∃ e, r.routes.find? id = some e ∧ o.rootNodeId = e.rootNodeId := by
  unfold readyOffers at h
  rw [List.mem_append, List.mem_filterMap, List.mem_filterMap] at h
  rcases h with ⟨⟨n, node⟩, -, hn⟩ | ⟨⟨k, e⟩, hmem, he⟩
  · simp only [nodeOffer] at hn
    split at hn
    · split at hn
      · rw [Option.some.injEq] at hn
        rw [← hn] at hid
        cases hid
      · cases hn
    · cases hn
  · simp only [routeOffer] at he
    split at he
    · split at he
      · rw [Option.some.injEq] at he
        rw [← he] at hid ⊢
        rw [Option.some.injEq] at hid
        exact ⟨e, Table.find?_eq_some.2 (hid ▸ hmem), rfl⟩
      · cases he
    · cases he

/-- What the admission of a member records. -/
theorem admitMember_ok {m : RouteMember} {p : SessionParticipant}
    (h : admitMember db m = .ok p) :
    ∃ n, db.registry.nodes.find? m.nodeId = some n ∧ p.member = m ∧ p.nodeEpoch = n.epoch ∧
      p.paid = 0 ∧ p.prepareId = none ∧ p.claimedAt = none ∧ p.receipt = none := by
  unfold admitMember at h
  simp only [Checked.bind_ok, reference_ok, Checked.pure_ok] at h
  obtain ⟨n, hn, rfl⟩ := h
  exact ⟨n, hn, rfl, rfl, rfl, rfl, rfl, rfl⟩

/-- What the admission of a route records of each participant. -/
theorem admitMembers_ok {route : Option ExecutionRoute} {members : List SessionParticipant}
    (h : admitMembers db route = .ok members) :
    members.map (·.member) = (route.map (·.members)).getD [] ∧
      ∀ p ∈ members, (∃ n, db.registry.nodes.find? p.nodeId = some n ∧ p.nodeEpoch = n.epoch) ∧
        p.paid = 0 ∧ p.prepareId = none ∧ p.claimedAt = none ∧ p.receipt = none := by
  cases route with
  | none =>
    simp only [admitMembers, Checked.pure_ok] at h
    subst h
    exact ⟨rfl, fun p hp => by cases hp⟩
  | some e =>
    have hall : e.members.mapM (admitMember db) = .ok members := h
    rw [Checked.mapM_ok] at hall
    simp only [Option.map_some, Option.getD_some]
    clear h
    generalize e.members = ms at hall
    induction hall with
    | nil => exact ⟨rfl, fun p hp => by cases hp⟩
    | cons hmp _ ih =>
      obtain ⟨n, hn, hmember, hepoch, hrest⟩ := admitMember_ok hmp
      refine ⟨?_, fun p hp => ?_⟩
      · rw [List.map_cons, hmember, ih.1]
      · rcases List.mem_cons.1 hp with rfl | hp
        · rw [← hmember] at hn
          exact ⟨⟨n, hn, hepoch⟩, hrest⟩
        · exact ih.2 p hp

/-- **An admission places the session.**

**Proof sketch.** A queued session has no participants, so that they are those of the offer's route,
at the epochs of their nodes. The root of the route is the node of the offer, and the only member
with the role of a root. -/
theorem Admitted.placed {o : Offer} (h : Admitted t db s o s') (hp : s.Placed db.registry) :
    s'.Placed db.registry := by
  obtain ⟨hnone, -, hnil⟩ := hp.queued h.queued
  obtain ⟨node, hnode, hid, -, hepoch⟩ := h.node
  obtain ⟨members, hmembers, hps⟩ := h.members
  rw [hnil, List.nil_append] at hps
  obtain ⟨hmap, hmem⟩ := admitMembers_ok hmembers
  have hoffer : o ∈ db.registry.readyOffers t.now := (List.mem_filter.1 h.offer).1
  have hroute : s'.routeId = (o.routeId.bind db.registry.routes.find?).bind fun _ => o.routeId := by
    rw [h.row]
  have hsha : s'.routeSha256 = (o.routeId.bind db.registry.routes.find?).map (·.routeSha256) := by
    rw [h.row]
  have hstate : s'.state = .preparing := by rw [h.row]
  refine ⟨fun hq => ?_, fun hr => ?_, fun k hk => ?_, fun x hx => ?_⟩
  · rw [hstate] at hq
    cases hq
  · cases hfound : o.routeId.bind db.registry.routes.find? with
    | none =>
      rw [hfound] at hmap
      rw [hps]
      exact List.map_eq_nil_iff.1 hmap
    | some e =>
      rw [hroute, hfound] at hr
      rw [show o.routeId = none from hr] at hfound
      cases hfound
  · cases hfound : o.routeId.bind db.registry.routes.find? with
    | none =>
      rw [hroute, hfound] at hk
      cases hk
    | some e =>
      rw [hroute, hfound] at hk
      replace hk : o.routeId = some k := hk
      obtain ⟨e', he', hroot⟩ := Registry.routeOffer_root hoffer hk
      rw [hk, Option.bind_some, he'] at hmap hsha
      refine ⟨e', node.epoch, he', hsha, by rw [hps, hmap]; rfl, by rw [hid, hroot], hepoch,
        fun x hx hrole => ?_⟩
      rw [hps] at hx
      obtain ⟨p, hp, rfl⟩ := List.mem_map.1 hx
      obtain ⟨⟨n, hn, hpe⟩, -⟩ := hmem p hp
      have hpm : p.member ∈ e'.members := by
        have hin : p.member ∈ members.map (·.member) := List.mem_map_of_mem hp
        rw [hmap] at hin
        exact hin
      have hroot' : p.nodeId = e'.rootNodeId := e'.complete.root p.member hpm hrole
      rw [hroot', ← hroot, hnode, Option.some.injEq] at hn
      show p.nodeEpoch = node.epoch
      rw [hpe, hn]
  · unfold Session.epochs at hx
    rw [hid, hepoch, hps, List.mem_append] at hx
    rcases hx with hx | hx
    · simp only [Option.bind_some, Option.map_some, Option.toList_some, List.mem_singleton] at hx
      subst hx
      exact ⟨node, hnode, le_rfl⟩
    · obtain ⟨p, hp, rfl⟩ := List.mem_map.1 hx
      obtain ⟨⟨n, hn, hpe⟩, -⟩ := hmem p hp
      exact ⟨n, hn, hpe.le⟩

/-! ### The invariant -/

/-- A session stays placed while the registry evolves. -/
theorem Session.Placed.evolves {r r' : Registry} (hp : s.Placed r) (h : r.Evolves env r') :
    s.Placed r' where
  queued := hp.queued
  single := hp.single
  route id hid := by
    obtain ⟨e, epoch, he, hsha, hmembers, hnode, hrest⟩ := hp.route id hid
    obtain ⟨e', he', hsame⟩ := h.routes.old he
    exact ⟨e', epoch, he', by rw [hsame.sha]; exact hsha, by rw [hsame.members]; exact hmembers,
      by rw [hsame.root]; exact hnode, hrest⟩
  epochs x hx := by
    obtain ⟨n, hn, hle⟩ := hp.epochs x hx
    obtain ⟨n', hn', hsame⟩ := h.nodes.old hn
    exact ⟨n', hn', hle.trans hsame.epoch⟩

/-- Every session is placed. -/
def Placements (db : Db) : Prop :=
  ∀ id s, db.sessions.find? id = some s → s.Placed db.registry

/-- **Every change keeps the sessions placed.** -/
theorem Change.placements (h : Change env req tx db db') (hp : Placements db) :
    Placements db' := by
  intro id s' hs'
  rcases h.session_cases hs' with ⟨-, t, user, d, quote, -, rfl⟩ | ⟨s, hs, hstep⟩
  · refine ⟨fun _ => ⟨rfl, rfl, rfl⟩, fun _ => rfl, fun k hk => ?_, fun x hx => ?_⟩
    · cases hk
    · cases hx
  · have hplaced := hp id s hs
    rcases hstep.place with hsame | ⟨t, o, hadmission⟩
    · exact (hsame.placed hplaced).evolves h.registry
    · exact (hadmission.placed hplaced).evolves h.registry

/-- **Every session of a reachable database is placed.** -/
theorem reachable_placed (h : Machine.Reachable (controlSystem env) db) : Placements db :=
  reachable_of_changes (P := Placements) (fun _ _ _ hs => by cases hs)
    (fun _ _ _ _ hp hc => hc.placements hp) h

end NetworkAi
