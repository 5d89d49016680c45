import NetworkAi.Control.Coordinator
import NetworkAi.Ledger.Projection
import Mathlib.Logic.Function.Basic

set_option relaxedAutoImplicit false
set_option autoImplicit false

/-!
# Nodes that keep reporting

A heartbeat of a ready node that finds it as it was changes one thing only: when the node was last
seen. A registry whose nodes all report at an instant is therefore known but for that instant, and
the routes that were ready stay so.

## Main definitions

* `NetworkAi.Report`, `NetworkAi.Registry.Confirms` — a report that finds a ready node as it was.
* `NetworkAi.Registry.seenAt` — a registry but for when its nodes were last seen.
* `NetworkAi.reports` — one report of each of some nodes.

## Main results

* `NetworkAi.Registry.heartbeat_seenAt` — what a confirming report changes.
* `NetworkAi.Registry.routeReady_seenAt` — the routes that are ready when all nodes were just seen
  do not depend on when that is.
* `NetworkAi.run_reports` — the database after a round of reports.
-/

namespace NetworkAi

open Relational

/-- What a node reports of itself while it is ready. -/
structure Report where
  epoch : Nat
  bootId : Nat
  loaded : List String
  profile : Option GenerationProfile
  deriving DecidableEq, Repr

/-- The request of a report. -/
def Report.request (d : Report) : NodeRequest :=
  .heartbeat d.epoch d.bootId .ready d.loaded d.profile

namespace Registry

/-- The registry with its nodes last seen at other instants. -/
def seenAt (r : Registry) (seen : NodeId → Micros) : Registry :=
  { r with nodes := r.nodes.mapRows fun id n => { n with lastSeen := some (seen id) } }

variable {r : Registry} {seen seen' : NodeId → Micros} {d : Report} {id : NodeId}

/-- A node of such a registry. -/
theorem find?_seenAt :
    (r.seenAt seen).nodes.find? id =
      (r.nodes.find? id).map fun n => { n with lastSeen := some (seen id) } :=
  Table.find?_mapRows

/-- Readings of the nodes leave the models. -/
@[simp] theorem models_seenAt (seen : NodeId → Micros) : (r.seenAt seen).models = r.models := rfl

/-- Only the instants of registered nodes matter. -/
theorem seenAt_congr (h : ∀ id, (r.nodes.find? id).isSome → seen id = seen' id) :
    r.seenAt seen = r.seenAt seen' := by
  unfold seenAt
  congr 1
  exact Table.mapRows_congr fun id n hn => by rw [h id (by rw [hn]; rfl)]

/-- A registry is as its nodes were last seen. -/
theorem seenAt_self (h : ∀ id n, r.nodes.find? id = some n → n.lastSeen = some (seen id)) :
    r.seenAt seen = r := by
  have hrows : (r.nodes.mapRows fun id n => { n with lastSeen := some (seen id) }) = r.nodes :=
    Table.mapRows_eq_self fun id n hn => by rw [← h id n hn]
  unfold seenAt
  rw [hrows]

/-- **A report that confirms a ready node**: it comes from the current run of the node, with the
models that the node has loaded, among them the one it serves. -/
def Confirms (r : Registry) (d : Report) (id : NodeId) : Prop :=
  isPositiveInt d.epoch ∧ ∃ n ∈ r.nodes.find? id, ∃ m ∈ r.models.find? n.modelId,
    n.epoch = d.epoch ∧ n.bootId = some d.bootId ∧ n.state = .ready ∧ n.desiredState = .ready ∧
      n.loadedBackendModels = d.loaded ∧ m.manifest.backendModel ∈ d.loaded ∧
      (n.kind = .rpcStage ∨ d.profile = m.manifest.generationProfile)

instance decidableConfirms (r : Registry) (d : Report) (id : NodeId) :
    Decidable (r.Confirms d id) := inferInstanceAs (Decidable (_ ∧ _))

/-- **A confirming report** changes when the node was last seen, and nothing else. -/
theorem heartbeat_seenAt (h : r.Confirms d id) (tx : Tx) (seen : NodeId → Micros) :
    (r.seenAt seen).heartbeat tx id d.epoch d.bootId .ready d.loaded d.profile =
      .ok (r.seenAt (Function.update seen id tx.now)) := by
  obtain ⟨hepoch, n, hn, m, hm, hnow, hboot, hstate, hdesired, hloaded, hserves, hprofile⟩ := h
  have hfound : (r.seenAt seen).nodes.find? id = some { n with lastSeen := some (seen id) } := by
    rw [find?_seenAt, hn]
    rfl
  have hmodel : (r.seenAt seen).models.find? n.modelId = some m := hm
  unfold heartbeat
  simp only [Checked.bind_ok, parse_ok, needRow_ok, need_ok, reference_ok, Checked.pure_ok,
    exists_const]
  refine ⟨⟨hepoch, by decide, by decide⟩, _, hfound, ⟨hnow, hboot, ?_⟩, m, hmodel, ?_⟩
  · show n.desiredState ≠ .revoked
    rw [hdesired]
    decide
  · have hready : (if n.desiredState = .paused then NodeState.paused
        else if NodeState.ready = .ready then
          (if m.manifest.backendModel ∈ d.loaded ∧
              (n.kind = .rpcStage ∨ d.profile = m.manifest.generationProfile) then .ready
            else .validating)
        else .ready) = n.state := by
      rw [hdesired, if_neg (by decide), if_pos rfl, if_pos ⟨hserves, hprofile⟩, hstate]
    have hset : ((r.nodes.mapRows fun id n => { n with lastSeen := some (seen id) }).set id
        { n with lastSeen := some (Function.update seen id tx.now id) }) =
          r.nodes.mapRows fun id' n' =>
            { n' with lastSeen := some (Function.update seen id tx.now id') } := by
      refine Table.mapRows_set (g := fun id' n' =>
        { n' with lastSeen := some (Function.update seen id tx.now id') }) hn fun id' n' _ hne => ?_
      rw [Function.update_of_ne hne]
    rw [Function.update_self] at hset
    have hrow : ({ n with
        lastSeen := some tx.now, loadedBackendModels := d.loaded, state := n.state } : Node) =
        { n with lastSeen := some tx.now } := by
      rw [← hloaded]
    refine Eq.trans ?_ (congrArg (fun nodes => ({ r with nodes } : Registry)) hset)
    rw [← hrow]
    exact congrArg (fun state => ({ r with
      nodes := (r.seenAt seen).nodes.set id { n with
        lastSeen := some tx.now, loadedBackendModels := d.loaded, state } } : Registry)) hready

/-! ### Readiness -/

/-- A node that was just seen was seen recently. -/
theorem seenRecently_self (now : Micros) : seenRecently now (some now) = true := by
  have hlt : now - seconds 15 < now := Int.sub_lt_self now (by decide)
  exact decide_eq_true hlt

/-- A member whose node was just seen is ready or not, whenever that is. -/
theorem memberReady_seenAt (now now' : Micros) (id : RouteId) (route : ExecutionRoute) (m : Model)
    (rm : RouteMember) :
    (r.seenAt fun _ => now).memberReady now id route m rm =
      (r.seenAt fun _ => now').memberReady now' id route m rm := by
  unfold memberReady
  rw [find?_seenAt, find?_seenAt]
  cases r.nodes.find? rm.nodeId with
  | none => rfl
  | some n =>
    simp only [Option.map_some, seenAt]
    cases r.users.find? rm.providerId with
    | none => rfl
    | some u =>
      cases r.routeAcceptances.find? (id, rm.providerId) with
      | none => rfl
      | some a => simp only [seenRecently_self]

/-- A route is ready if one of the rows of the view is its own. -/
theorem routeReady_iff {now : Micros} :
    r.routeReady now id = true ↔ ∃ e ∈ r.routes.rows, ∃ o, r.routeOffer now e.1 e.2 = some o ∧
      o.routeId = some id := by
  unfold routeReady readyOffers
  rw [List.any_append, Bool.or_eq_true, List.any_eq_true, List.any_eq_true]
  simp only [List.mem_filterMap, decide_eq_true_eq]
  constructor
  · rintro (⟨o, ⟨n, -, ho⟩, hid⟩ | ⟨o, ⟨e, he, ho⟩, hid⟩)
    · -- the row of a node is no row of a route
      unfold nodeOffer at ho
      split at ho
      · split at ho
        · cases ho
          cases hid
        · cases ho
      · cases ho
    · exact ⟨e, he, o, ho, hid⟩
  · rintro ⟨e, he, o, ho, hid⟩
    exact .inr ⟨o, ⟨e, he, ho⟩, hid⟩

/-- The row of a route, when its nodes were just seen, but for when that is. -/
theorem routeOffer_seenAt (now now' : Micros) (id : RouteId) (route : ExecutionRoute) :
    (r.seenAt fun _ => now').routeOffer now' id route =
      ((r.seenAt fun _ => now).routeOffer now id route).map fun o =>
        { o with lastSeen := some now' } := by
  unfold routeOffer
  rw [find?_seenAt, find?_seenAt]
  cases r.nodes.find? route.rootNodeId with
  | none => rfl
  | some n =>
    simp only [Option.map_some, memberReady_seenAt now now', models_seenAt]
    cases r.models.find? route.modelId with
    | none => rfl
    | some m =>
      dsimp only
      split
      · rfl
      · rfl

/-- **Readiness of just seen nodes**: the ready routes do not depend on when the nodes were seen. -/
theorem routeReady_seenAt (now now' : Micros)
    (h : (r.seenAt fun _ => now).routeReady now id = true) :
    (r.seenAt fun _ => now').routeReady now' id = true := by
  rw [routeReady_iff] at h ⊢
  obtain ⟨e, he, o, ho, hid⟩ := h
  refine ⟨e, he, { o with lastSeen := some now' }, ?_, hid⟩
  rw [routeOffer_seenAt now now', ho]
  rfl

end Registry

/-! ### Rounds of reports -/

/-- Each of some nodes reports, at the readings of one transaction. -/
def reports (d : Report) (tx : Tx) (ids : List NodeId) : List (Tx × Request) :=
  ids.map fun id => (tx, .node id d.request)

variable {env : Env} {db : Db} {r : Registry} {d : Report} {tx : Tx}

/-- **One report** moves the instant at which its node was seen. -/
theorem step_report {id : NodeId} {seen : NodeId → Micros} (h : r.Confirms d id)
    (hr : db.registry = r.seenAt seen) (hbooks : db.books.Sound) :
    (controlSystem env).step (tx, .node id d.request) db =
      { db with registry := r.seenAt (Function.update seen id tx.now), xid := db.xid + 1 } := by
  have htransaction : transaction env tx db (.node id d.request) =
      .ok { db with registry := r.seenAt (Function.update seen id tx.now) } := by
    have hbeat := Registry.heartbeat_seenAt h tx seen
    rw [← hr] at hbeat
    refine Checked.bind_ok.2 ⟨_, Checked.bind_ok.2 ⟨_, hbeat, rfl⟩, ?_⟩
    exact Checked.bind_ok.2 ⟨(), hbooks.commit _, rfl⟩
  show { Checked.settle (transaction env tx db (.node id d.request)) db with xid := db.xid + 1 } = _
  rw [htransaction]
  rfl

/-- **A round of reports** moves the instants of the nodes that report. -/
theorem run_reports {ids : List NodeId} {seen : NodeId → Micros} (h : ∀ id ∈ ids, r.Confirms d id)
    (hr : db.registry = r.seenAt seen) (hbooks : db.books.Sound) :
    (controlSystem env).run db (reports d tx ids) =
      { db with
        registry := r.seenAt fun id => if id ∈ ids then tx.now else seen id
        xid := db.xid + ids.length } := by
  induction ids generalizing db seen with
  | nil =>
    have hsame : (r.seenAt fun id => if id ∈ ([] : List NodeId) then tx.now else seen id) =
        db.registry := by
      rw [hr]
      exact Registry.seenAt_congr fun id _ => if_neg List.not_mem_nil
    rw [hsame]
    rfl
  | cons id ids ih =>
    have hstep : (controlSystem env).step (tx, .node id d.request) db =
        { db with registry := r.seenAt (Function.update seen id tx.now), xid := db.xid + 1 } :=
      step_report (h id List.mem_cons_self) hr hbooks
    have hrest := @ih { db with
      registry := r.seenAt (Function.update seen id tx.now), xid := db.xid + 1 }
      (Function.update seen id tx.now) (fun id' hid => h id' (List.mem_cons_of_mem _ hid)) rfl hbooks
    rw [reports, List.map_cons, Machine.System.run_cons, hstep]
    refine hrest.trans ?_
    have hseen : (r.seenAt fun id' => if id' ∈ ids then tx.now else
        Function.update seen id tx.now id') =
        r.seenAt fun id' => if id' ∈ id :: ids then tx.now else seen id' := by
      refine Registry.seenAt_congr fun id' _ => ?_
      by_cases hself : id' = id
      · subst hself
        rw [Function.update_self, if_pos List.mem_cons_self, ite_self]
      · rw [Function.update_of_ne hself]
        simp only [List.mem_cons, hself, false_or]
    rw [hseen, List.length_cons, add_assoc, add_comm 1]

/-- If every registered node reports, all nodes were seen at one instant. -/
theorem run_reports_all {ids : List NodeId} {seen : NodeId → Micros}
    (h : ∀ id ∈ ids, r.Confirms d id) (hall : ∀ id, (r.nodes.find? id).isSome → id ∈ ids)
    (hr : db.registry = r.seenAt seen) (hbooks : db.books.Sound) :
    (controlSystem env).run db (reports d tx ids) =
      { db with registry := r.seenAt fun _ => tx.now, xid := db.xid + ids.length } := by
  rw [run_reports h hr hbooks, Registry.seenAt_congr fun id hid => if_pos (hall id hid)]

end NetworkAi
