import NetworkAi.Control.RenewalMoves

set_option relaxedAutoImplicit false
set_option autoImplicit false

/-!
# Caps on contracts and windows

A sponsor has four open contracts at most, over contracts of nodes and windows of routes together,
whichever operation offered them; and a group of a pool has one open window at most of each kind of
coverage.

## Main definitions

* `NetworkAi.openWindows` — the open windows of a group, of one kind.
* `NetworkAi.WindowHeld` — the lease of a window.

## Main results

* `NetworkAi.Change.openContracts_le` — a change opens a contract only for a sponsor with one to
  spare.
* `NetworkAi.Change.oneWindow` — a change opens a window only for a group without one.
* `NetworkAi.sponsor_and_window_caps` — the caps, in every reachable database.
-/

namespace NetworkAi

open Relational

variable {env : Env} {req : Request} {tx : Tx} {db db' : Db} {id : LeaseId}

/-! ### Contracts of a sponsor -/

/-- **The contracts that a change opens**: one at most, for a sponsor with one to spare.

**Proof sketch.** By the move. Three moves insert a contract or a window, after a check of how many
their sponsor has open; all others write rows that were there. -/
theorem Change.opened (h : Change env req tx db db') :
    ∃ nodes routes : List LeaseId, nodes.length + routes.length ≤ 1 ∧
      (∀ id l, db'.nodeLeases.find? id = some l → db.nodeLeases.find? id = none →
        id ∈ nodes ∧ openContracts db l.sponsorId < 4) ∧
      ∀ id l, db'.routeLeases.find? id = some l → db.routeLeases.find? id = none →
        id ∈ routes ∧ openContracts db l.sponsorId < 4 := by
  have hsame : ∀ {V : Type} (t : Table LeaseId V) (id : LeaseId) (v : V), t.find? id = some v →
      t.find? id = none → ∀ {P : Prop}, P := by
    intro V t id v hv hn P
    rw [hn] at hv
    cases hv
  have hset : ∀ {V : Type} (t : Table LeaseId V) (k id : LeaseId) (w v : V),
      (t.set k w).find? id = some v → t.find? id = none → ∀ {P : Prop}, P := by
    intro V t k id w v hv hn P
    rcases Table.find?_set_cases hv with ⟨rfl, -, hsome⟩ | ⟨-, hv⟩
    · rw [hn] at hsome
      cases hsome
    · rw [hn] at hv
      cases hv
  rcases h with h | h
  · cases h with
    | @nodeLeaseOffered id l books hid _ _ _ _ _ hcontracts _ =>
      refine ⟨[id], [], le_rfl, fun k v hv hn => ?_, fun k v hv hn => hsame _ k v hv hn⟩
      rcases Table.find?_insert_cases (h := hid) hv with ⟨rfl, rfl⟩ | ⟨-, hv⟩
      · exact ⟨List.mem_singleton_self _, hcontracts⟩
      · exact hsame _ k v hv hn
    | @routeOffered t d route terms books h _ | @windowOffered t d route terms books _ _ _ _ h =>
      refine ⟨[], [terms.leaseId], le_rfl, fun k v hv hn => hsame _ k v hv hn, fun k v hv hn => ?_⟩
      rcases Table.find?_insert_cases (h := h.id) hv with ⟨rfl, rfl⟩ | ⟨-, hv⟩
      · exact ⟨List.mem_singleton_self _, h.contracts⟩
      · exact hsame _ k v hv hn
    | nodeLeaseActivated | nodeLeaseSampled | nodeLeaseClosed =>
      exact ⟨[], [], Nat.zero_le _, fun k v hv hn => hset _ _ k _ v hv hn,
        fun k v hv hn => hsame _ k v hv hn⟩
    | routeAccepted | routeActivated | routeSampled | routeDrained | routeClosed =>
      exact ⟨[], [], Nat.zero_le _, fun k v hv hn => hsame _ k v hv hn,
        fun k v hv hn => hset _ _ k _ v hv hn⟩
    | _ =>
      exact ⟨[], [], Nat.zero_le _, fun k v hv hn => hsame _ k v hv hn,
        fun k v hv hn => hsame _ k v hv hn⟩
  · cases h <;>
    exact ⟨[], [], Nat.zero_le _, fun k v hv hn => hsame _ k v hv hn,
      fun k v hv hn => hsame _ k v hv hn⟩

/-- **A change opens a contract** only for a sponsor with one to spare.

**Proof sketch.** What is open after the change was open before, or was opened by it, as nothing
that has ended is opened again. A sponsor with a contract to spare has one more at most, and one
without opens none. -/
theorem Change.openContracts_le (h : Change env req tx db db') (sponsor : UserId) :
    openContracts db' sponsor ≤ max (openContracts db sponsor) 4 := by
  obtain ⟨nodes, routes, hone, hnodes, hroutes⟩ := h.opened
  -- what is open was open before
  let openNode : LeaseId × NodeLease → Bool := fun l => l.2.sponsorId = sponsor ∧ l.2.state.isOpen
  let openRoute : LeaseId × RouteLease → Bool := fun l => l.2.sponsorId = sponsor ∧ l.2.state.funded
  have hnodesOld : ∀ (k : LeaseId) (v v' : NodeLease), v.Keeps v' → openNode (k, v') = true →
      openNode (k, v) = true := by
    intro k v v' hkeeps hopen
    simp only [openNode, decide_eq_true_eq] at hopen ⊢
    refine ⟨hkeeps.sponsor ▸ hopen.1, ?_⟩
    by_contra hended
    rw [hkeeps.ended (by simpa using hended)] at hopen
    exact hended hopen.2
  have hroutesOld : ∀ (k : LeaseId) (v v' : RouteLease), v.Keeps v' → openRoute (k, v') = true →
      openRoute (k, v) = true := by
    intro k v v' hkeeps hopen
    simp only [openRoute, decide_eq_true_eq] at hopen ⊢
    refine ⟨hkeeps.sponsor ▸ hopen.1, ?_⟩
    by_contra hended
    rw [hkeeps.ended (by simpa using hended)] at hopen
    exact hended hopen.2
  have hcount : ∀ db : Db, openContracts db sponsor = (db.nodeLeases.rows.filter openNode).length +
      (db.routeLeases.rows.filter openRoute).length := fun _ => rfl
  by_cases hspare : openContracts db sponsor < 4
  · have hn := h.nodeLeases.length_filter_le hnodesOld fun k v hv hn _ => (hnodes k v hv hn).1
    have hr := h.routeLeases.length_filter_le hroutesOld fun k v hv hn _ => (hroutes k v hv hn).1
    rw [hcount] at hspare ⊢
    omega
  · -- a sponsor without a contract to spare opens none
    have hnoNode : ∀ (k : LeaseId) (v : NodeLease), db'.nodeLeases.find? k = some v →
        db.nodeLeases.find? k = none → openNode (k, v) = true → k ∈ ([] : List LeaseId) := by
      intro k v hv hn hopen
      simp only [openNode, decide_eq_true_eq] at hopen
      exact absurd (hopen.1 ▸ (hnodes k v hv hn).2) hspare
    have hnoRoute : ∀ (k : LeaseId) (v : RouteLease), db'.routeLeases.find? k = some v →
        db.routeLeases.find? k = none → openRoute (k, v) = true → k ∈ ([] : List LeaseId) := by
      intro k v hv hn hopen
      simp only [openRoute, decide_eq_true_eq] at hopen
      exact absurd (hopen.1 ▸ (hroutes k v hv hn).2) hspare
    have hn := h.nodeLeases.length_filter_le hnodesOld hnoNode
    have hr := h.routeLeases.length_filter_le hroutesOld hnoRoute
    rw [hcount, hcount]
    simp only [List.length_nil, add_zero] at hn hr
    omega

/-! ### Windows of a group -/

/-- The open windows of a group of a pool, of one kind of coverage. -/
def openWindows (db : Db) (pool : PoolId) (groupKey : String) (kind : CoverageKind) :
    List (LeaseId × CoopWindow × RouteLease) :=
  (poolWindows db pool).filter fun w =>
    w.2.1.groupKey = groupKey ∧ w.2.1.kind = kind ∧ w.2.2.state.funded

/-- The windows of a pool, read off the tables. -/
theorem mem_poolWindows {pool : PoolId} {w : CoopWindow} {l : RouteLease} :
    (id, w, l) ∈ poolWindows db pool ↔ db.windows.find? id = some w ∧ w.poolId = pool ∧
      db.routeLeases.find? id = some l := by
  simp only [poolWindows, List.mem_filterMap, Prod.exists]
  constructor
  · rintro ⟨k, v, hmem, hread⟩
    split at hread
    · rename_i hpool
      obtain ⟨l', hl', heq⟩ := Option.map_eq_some_iff.1 hread
      simp only [Prod.mk.injEq] at heq
      obtain ⟨rfl, rfl, rfl⟩ := heq
      exact ⟨Table.find?_eq_some.2 hmem, hpool, hl'⟩
    · cases hread
  · rintro ⟨hw, hpool, hl⟩
    exact ⟨id, w, Table.find?_eq_some.1 hw, by simp [hpool, hl]⟩

/-- The windows of a pool are distinct. -/
theorem nodup_poolWindows (db : Db) (pool : PoolId) :
    ((poolWindows db pool).map Prod.fst).Nodup := by
  have hsub : ((poolWindows db pool).map Prod.fst).Sublist (db.windows.rows.map Prod.fst) := by
    unfold poolWindows
    induction db.windows.rows with
    | nil => exact List.Sublist.slnil
    | cons r rows ih =>
      rw [List.filterMap_cons]
      split
      · exact ih.cons _
      · rename_i x hx
        split at hx
        · obtain ⟨l, -, rfl⟩ := Option.map_eq_some_iff.1 hx
          exact ih.cons_cons _
        · cases hx
  exact hsub.nodup db.windows.nodup

/-- **One window**: every window has its lease, and two open windows of one group and kind are
the same. -/
structure OneWindow (db : Db) : Prop where
  lease : ∀ id w, db.windows.find? id = some w → (db.routeLeases.find? id).isSome
  one : ∀ id₁ id₂ w₁ w₂ l₁ l₂, db.windows.find? id₁ = some w₁ → db.windows.find? id₂ = some w₂ →
    db.routeLeases.find? id₁ = some l₁ → db.routeLeases.find? id₂ = some l₂ →
    l₁.state.funded = true → l₂.state.funded = true → w₁.poolId = w₂.poolId →
    w₁.groupKey = w₂.groupKey → w₁.kind = w₂.kind → id₁ = id₂

/-- A window with an open lease was open before the change, or it is new in a group that had
none of its kind. -/
theorem Change.window_cases (h : Change env req tx db db') (hone : OneWindow db) {w : CoopWindow}
    {l : RouteLease} (hw : db'.windows.find? id = some w) (hl : db'.routeLeases.find? id = some l)
    (hopen : l.state.funded = true) :
    (db.windows.find? id = some w ∧
      ∃ l₀, db.routeLeases.find? id = some l₀ ∧ l₀.state.funded = true) ∨
    (db.windows.find? id = none ∧ groupCommitted db w.poolId w.groupKey w.kind = false) := by
  rcases h.windows.cases hw with ⟨w₀, hw₀, rfl⟩ |
    ⟨hnone, t, d, route, terms, books, p, c, -, hmatch, -⟩
  · obtain ⟨l₀, hl₀⟩ := Option.isSome_iff_exists.1 (hone.lease id w₀ hw₀)
    obtain ⟨l', hl', hkeeps⟩ := h.routeLeases.old hl₀
    rw [hl, Option.some.injEq] at hl'
    subst hl'
    refine .inl ⟨hw₀, l₀, hl₀, ?_⟩
    by_contra hended
    rw [hkeeps.ended (by simpa using hended)] at hopen
    exact hended hopen
  · exact .inr ⟨hnone, hmatch.single⟩

/-- An open window commits its group. -/
theorem groupCommitted_of_open {w : CoopWindow} {l : RouteLease}
    (hw : db.windows.find? id = some w) (hl : db.routeLeases.find? id = some l)
    (hopen : l.state.funded = true) : groupCommitted db w.poolId w.groupKey w.kind = true := by
  simp only [groupCommitted, List.any_eq_true, decide_eq_true_eq]
  exact ⟨(id, w, l), mem_poolWindows.2 ⟨hw, rfl, hl⟩, rfl, rfl, hopen⟩

/-- A change opens a window of its own at most. -/
theorem Change.new_window (h : Change env req tx db db') {id₁ id₂ : LeaseId} {w₁ w₂ : CoopWindow}
    (hw₁ : db'.windows.find? id₁ = some w₁) (hn₁ : db.windows.find? id₁ = none)
    (hw₂ : db'.windows.find? id₂ = some w₂) (hn₂ : db.windows.find? id₂ = none) : id₁ = id₂ := by
  rcases h with h | h
  · cases h with
    | windowOffered _ _ hid =>
      rcases Table.find?_insert_cases (h := hid) hw₁ with ⟨rfl, -⟩ | ⟨-, hold⟩
      · rcases Table.find?_insert_cases (h := hid) hw₂ with ⟨rfl, -⟩ | ⟨-, hold⟩
        · rfl
        · rw [hn₂] at hold
          cases hold
      · rw [hn₁] at hold
        cases hold
    | _ =>
      rw [hn₁] at hw₁
      cases hw₁
  · cases h <;>
    · rw [hn₁] at hw₁
      cases hw₁

/-- **A change opens a window** only for a group without one of its kind. -/
theorem Change.oneWindow (h : Change env req tx db db') (hone : OneWindow db) : OneWindow db' where
  lease id w hw := by
    rcases h.windows.cases hw with ⟨w₀, hw₀, rfl⟩ |
      ⟨-, t, d, route, terms, books, p, c, -, -, -, hl, -⟩
    · obtain ⟨l₀, hl₀⟩ := Option.isSome_iff_exists.1 (hone.lease id w₀ hw₀)
      obtain ⟨l', hl', -⟩ := h.routeLeases.old hl₀
      rw [hl']
      rfl
    · rw [hl]
      rfl
  one id₁ id₂ w₁ w₂ l₁ l₂ hw₁ hw₂ hl₁ hl₂ hopen₁ hopen₂ hpool hkey hkind := by
    rcases h.window_cases hone hw₁ hl₁ hopen₁ with ⟨hw₁', k₁, hk₁, hk₁open⟩ | ⟨hn₁, hfree₁⟩
    · rcases h.window_cases hone hw₂ hl₂ hopen₂ with ⟨hw₂', k₂, hk₂, hk₂open⟩ | ⟨hn₂, hfree₂⟩
      · exact hone.one id₁ id₂ w₁ w₂ k₁ k₂ hw₁' hw₂' hk₁ hk₂ hk₁open hk₂open hpool hkey hkind
      · have hcommitted := groupCommitted_of_open hw₁' hk₁ hk₁open
        rw [hpool, hkey, hkind, hfree₂] at hcommitted
        cases hcommitted
    · rcases h.window_cases hone hw₂ hl₂ hopen₂ with ⟨hw₂', k₂, hk₂, hk₂open⟩ | ⟨hn₂, -⟩
      · have hcommitted := groupCommitted_of_open hw₂' hk₂ hk₂open
        rw [← hpool, ← hkey, ← hkind, hfree₁] at hcommitted
        cases hcommitted
      · exact h.new_window hw₁ hn₁ hw₂ hn₂

/-- In every reachable database, open windows of one group and kind of a pool are the same. -/
theorem reachable_oneWindow (h : Machine.Reachable (controlSystem env) db) : OneWindow db := by
  refine reachable_of_changes (P := OneWindow) (fun admin => ⟨?_, ?_⟩)
    (fun _ _ _ _ hone hc => hc.oneWindow hone) h
  · intro id w hw
    cases hw
  · intro id₁ id₂ w₁ w₂ l₁ l₂ hw₁
    cases hw₁

/-- **Sponsor and window caps.** In every reachable database a sponsor has four open contracts at
most, and a group of a pool has one open window at most of each kind of coverage.

**Proof sketch.** The first part holds at the start and by `Change.openContracts_le` after every
change. The open windows of a group and a kind are the same window (`reachable_oneWindow`), and no
window is listed twice. -/
theorem sponsor_and_window_caps (h : Machine.Reachable (controlSystem env) db) :
    (∀ sponsor, openContracts db sponsor ≤ 4) ∧
      ∀ pool groupKey kind, (openWindows db pool groupKey kind).length ≤ 1 := by
  constructor
  · refine reachable_of_changes (P := fun db => ∀ sponsor, openContracts db sponsor ≤ 4) ?_ ?_ h
    · intro admin sponsor
      exact Nat.zero_le 4
    · intro req tx db db' ih hc sponsor
      have hle := hc.openContracts_le sponsor
      have hfour := ih sponsor
      omega
  · intro pool groupKey kind
    have hone := reachable_oneWindow h
    have hsame : ∀ x ∈ openWindows db pool groupKey kind, ∀ y ∈ openWindows db pool groupKey kind,
        x.1 = y.1 := by
      rintro ⟨id₁, w₁, l₁⟩ hx ⟨id₂, w₂, l₂⟩ hy
      simp only [openWindows, List.mem_filter, decide_eq_true_eq] at hx hy
      obtain ⟨hx, hkey₁, hkind₁, hopen₁⟩ := hx
      obtain ⟨hy, hkey₂, hkind₂, hopen₂⟩ := hy
      obtain ⟨hw₁, hpool₁, hl₁⟩ := mem_poolWindows.1 hx
      obtain ⟨hw₂, hpool₂, hl₂⟩ := mem_poolWindows.1 hy
      exact hone.one id₁ id₂ w₁ w₂ l₁ l₂ hw₁ hw₂ hl₁ hl₂ hopen₁ hopen₂ (hpool₁.trans hpool₂.symm)
        (hkey₁.trans hkey₂.symm) (hkind₁.trans hkind₂.symm)
    have hnodup : ((openWindows db pool groupKey kind).map Prod.fst).Nodup :=
      (List.filter_sublist.map Prod.fst).nodup (nodup_poolWindows db pool)
    match hlist : openWindows db pool groupKey kind with
    | [] => exact Nat.zero_le 1
    | [x] => exact le_rfl
    | x :: y :: rest =>
      rw [hlist] at hsame hnodup
      have hxy := hsame x (by simp) y (by simp)
      simp [hxy] at hnodup

/-- The administrator of the laboratory has one contract, the window of its group. -/
theorem sponsor_and_window_caps_lab :
    openContracts (labDb (labSetup ++ labPlan)) 0 = 1 ∧
      (openWindows (labDb (labSetup ++ labPlan)) 29000 "g" .essential).length = 1 ∧
      (∀ sponsor, openContracts (labDb (labSetup ++ labPlan)) sponsor ≤ 4) ∧
      ∀ pool groupKey kind,
        (openWindows (labDb (labSetup ++ labPlan)) pool groupKey kind).length ≤ 1 := by
  refine ⟨by decide +kernel, by decide +kernel, ?_⟩
  exact sponsor_and_window_caps (reachable_lab (labSetup ++ labPlan))

end NetworkAi
