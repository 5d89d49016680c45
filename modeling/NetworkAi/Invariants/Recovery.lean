import NetworkAi.Control.Clocks
import NetworkAi.Control.Presence
import NetworkAi.Control.RenewalMoves
import NetworkAi.Invariants.Books
import NetworkAi.Lib.Streak

set_option relaxedAutoImplicit false
set_option autoImplicit false

/-!
# The meaning of `NORMAL`

A pool stores since when it has been healthy and when it was last sampled. Its state is computed
from these two instants by every reader. It is `NORMAL` only at the end of a chain of samples that
spans a day, with no gap above six seconds, at each of which the pool had support, ready routes and
its funds; whatever breaks the chain lies a day back.

## Main definitions

* `NetworkAi.Continuous` — what a sample of a pool demands.
* `NetworkAi.Db.monitor` — what is stored of a pool's samples.
* `NetworkAi.poolEvent`, `NetworkAi.poolHistory` — the samples and changes of a pool in a run.
* `NetworkAi.Provided`, `NetworkAi.Steady` — a pool that has what it needs, and stays so.

## Main results

* `NetworkAi.run_monitored` — what a pool stores is what a monitor of its history keeps.
* `NetworkAi.steady_normal` — a day of reports and samples makes a provided pool `NORMAL`.
* `NetworkAi.normal_meaning` — the chain behind a computed `NORMAL`.
-/

namespace NetworkAi

open Relational

variable {env : Env} {req : Request} {tx : Tx} {db db' : Db} {id : PoolId} {p : Pool}

/-! ### Samples of a pool -/

/-- **What a sample of a pool demands**: it is not paused and has support, every group has a ready
route, and working capital and reserve reach their floor and target. -/
def Continuous (tx : Tx) (db : Db) (id : PoolId) (p : Pool) : Prop :=
  p.paused = false ∧ tx.date 0 < toMs p.supportUntil ∧
    (∀ g ∈ p.groups, groupReady tx db g = true) ∧
    (cooperativeSnapshot tx db id p).floor ≤ (cooperativeSnapshot tx db id p).working ∧
    (cooperativeSnapshot tx db id p).reserveTarget ≤ (cooperativeSnapshot tx db id p).reserve

instance decidableContinuous (tx : Tx) (db : Db) (id : PoolId) (p : Pool) :
    Decidable (Continuous tx db id p) := inferInstanceAs (Decidable (_ ∧ _))

/-- The readings of a sample: the age of the last sample, the start of a streak, and the time that
`reconcile` records. -/
def poolSample (tx : Tx) : Streak.Sample := ⟨tx.date 1, tx.date 2, toMs (tx.wall 0)⟩

/-- What a pool stores of its samples. -/
def poolMonitor (p : Pool) : Streak.Monitor :=
  ⟨p.healthySince.map toMs, p.sampleAt.map toMs⟩

/-- What a step does to a pool: a sample by `reconcile`, or a change by `manage`. -/
def poolEvent (env : Env) (id : PoolId) (db : Db) (i : Tx × Request) : Option Streak.Event :=
  match i.2, transaction env i.1 db i.2, db.pools.find? id with
  | .background (.reconcilePool id'), .ok _, some p =>
    if id' = id then some (.sample (poolSample i.1) (decide (Continuous i.1 db id p))) else none
  | .user _ (.manage id' _), .ok _, some _ =>
    if id' = id then some (.change (toMs i.1.now)) else none
  | _, _, _ => none

/-- The samples and changes of a pool in a run. -/
def poolHistory (env : Env) (id : PoolId) : Db → List (Tx × Request) → List Streak.Event
  | _, [] => []
  | db, i :: is =>
    (poolEvent env id db i).toList ++ poolHistory env id ((controlSystem env).step i db) is

/-- The start of the health that a snapshot computes. -/
theorem snapshot_continuous (tx : Tx) (db : Db) (id : PoolId) (p : Pool) :
    (cooperativeSnapshot tx db id p).healthySince =
      if Continuous tx db id p then
        if p.healthySince.isSome ∧ tx.date 1 - (p.sampleAt.map toMs).getD 0 ≤ 6000 then
          p.healthySince
        else some (ofMs (tx.date 2))
      else none := by
  have hiff : Continuous tx db id p ↔
      (decide (p.paused = false ∧ tx.date 0 < toMs p.supportUntil) = true ∧
        decide (∀ g ∈ p.groups.insertionSort (fun a b : CoopGroup => keyLe a.key b.key),
          groupReady tx db g = true) = true ∧
        (cooperativeSnapshot tx db id p).floor ≤ (cooperativeSnapshot tx db id p).working ∧
        (cooperativeSnapshot tx db id p).reserveTarget ≤
          (cooperativeSnapshot tx db id p).reserve) := by
    simp only [Continuous, decide_eq_true_iff, List.mem_insertionSort, and_assoc]
  by_cases hc : Continuous tx db id p
  · rw [if_pos hc]
    exact if_pos (decide_eq_true (hiff.1 hc))
  · rw [if_neg hc]
    exact if_neg (fun h => hc (hiff.2 (of_decide_eq_true h)))
/-- It is the start of the streak of a monitor at its sample. -/
theorem snapshot_healthySince (tx : Tx) (db : Db) (id : PoolId) (p : Pool) :
    (cooperativeSnapshot tx db id p).healthySince.map toMs =
      (poolMonitor p).resume 6000 (poolSample tx) (decide (Continuous tx db id p)) := by
  rw [snapshot_continuous]
  simp only [Streak.Monitor.resume, poolMonitor, poolSample, Option.isSome_map, decide_eq_true_eq]
  by_cases hc : Continuous tx db id p
  · rw [if_pos hc, if_pos hc]
    split
    · rfl
    · simp [toMs_ofMs]
  · rw [if_neg hc, if_neg hc]
    rfl

/-- A snapshot is `NORMAL` only after a day of health. -/
theorem snapshot_normal (h : (cooperativeSnapshot tx db id p).state = .normal) :
    ∃ since, (cooperativeSnapshot tx db id p).healthySince = some since ∧
      86400000 ≤ tx.date 3 - toMs since := by
  have hstate : poolState _ _ _ _ _ (cooperativeSnapshot tx db id p).healthySince (tx.date 3) =
      .normal := h
  unfold poolState at hstate
  split at hstate
  · split at hstate
    · cases hstate
    · split at hstate
      · rename_i hday
        exact hday
      · cases hstate
  · cases hstate

/-- It is `NORMAL` after a day of health, if the pool can pay a window of some group and the first
window of every group that has none. -/
theorem snapshot_normal_of {since : Micros} (hc : Continuous tx db id p)
    (hminimum : (cooperativeSnapshot tx db id p).minimum ≤ (cooperativeSnapshot tx db id p).working)
    (hafford : ∃ g ∈ p.groups, g.cost ≤ (cooperativeSnapshot tx db id p).working)
    (hsince : (cooperativeSnapshot tx db id p).healthySince = some since)
    (hday : 86400000 ≤ tx.date 3 - toMs since) :
    (cooperativeSnapshot tx db id p).state = .normal := by
  obtain ⟨hopen, hsupport, hready, -, -⟩ := hc
  obtain ⟨g, hg, hcost⟩ := hafford
  have hmem : ∀ g, g ∈ p.groups.insertionSort (fun a b : CoopGroup => keyLe a.key b.key) ↔
      g ∈ p.groups := fun _ => List.mem_insertionSort _
  have hall : ∀ g ∈ p.groups.insertionSort (fun a b : CoopGroup => keyLe a.key b.key),
      groupReady tx db g = true := fun g hg => hready g ((hmem g).1 hg)
  show poolState (decide (p.paused = false ∧ tx.date 0 < toMs p.supportUntil)) (decide _)
    (decide _) _ _ (cooperativeSnapshot tx db id p).healthySince (tx.date 3) = .normal
  rw [hsince, poolState, if_pos ⟨decide_eq_true ⟨hopen, hsupport⟩,
    decide_eq_true ⟨g, (hmem g).2 hg, hready g hg, .inr (.inl hcost)⟩⟩, if_neg, if_pos]
  · exact ⟨since, rfl, hday⟩
  · rw [not_or]
    exact ⟨not_not.2 (decide_eq_true hall), not_lt.2 hminimum⟩

/-! ### What a pool stores -/

/-- What the database stores of the samples of a pool; nothing before the pool is there. -/
def Db.monitor (db : Db) (id : PoolId) : Streak.Monitor :=
  ((db.pools.find? id).map poolMonitor).getD ⟨none, none⟩

/-- The monitor of a pool is the one of its row. -/
theorem Db.monitor_of_pool (hp : db.pools.find? id = some p) : db.monitor id = poolMonitor p := by
  simp [Db.monitor, hp]

/-- A pool that does not exist has no monitor to speak of. -/
theorem Db.monitor_of_none (hp : db.pools.find? id = none) : db.monitor id = ⟨none, none⟩ := by
  simp [Db.monitor, hp]

/-- Only samples and changes by the management touch what a pool stores. -/
theorem Change.monitor (h : Change env req tx db db') (hreq : req.samples = false) :
    db'.monitor id = db.monitor id := by
  rcases h with h | h
  · cases h with
    | @poolCreated id' p hid _ _ _ hhealth =>
      show (((db.pools.insert id' p hid).find? id).map poolMonitor).getD ⟨none, none⟩ = _
      rw [Table.find?_insert]
      by_cases hk : id' = id
      · -- a new pool has no sample
        subst hk
        rw [if_pos rfl, Db.monitor_of_none hid]
        show poolMonitor p = ⟨none, none⟩
        rw [poolMonitor, hhealth.1, hhealth.2]
        rfl
      · rw [if_neg hk]
        rfl
    | poolsUpdated _ hsamples =>
      rw [hreq] at hsamples
      cases hsamples
    | _ => rfl
  · cases h <;> rfl

/-- A write to the row of a pool changes what that pool stores, and no other. -/
theorem monitor_set {id' : PoolId} {p' : Pool} (hp : db.pools.find? id' = some p)
    (hpools : db'.pools = db.pools.set id' p') :
    db'.monitor id = if id' = id then poolMonitor p' else db.monitor id := by
  unfold Db.monitor
  rw [hpools]
  by_cases hk : id' = id
  · subst hk
    rw [if_pos rfl, Table.find?_set_self hp]
    rfl
  · rw [if_neg hk, Table.find?_set_ne (Ne.symm hk)]

/-! ### Steps and runs -/

/-- A reconciliation is a sample of its pool. -/
theorem poolEvent_sample {tx : Tx}
    (h : transaction env tx db (.background (.reconcilePool id)) = .ok db')
    (hp : db.pools.find? id = some p) :
    poolEvent env id db (tx, .background (.reconcilePool id)) =
      some (.sample (poolSample tx) (decide (Continuous tx db id p))) := by
  simp [poolEvent, h, hp]

/-- A managed pool is a change of its policy. -/
theorem poolEvent_change {user : Actor} {d : ManageRequest} {tx : Tx}
    (h : transaction env tx db (.user user (.manage id d)) = .ok db')
    (hp : db.pools.find? id = some p) :
    poolEvent env id db (tx, .user user (.manage id d)) = some (.change (toMs tx.now)) := by
  simp [poolEvent, h, hp]

/-- A transaction that fails is no event. -/
theorem poolEvent_error {i : Tx × Request} {e : Failure}
    (h : transaction env i.1 db i.2 = .error e) : poolEvent env id db i = none := by
  unfold poolEvent
  split <;> simp_all

/-- A reconciliation is no event of another pool. -/
theorem poolEvent_sample_ne {id' : PoolId} {tx : Tx} (hk : id' ≠ id) :
    poolEvent env id db (tx, .background (.reconcilePool id')) = none := by
  unfold poolEvent
  split <;> simp_all

/-- A managed pool is no event of another pool. -/
theorem poolEvent_change_ne {id' : PoolId} {user : Actor} {d : ManageRequest} {tx : Tx}
    (hk : id' ≠ id) : poolEvent env id db (tx, .user user (.manage id' d)) = none := by
  unfold poolEvent
  split <;> simp_all

/-- Another request is no event of a pool. -/
theorem poolEvent_other {i : Tx × Request} (h : i.2.samples = false) :
    poolEvent env id db i = none := by
  unfold poolEvent
  split
  · simp_all [Request.samples]
  · simp_all [Request.samples]
  · rfl

/-- A transaction that manages a pool. -/
theorem transaction_manage {id' : PoolId} {user : Actor} {d : ManageRequest} {tx : Tx}
    (h : transaction env tx db (.user user (.manage id' d)) = .ok db') :
    ∃ p p', db.pools.find? id' = some p ∧ db'.pools = db.pools.set id' p' ∧
      poolMonitor p' = (poolMonitor p).step 6000 (.change (toMs tx.now)) := by
  simp only [transaction, perform, performUser, Checked.bind_ok, need_ok, Checked.pure_ok,
    exists_const] at h
  obtain ⟨db₁, ⟨-, hmanage⟩, -, -, rfl⟩ := h
  unfold managePool at hmanage
  simp only [Checked.bind_ok, needRow_ok, need_ok, Checked.pure_ok, exists_const] at hmanage
  obtain ⟨p, hp, -, -, rfl⟩ := hmanage
  exact ⟨p, _, hp, rfl, rfl⟩

/-- A transaction that samples a pool. -/
theorem transaction_reconcile {id' : PoolId} {tx : Tx}
    (h : transaction env tx db (.background (.reconcilePool id')) = .ok db') :
    ∃ p p', db.pools.find? id' = some p ∧ db'.pools = db.pools.set id' p' ∧
      poolMonitor p' =
        (poolMonitor p).step 6000 (.sample (poolSample tx) (decide (Continuous tx db id' p))) := by
  simp only [transaction, perform, performBackground, Checked.bind_ok, Checked.pure_ok] at h
  obtain ⟨db₁, hsample, -, -, rfl⟩ := h
  unfold reconcilePool at hsample
  simp only [Checked.bind_ok, needRow_ok, Checked.pure_ok] at hsample
  obtain ⟨p, hp, rfl⟩ := hsample
  refine ⟨p, _, hp, rfl, ?_⟩
  rw [Streak.Monitor.step, ← snapshot_healthySince]
  rfl

/-- A sample is a request of one of two kinds. -/
theorem Request.samples_cases (h : req.samples = true) :
    (∃ user id d, req = .user user (.manage id d)) ∨ ∃ id, req = .background (.reconcilePool id) := by
  unfold Request.samples at h
  split at h
  · exact .inl ⟨_, _, _, rfl⟩
  · exact .inr ⟨_, rfl⟩
  · cases h

/-- **A step of the coordinator is a step of the monitor** of every pool, if it samples or changes
that pool, and leaves it alone otherwise.

**Proof sketch.** A request that does not sample leaves the monitor, as all its changes do. The two
that do write one pool: its row is what the monitor makes of the event, and other pools have no
event. -/
theorem step_monitor (i : Tx × Request) (db : Db) (id : PoolId) :
    ((controlSystem env).step i db).monitor id =
      (poolEvent env id db i).toList.foldl (Streak.Monitor.step 6000) (db.monitor id) := by
  cases hreq : i.2.samples with
  | false =>
    rw [poolEvent_other hreq]
    exact Machine.Star.preserves (P := fun db' => db'.monitor id = db.monitor id)
      (fun _ _ hc h => (hc.monitor hreq).trans h) (step_changes i db) rfl
  | true =>
    have hstep : (controlSystem env).step i db =
      { Checked.settle (transaction env i.1 db i.2) db with xid := db.xid + 1 } := rfl
    obtain ⟨tx, req⟩ := i
    cases htx : transaction env tx db req with
    | error e =>
      rw [poolEvent_error htx, hstep, htx]
      rfl
    | ok db' =>
      have hmonitor : ((controlSystem env).step (tx, req) db).monitor id = db'.monitor id := by
        rw [hstep, htx]
        rfl
      rw [hmonitor]
      rcases Request.samples_cases hreq with ⟨user, id', d, rfl⟩ | ⟨id', rfl⟩
      · obtain ⟨p, p', hp, hpools, hp'⟩ := transaction_manage htx
        rw [monitor_set hp hpools]
        by_cases hk : id' = id
        · subst hk
          rw [if_pos rfl, poolEvent_change htx hp, hp', Db.monitor_of_pool hp]
          rfl
        · rw [if_neg hk, poolEvent_change_ne hk]
          rfl
      · obtain ⟨p, p', hp, hpools, hp'⟩ := transaction_reconcile htx
        rw [monitor_set hp hpools]
        by_cases hk : id' = id
        · subst hk
          rw [if_pos rfl, poolEvent_sample htx hp, hp', Db.monitor_of_pool hp]
          rfl
        · rw [if_neg hk, poolEvent_sample_ne hk]
          rfl

/-- **What a pool stores is what a monitor of its history keeps.** -/
theorem run_monitor (is : List (Tx × Request)) (db : Db) (id : PoolId) :
    ((controlSystem env).run db is).monitor id =
      (poolHistory env id db is).foldl (Streak.Monitor.step 6000) (db.monitor id) := by
  induction is generalizing db with
  | nil => rfl
  | cons i is ih =>
    rw [Machine.System.run_cons, ih, poolHistory, List.foldl_append, step_monitor]

/-- A run from the start: what a pool stores is what a monitor of its whole history keeps. -/
theorem initial_monitor (admin : UserId) (is : List (Tx × Request)) (id : PoolId) :
    ((controlSystem env).run (Db.initial admin) is).monitor id =
      Streak.observe 6000 (poolHistory env id (Db.initial admin) is) :=
  run_monitor is (Db.initial admin) id

/-- An event of a step takes place within the step. -/
theorem poolEvent_time {i : Tx × Request} {lo hi : Micros} {e : Streak.Event}
    (hnow : i.1.Within lo hi) (he : poolEvent env id db i = some e) :
    toMs lo ≤ e.time ∧ e.time ≤ toMs hi := by
  have hstart : toMs lo ≤ toMs i.1.now := toMs_mono hnow.now
  unfold poolEvent at he
  split at he
  · split at he
    · cases he
      have hdate := hnow.date 2
      exact ⟨hstart.trans hdate.1, hdate.2⟩
    · cases he
  · split at he
    · cases he
      exact ⟨hstart, (hnow.date 0).1.trans (hnow.date 0).2⟩
    · cases he
  · cases he

/-- The history of a pool in a run under one clock goes forward. -/
theorem poolHistory_clocked {lo hi : Micros} {is : List (Tx × Request)} (h : Clocked lo is hi) :
    (∀ e ∈ poolHistory env id db is, toMs lo ≤ e.time ∧ e.time ≤ toMs hi) ∧
      (poolHistory env id db is).Pairwise fun a b => a.time ≤ b.time := by
  induction is generalizing lo db with
  | nil => exact ⟨fun _ he => absurd he List.not_mem_nil, List.Pairwise.nil⟩
  | cons i is ih =>
    obtain ⟨mid, hnow, hrest⟩ := h
    obtain ⟨hlater, hpairs⟩ := @ih ((controlSystem env).step i db) _ hrest
    have hfirst : ∀ e ∈ (poolEvent env id db i).toList, toMs lo ≤ e.time ∧ e.time ≤ toMs mid :=
      fun e he => poolEvent_time hnow (Option.mem_toList.1 he)
    have hbefore : toMs lo ≤ toMs mid := toMs_mono hnow.le
    have hafter : toMs mid ≤ toMs hi := toMs_mono hrest.le
    rw [poolHistory]
    constructor
    · intro e he
      rcases List.mem_append.1 he with he | he
      · exact ⟨(hfirst e he).1, (hfirst e he).2.trans hafter⟩
      · exact ⟨hbefore.trans (hlater e he).1, (hlater e he).2⟩
    · rw [List.pairwise_append]
      refine ⟨?_, hpairs, fun a ha b hb => (hfirst a ha).2.trans (hlater b hb).1⟩
      cases poolEvent env id db i with
      | none => exact List.Pairwise.nil
      | some e => exact List.pairwise_singleton _ e

/-- The history of a run in two parts. -/
theorem poolHistory_append (is js : List (Tx × Request)) (db : Db) :
    poolHistory env id db (is ++ js) =
      poolHistory env id db is ++ poolHistory env id ((controlSystem env).run db is) js := by
  induction is generalizing db with
  | nil => rfl
  | cons i is ih => rw [List.cons_append, poolHistory, poolHistory, ih, List.append_assoc]; rfl

/-- Reports of nodes neither sample nor change a pool. -/
theorem poolHistory_reports (d : Report) (tx : Tx) (ids : List NodeId) (db : Db) :
    poolHistory env id db (reports d tx ids) = [] := by
  induction ids generalizing db with
  | nil => rfl
  | cons n ids ih =>
    rw [reports, List.map_cons, poolHistory, poolEvent_other rfl]
    exact ih _

/-- A pool is sampled, whatever the sample finds. -/
theorem transaction_reconcilePool (env : Env) (hsound : db.books.Sound)
    (hp : db.pools.find? id = some p) (tx : Tx) :
    transaction env tx db (.background (.reconcilePool id)) =
      .ok { db with pools := db.pools.set id { p with
        state := (cooperativeSnapshot tx db id p).state
        healthySince := (cooperativeSnapshot tx db id p).healthySince
        sampleAt := some (tx.wall 0) } } := by
  refine Checked.bind_ok.2 ⟨_, Checked.bind_ok.2 ⟨p, needRow_ok.2 hp, rfl⟩, ?_⟩
  exact Checked.bind_ok.2 ⟨(), hsound.commit _, rfl⟩

/-! ### The chain behind `NORMAL` -/

/-- A sample of a pool in a run that found all that a sample demands. -/
def SampledWell (env : Env) (id : PoolId) (db : Db) (is : List (Tx × Request))
    (s : Streak.Sample) : Prop :=
  ∃ before tx after p, is = before ++ (tx, .background (.reconcilePool id)) :: after ∧
    s = poolSample tx ∧ ((controlSystem env).run db before).pools.find? id = some p ∧
    Continuous tx ((controlSystem env).run db before) id p

/-- The event of a good sample comes from a transaction that found all that a sample demands. -/
theorem poolEvent_good {i : Tx × Request} {s : Streak.Sample}
    (h : poolEvent env id db i = some (.sample s true)) :
    ∃ tx p, i = (tx, .background (.reconcilePool id)) ∧ s = poolSample tx ∧
      db.pools.find? id = some p ∧ Continuous tx db id p := by
  obtain ⟨tx, req⟩ := i
  unfold poolEvent at h
  split at h
  · rename_i id' _ p hreq _ hp
    split at h
    · rename_i hid
      simp only [Option.some.injEq, Streak.Event.sample.injEq, decide_eq_true_eq] at h
      simp only at hreq
      rw [hid] at hreq
      exact ⟨tx, p, by rw [hreq], h.1.symm, hp, h.2⟩
    · cases h
  · split at h <;> cases h
  · cases h

/-- A good sample of the history comes from such a transaction of the run. -/
theorem poolHistory_good {is : List (Tx × Request)} {s : Streak.Sample}
    (h : .sample s true ∈ poolHistory env id db is) : SampledWell env id db is s := by
  induction is generalizing db with
  | nil => cases h
  | cons i is ih =>
    rw [poolHistory, List.mem_append, Option.mem_toList] at h
    rcases h with h | h
    · obtain ⟨tx, p, rfl, hs, hp, hcont⟩ := poolEvent_good h
      exact ⟨[], tx, is, p, rfl, hs, hp, hcont⟩
    · obtain ⟨before, tx, after, p, his, hs, hp, hcont⟩ := ih h
      exact ⟨i :: before, tx, after, p, by rw [his]; rfl, hs, hp, hcont⟩

/-! ### A pool that stays well -/

/-- A round: every node reports, and then the pool is sampled. -/
def wellRound (d : Report) (ids : List NodeId) (id : PoolId) (tx : Tx) : List (Tx × Request) :=
  reports d tx ids ++ [(tx, .background (.reconcilePool id))]

/-- **A pool that has what it needs** in a database: all nodes are ready and report so, every group
has a route that is ready while its nodes report, and the balances cover the horizons of a pool
without windows. -/
structure Provided (base : Db) (id : PoolId) (p : Pool) (d : Report) (ids : List NodeId) :
    Prop where
  sound : base.books.Sound
  confirms : ∀ id ∈ ids, base.registry.Confirms d id
  all : ∀ id, (base.registry.nodes.find? id).isSome → id ∈ ids
  windows : poolWindows base id = []
  unpaused : p.paused = false
  ready : ∀ g ∈ p.groups, ∃ route ∈ g.routes, ∃ now,
    (base.registry.seenAt fun _ => now).routeReady now route.routeId = true
  floor : gap ((p.groups.map (·.rate)).sum * 21600) 0 ≤ base.books.balance (.coopWorking id)
  reserve : (p.groups.map (·.rate)).sum * 259200 ≤ base.books.balance (.coopReserve id)
  minimum : (p.groups.map (·.cost)).sum ≤ base.books.balance (.coopWorking id)
  affordable : ∃ g ∈ p.groups, g.cost ≤ base.books.balance (.coopWorking id)

/-- Since the base nothing has happened but reports, up to an instant, and samples of the pool. -/
structure Steady (base : Db) (id : PoolId) (p : Pool) (now : Micros) (db : Db) : Prop where
  registry : db.registry = base.registry.seenAt fun _ => now
  books : db.books = base.books
  windows : db.windows = base.windows
  leases : db.routeLeases = base.routeLeases
  pool : ∃ state healthySince sampleAt,
    db.pools.find? id = some { p with state, healthySince, sampleAt }

section Steady

variable {base : Db} {d : Report} {ids : List NodeId} {now : Micros}

/-- A pool without windows holds nothing for its groups. -/
theorem essentialHeld_eq_zero (h : poolWindows db id = []) (tx : Tx) (g : CoopGroup) :
    essentialHeld tx db id g = 0 := by
  rw [essentialHeld, h]
  rfl

/-- The groups of a pool are ready while its nodes report. -/
theorem Steady.ready (h : Steady base id p now db) (hp : Provided base id p d ids)
    (hnow : tx.now = now) : ∀ g ∈ p.groups, groupReady tx db g = true := by
  intro g hg
  obtain ⟨route, hroute, now', hready⟩ := hp.ready g hg
  refine List.any_eq_true.2 ⟨route, hroute, ?_⟩
  rw [h.registry, hnow]
  exact Registry.routeReady_seenAt now' now hready

/-- The pool has no windows. -/
theorem Steady.noWindows (h : Steady base id p now db) (hp : Provided base id p d ids) :
    poolWindows db id = [] := by
  have hbase := hp.windows
  unfold poolWindows at hbase ⊢
  rw [h.windows, h.leases]
  exact hbase

/-- The floor of a pool without windows is that of its rates. -/
theorem snapshot_floor (h : poolWindows db id = []) (tx : Tx) (p : Pool) :
    (cooperativeSnapshot tx db id p).floor = gap ((p.groups.map (·.rate)).sum * 21600) 0 := by
  have hperm := (List.perm_insertionSort (fun a b : CoopGroup => keyLe a.key b.key) p.groups)
  have hheld : ((p.groups.insertionSort fun a b : CoopGroup => keyLe a.key b.key).map
      (essentialHeld tx db id)).sum = 0 := by
    refine List.sum_eq_zero fun x hx => ?_
    obtain ⟨g, -, rfl⟩ := List.mem_map.1 hx
    exact essentialHeld_eq_zero h tx g
  show gap (((p.groups.insertionSort _).map (·.rate)).sum * 21600) _ = _
  rw [hheld, (hperm.map _).sum_eq]

/-- Its first windows cost what its groups cost. -/
theorem snapshot_minimum (h : poolWindows db id = []) (tx : Tx) (p : Pool) :
    (cooperativeSnapshot tx db id p).minimum = (p.groups.map (·.cost)).sum := by
  have hperm := (List.perm_insertionSort (fun a b : CoopGroup => keyLe a.key b.key) p.groups)
  have hcost : (fun g : CoopGroup => if 0 < essentialHeld tx db id g then 0 else g.cost) =
      (·.cost) := by
    funext g
    rw [essentialHeld_eq_zero h, if_neg (lt_irrefl 0)]
  show ((p.groups.insertionSort _).map fun g =>
    if 0 < essentialHeld tx db id g then 0 else g.cost).sum = _
  rw [hcost, (hperm.map _).sum_eq]

/-- **A steady pool meets what a sample demands**, while it has support. -/
theorem Steady.continuous (h : Steady base id p now db) (hp : Provided base id p d ids)
    (hnow : tx.now = now) (hsupport : tx.date 0 < toMs p.supportUntil) {p' : Pool}
    (hp' : db.pools.find? id = some p') : Continuous tx db id p' := by
  obtain ⟨state, healthySince, sampleAt, hpool⟩ := h.pool
  obtain rfl : _ = p' := Option.some.inj (hpool.symm.trans hp')
  have hperm := (List.perm_insertionSort (fun a b : CoopGroup => keyLe a.key b.key) p.groups)
  refine ⟨hp.unpaused, hsupport, h.ready hp hnow, ?_, ?_⟩
  · rw [snapshot_floor (h.noWindows hp)]
    show _ ≤ db.books.balance (.coopWorking id)
    rw [h.books]
    exact hp.floor
  · show ((p.groups.insertionSort _).map (·.rate)).sum * 259200 ≤ db.books.balance (.coopReserve id)
    rw [h.books, (hperm.map _).sum_eq]
    exact hp.reserve

/-- **One round** keeps a pool steady, and is one good sample of it. -/
theorem Steady.round (h : Steady base id p now db) (hp : Provided base id p d ids)
    (hsupport : tx.date 0 < toMs p.supportUntil) :
    Steady base id p tx.now ((controlSystem env).run db (wellRound d ids id tx)) ∧
      poolHistory env id db (wellRound d ids id tx) = Streak.goods [poolSample tx] := by
  have hsound : db.books.Sound := by
    rw [h.books]
    exact hp.sound
  -- the reports move the instant at which the nodes were seen
  have hreports := @run_reports_all env db base.registry d tx ids _ hp.confirms hp.all h.registry
    hsound
  generalize hseen : (controlSystem env).run db (reports d tx ids) = db₁ at hreports
  have hsteady : Steady base id p tx.now db₁ := by
    subst hreports
    exact ⟨rfl, h.books, h.windows, h.leases, h.pool⟩
  have hsound₁ : db₁.books.Sound := by
    rw [hsteady.books]
    exact hp.sound
  -- the sample finds what it demands
  obtain ⟨state, healthySince, sampleAt, hpool⟩ := hsteady.pool
  have hcontinuous := hsteady.continuous hp rfl hsupport hpool
  have hsample := transaction_reconcilePool env hsound₁ hpool tx
  constructor
  · rw [wellRound, Machine.System.run_append, hseen]
    show Steady base id p tx.now { Checked.settle (transaction env tx db₁ _) db₁ with
      xid := db₁.xid + 1 }
    rw [hsample]
    exact ⟨hsteady.registry, hsteady.books, hsteady.windows, hsteady.leases, _, _, _,
      Table.find?_set_self hpool⟩
  · rw [wellRound, poolHistory_append, poolHistory_reports, hseen, poolHistory,
      poolEvent_sample hsample hpool, decide_eq_true hcontinuous]
    rfl

/-- The rounds of some readings, one after the other. -/
def wellRounds (d : Report) (ids : List NodeId) (id : PoolId) (txs : List Tx) :
    List (Tx × Request) :=
  txs.flatMap (wellRound d ids id)

/-- **A run of rounds** keeps a pool steady, and its history is a chain of good samples. -/
theorem Steady.rounds {txs : List Tx} (h : Steady base id p now db) (hp : Provided base id p d ids)
    (hsupport : ∀ tx ∈ txs, tx.date 0 < toMs p.supportUntil) :
    Steady base id p ((txs.map Tx.now).getLastD now)
        ((controlSystem env).run db (wellRounds d ids id txs)) ∧
      poolHistory env id db (wellRounds d ids id txs) = Streak.goods (txs.map poolSample) := by
  induction txs generalizing db now with
  | nil => exact ⟨h, rfl⟩
  | cons tx txs ih =>
    obtain ⟨hround, hsample⟩ := @Steady.round env tx db id p base d ids now h hp
      (hsupport tx List.mem_cons_self)
    obtain ⟨hrest, hhistory⟩ := ih hround fun tx' htx => hsupport tx' (List.mem_cons_of_mem _ htx)
    rw [wellRounds, List.flatMap_cons, Machine.System.run_append, poolHistory_append, hsample]
    refine ⟨?_, ?_⟩
    · rw [List.map_cons, List.getLastD_cons]
      exact hrest
    · exact congrArg (Streak.goods [poolSample tx] ++ ·) hhistory

/-- **A day of good samples**: a pool that has what it needs, whose nodes report and that is sampled
at least every six seconds, is `NORMAL` for a reader a day after the first of these samples.

**Proof sketch.** Every round leaves the pool as it was, but for when its nodes were seen and for
what it stores of its samples. The history of the rounds is therefore an unbroken chain of good
samples, and the monitor keeps the start of the first one. At the reader the balances still cover
the floor and the first windows, and a day has passed. -/
theorem steady_normal {admin : UserId} {is : List (Tx × Request)} {first last : Tx}
    {txs : List Tx} (hp : Provided base id p d ids)
    (h : Steady base id p now ((controlSystem env).run (Db.initial admin) is))
    (hnone : (((controlSystem env).run (Db.initial admin) is).monitor id).since = none)
    (hsupport : ∀ tx' ∈ first :: txs ++ [tx], tx'.date 0 < toMs p.supportUntil)
    (hclose : Streak.Unbroken 6000 ((first :: txs).map poolSample ++ [poolSample tx]))
    (hlast : (first :: txs).getLast? = some last) (hnow : tx.now = last.now)
    (hday : 86400000 ≤ tx.date 3 - first.date 2) :
    ∃ p', ((controlSystem env).run (Db.initial admin)
        (is ++ wellRounds d ids id (first :: txs))).pools.find? id = some p' ∧
      (cooperativeSnapshot tx ((controlSystem env).run (Db.initial admin)
        (is ++ wellRounds d ids id (first :: txs))) id p').state = .normal := by
  obtain ⟨hsteady, hhistory⟩ := @Steady.rounds env _ id p base d ids now (first :: txs) h hp
    fun tx' htx => hsupport tx' (List.mem_append_left _ htx)
  rw [List.getLastD_eq_getLast?, List.getLast?_map, hlast, Option.map_some, Option.getD_some,
    ← hnow] at hsteady
  have hmonitor : ((controlSystem env).run ((controlSystem env).run (Db.initial admin) is)
      (wellRounds d ids id (first :: txs))).monitor id =
        Streak.observe 6000 (poolHistory env id (Db.initial admin) is ++
          Streak.goods (poolSample first :: txs.map poolSample)) := by
    rw [← Machine.System.run_append, initial_monitor, poolHistory_append, hhistory]
    rfl
  rw [initial_monitor] at hnone
  rw [Machine.System.run_append]
  generalize (controlSystem env).run ((controlSystem env).run (Db.initial admin) is)
    (wellRounds d ids id (first :: txs)) = db' at hsteady hmonitor ⊢
  obtain ⟨state, healthySince, sampleAt, hpool⟩ := hsteady.pool
  have hcontinuous := hsteady.continuous hp rfl
    (hsupport tx (List.mem_append_right _ (List.mem_singleton_self tx))) hpool
  -- the monitor keeps the start of the first sample
  have hresume := snapshot_healthySince tx db' id
    { p with state, healthySince, sampleAt }
  rw [← Db.monitor_of_pool hpool, hmonitor, decide_eq_true hcontinuous,
    Streak.resume_goods hnone hclose, Option.map_eq_some_iff] at hresume
  obtain ⟨since, hsince, hstart⟩ := hresume
  have hstart : toMs since = first.date 2 := hstart
  refine ⟨_, hpool, snapshot_normal_of hcontinuous ?_ ?_ hsince (by rw [hstart]; exact hday)⟩
  · rw [snapshot_minimum (hsteady.noWindows hp)]
    show _ ≤ db'.books.balance (.coopWorking id)
    rw [hsteady.books]
    exact hp.minimum
  · show ∃ g ∈ p.groups, g.cost ≤ db'.books.balance (.coopWorking id)
    rw [hsteady.books]
    exact hp.affordable

end Steady

/-- **The meaning of `NORMAL`**: in every run under one clock, whenever the computed state of a pool
is `NORMAL`, the samples of the pool end with an unbroken chain up to this instant that starts a day
ago or more, at each of which the pool met what a sample demands, as it does now; and whatever
breaks a streak (a failing sample, a gap above six seconds, a change by the management) lies a day
back.

**Proof sketch.** `NORMAL` asks for a streak that is a day old (`snapshot_normal`). The streak is
that of the monitor of the pool, which a run feeds with the samples and changes of the pool
(`run_monitor`), so that a sustained streak comes from an unbroken chain of good samples. An event
that breaks streaks after its start would have ended it, as the events of a clocked run are ordered.
-/
theorem normal_meaning {env : Env} {admin : UserId} {is : List (Tx × Request)} {lo mid hi : Micros}
    {tx : Tx} {id : PoolId} {p : Pool} (hclock : Clocked lo is mid) (hnow : tx.Within mid hi)
    (hp : ((controlSystem env).run (Db.initial admin) is).pools.find? id = some p)
    (hnormal : (cooperativeSnapshot tx ((controlSystem env).run (Db.initial admin) is) id p).state =
      .normal) :
    Continuous tx ((controlSystem env).run (Db.initial admin) is) id p ∧
    (∃ before chain first, poolHistory env id (Db.initial admin) is =
        before ++ Streak.goods chain ∧
      (∀ s ∈ chain, SampledWell env id (Db.initial admin) is s) ∧
      Streak.Unbroken 6000 (chain ++ [poolSample tx]) ∧
      (chain ++ [poolSample tx]).head? = some first ∧ 86400000 ≤ tx.date 3 - first.start) ∧
    ∀ pre e post, poolHistory env id (Db.initial admin) is = pre ++ e :: post →
      Streak.Breaks 6000 pre e → 86400000 ≤ tx.date 3 - e.time := by
  obtain ⟨since, hsince, hday⟩ := snapshot_normal hnormal
  have hresume := snapshot_healthySince tx ((controlSystem env).run (Db.initial admin) is) id p
  rw [hsince, ← Db.monitor_of_pool hp, initial_monitor] at hresume
  obtain ⟨hgood, before, chain, hhistory, hchain, hhead⟩ :=
    Streak.Monitor.resume_sustained hresume.symm
  refine ⟨of_decide_eq_true hgood, ?_, fun pre e post hpost he => ?_⟩
  · obtain ⟨first, hfirst, hstart⟩ := Option.map_eq_some_iff.1 hhead
    refine ⟨before, chain, first, hhistory, fun s hs => poolHistory_good ?_, hchain, hfirst,
      hstart ▸ hday⟩
    rw [hhistory]
    exact List.mem_append_right _ (List.mem_map_of_mem hs)
  · obtain ⟨hpast, hpairs⟩ := @poolHistory_clocked env (Db.initial admin) id _ _ _
      hclock
    have hfresh : e.time ≤ toMs since := by
      rw [hpost] at hresume
      refine Streak.Monitor.resume_fresh hresume.symm ?_ he
      rw [← hpost, List.pairwise_append]
      refine ⟨hpairs, List.pairwise_singleton _ _, fun a ha b hb => ?_⟩
      rw [List.mem_singleton.1 hb]
      exact (hpast a ha).2.trans ((toMs_mono hnow.now).trans (hnow.date 2).1)
    omega

/-! ### A day in the laboratory -/

/-- The platform of the laboratory, where a support lasts for twenty days. -/
def labMonth : Env := { labEnv with instant := fun _ => ofMs (20 * 86400000) }

/-- The pool `29000` is funded, and has no window. -/
def labFunded : List (Tx × Request) := labSetup ++ labPlan.take 5

/-- The database with the funded pool. -/
def labBase : Db := (controlSystem labMonth).run (Db.initial 0) labFunded

/-- The readings of a round, every five seconds. -/
def labTick (k : Nat) : Tx := labTx 32 (5000 * (k + 1))

/-- Some rounds of the four nodes and the pool. -/
def labRounds (n : Nat) : List (Tx × Request) :=
  wellRounds ⟨1, 1, ["b"], none⟩ [1, 2, 3, 4] 29000 ((List.range n).map labTick)

/-- A reader at the last of some rounds. -/
def labReader (n : Nat) : Tx := labTx 33 (5000 * n)

/-- **The funded pool has what it needs**, and is steady from the start. -/
theorem labBase_provided : ∃ p, labBase.pools.find? 29000 = some p ∧
    toMs p.supportUntil = 20 * 86400000 ∧ (labBase.monitor 29000).since = none ∧
    Provided labBase 29000 p ⟨1, 1, ["b"], none⟩ [1, 2, 3, 4] ∧
    Steady labBase 29000 p (ofMs 86400000) labBase := by
  have hlab : (labBase.pools.find? 29000).map
        (fun p => (toMs p.supportUntil, p.paused, p.healthySince, p.groups)) =
        some (20 * 86400000, false, none, [⟨"g", "m", 1, 60, [⟨19000, "1"⟩, ⟨20000, "3"⟩]⟩]) ∧
      labBase.registry.nodes.rows.map Prod.fst = [1, 2, 3, 4] ∧
      (∀ id ∈ [1, 2, 3, 4], labBase.registry.Confirms ⟨1, 1, ["b"], none⟩ id) ∧
      (∀ r ∈ labBase.registry.nodes.rows, r.2.lastSeen = some (ofMs 86400000)) ∧
      labBase.registry.routeReady (ofMs 86400000) 19000 = true ∧
      labBase.windows.rows = [] ∧ labBase.books.balance (.coopWorking 29000) = 50000 ∧
      labBase.books.balance (.coopReserve 29000) = 300000 := by
    decide +kernel
  obtain ⟨hpool, hnodes, hconfirms, hseen, hready, hwindows, hworking, hreserve⟩ := hlab
  obtain ⟨p, hp, hrow⟩ := Option.map_eq_some_iff.1 hpool
  simp only [Prod.mk.injEq] at hrow
  obtain ⟨hsupport, hopen, hsince, hgroups⟩ := hrow
  have hreach : Machine.Reachable (controlSystem labMonth) labBase :=
    Machine.reachable_run (M := controlSystem labMonth) (.init ⟨0, rfl⟩) labFunded
  -- all nodes were last seen when they were set up
  have hregistry : labBase.registry.seenAt (fun _ => ofMs 86400000) = labBase.registry :=
    Registry.seenAt_self fun id n hn => hseen (id, n) (Table.find?_eq_some.1 hn)
  refine ⟨p, hp, hsupport, ?_, ?_, hregistry.symm, rfl, rfl, rfl, _, _, _, hp⟩
  · rw [Db.monitor_of_pool hp, poolMonitor, hsince]
    rfl
  · refine ⟨(reachable_booking hreach).sound, hconfirms, fun id hid => ?_, ?_, hopen, ?_, ?_, ?_, ?_,
      ?_⟩
    · rw [← hnodes]
      by_contra hnot
      rw [Table.find?_eq_none.2 hnot] at hid
      cases hid
    · rw [poolWindows, hwindows]
      rfl
    · intro g hg
      rw [hgroups, List.mem_singleton] at hg
      subst hg
      exact ⟨⟨19000, "1"⟩, List.mem_cons_self, ofMs 86400000, by rw [hregistry]; exact hready⟩
    · rw [hgroups, hworking]
      decide
    · rw [hgroups, hreserve]
      decide
    · rw [hgroups, hworking]
      decide
    · rw [hgroups, hworking]
      decide

/-- The rounds end with the last one. -/
theorem labTicks_last (n : Nat) :
    ((List.range (n + 1)).map labTick).getLast? = some (labTick n) := by
  rw [List.range_succ, List.map_append, List.map_singleton, List.getLast?_concat]

/-- Samples every five seconds are an unbroken chain. -/
theorem labTicks_unbroken (n : Nat) :
    Streak.Unbroken 6000 (((List.range (n + 1)).map labTick).map poolSample) := by
  induction n with
  | zero => exact List.isChain_singleton _
  | succ n ih =>
    rw [List.range_succ, List.map_append, List.map_append]
    refine Streak.unbroken_concat.2 ⟨ih, fun a ha => ?_⟩
    rw [List.getLast?_map, labTicks_last, Option.map_some, Option.some.injEq] at ha
    subst ha
    show 86400000 + 5000 * ((n + 1 : Nat) + 1 : Int) - toMs (ofMs (86400000 + 5000 * (n + 1 : Int))) ≤
      6000
    rw [toMs_ofMs]
    omega

/-- One more round comes after the others. -/
theorem labRounds_succ (n : Nat) :
    labRounds (n + 1) =
      labRounds n ++ wellRound ⟨1, 1, ["b"], none⟩ [1, 2, 3, 4] 29000 (labTick n) := by
  rw [labRounds, List.range_succ, List.map_append, wellRounds, List.flatMap_append]
  rfl

/-- The rounds follow one another under one clock. -/
theorem labRounds_clocked (n : Nat) :
    Clocked (ofMs (86400000 + 0)) (labFunded ++ labRounds n) (ofMs (86400000 + 5000 * n)) := by
  induction n with
  | zero =>
    have hplan : labSetup ++ labPlan = labFunded ++ labPlan.drop 5 := by
      rw [labFunded, List.append_assoc, List.take_append_drop]
    have hclock := labPlan_clocked
    rw [hplan] at hclock
    obtain ⟨mid, hfunded, hrest⟩ := hclock.split
    exact (List.append_nil labFunded).symm ▸ hfunded.wait hrest.le
  | succ n ih =>
    have hround : Clocked (ofMs (86400000 + 5000 * (n + 1 : Int)))
        (wellRound ⟨1, 1, ["b"], none⟩ [1, 2, 3, 4] 29000 (labTick n))
        (ofMs (86400000 + 5000 * (n + 1 : Int))) := by
      refine clocked_labTx ?_
      unfold wellRound reports
      repeat' first | exact ⟨_, rfl⟩ | constructor
    have hnext : ofMs (86400000 + 5000 * (n : Int)) ≤ ofMs (86400000 + 5000 * (n + 1 : Int)) := by
      show (86400000 + 5000 * (n : Int)) * 1000 ≤ (86400000 + 5000 * (n + 1 : Int)) * 1000
      omega
    rw [labRounds_succ, ← List.append_assoc]
    exact (ih.wait hnext).append hround

/-- **After a day of rounds** the reader finds the pool `NORMAL`. -/
theorem labRounds_normal {n : Nat} (hday : 17280 ≤ n) (hsupport : n ≤ 300000) :
    ∃ p, ((controlSystem labMonth).run (Db.initial 0) (labFunded ++ labRounds (n + 1))).pools.find?
        29000 = some p ∧
      (cooperativeSnapshot (labReader (n + 1)) ((controlSystem labMonth).run (Db.initial 0)
        (labFunded ++ labRounds (n + 1))) 29000 p).state = .normal := by
  obtain ⟨p, -, hends, hnone, hprovided, hsteady⟩ := labBase_provided
  have hticks : labTick 0 :: (List.range n).map (fun k => labTick (k + 1)) =
      (List.range (n + 1)).map labTick := by
    rw [List.range_succ_eq_map, List.map_cons, List.map_map]
    rfl
  have hnormal := @steady_normal labMonth (labReader (n + 1)) 29000 p labBase ⟨1, 1, ["b"], none⟩
    [1, 2, 3, 4] (ofMs 86400000) 0 labFunded (labTick 0) (labTick n)
    ((List.range n).map fun k => labTick (k + 1)) hprovided hsteady hnone
  rw [hticks] at hnormal
  refine hnormal (fun tx htx => ?_) (Streak.unbroken_concat.2 ⟨labTicks_unbroken n, fun a ha => ?_⟩)
    (labTicks_last n) rfl ?_
  · -- twenty days of support cover the rounds and the reader
    rw [hends]
    rcases List.mem_append.1 htx with htx | htx
    · obtain ⟨k, hk, rfl⟩ := List.mem_map.1 htx
      have hlt := List.mem_range.1 hk
      show 86400000 + 5000 * ((k : Int) + 1) < 20 * 86400000
      omega
    · rw [List.mem_singleton.1 htx]
      show 86400000 + 5000 * ((n + 1 : Nat) : Int) < 20 * 86400000
      omega
  · -- the reader comes with the last sample
    rw [List.getLast?_map, labTicks_last, Option.map_some, Option.some.injEq] at ha
    subst ha
    show 86400000 + 5000 * ((n + 1 : Nat) : Int) - toMs (ofMs (86400000 + 5000 * (n + 1 : Int))) ≤
      6000
    rw [toMs_ofMs]
    omega
  · show (86400000 : Int) ≤ 86400000 + 5000 * ((n + 1 : Nat) : Int) -
      (86400000 + 5000 * ((0 : Nat) + 1 : Int))
    omega

/-- After 17281 rounds, which take a day, the reader finds the pool `NORMAL`, with an unbroken chain
of samples over the day behind it. -/
theorem normal_meaning_lab :
    ∃ p, ((controlSystem labMonth).run (Db.initial 0)
        (labFunded ++ labRounds (17280 + 1))).pools.find? 29000 = some p ∧
      (cooperativeSnapshot (labReader (17280 + 1)) ((controlSystem labMonth).run (Db.initial 0)
        (labFunded ++ labRounds (17280 + 1))) 29000 p).state = .normal ∧
      ∃ before chain first, poolHistory labMonth 29000 (Db.initial 0)
          (labFunded ++ labRounds (17280 + 1)) = before ++ Streak.goods chain ∧
        Streak.Unbroken 6000 (chain ++ [poolSample (labReader (17280 + 1))]) ∧
        (chain ++ [poolSample (labReader (17280 + 1))]).head? = some first ∧
        86400000 ≤ (labReader (17280 + 1)).date 3 - first.start := by
  obtain ⟨p, hp, hnormal⟩ := @labRounds_normal 17280 (by decide) (by decide)
  obtain ⟨-, ⟨before, chain, first, hhistory, -, hchain, hfirst, hday⟩, -⟩ :=
    normal_meaning (labRounds_clocked (17280 + 1)) (labTx_within 33 _) hp hnormal
  exact ⟨p, hp, hnormal, before, chain, first, hhistory, hchain, hfirst, hday⟩

end NetworkAi
