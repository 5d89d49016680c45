import NetworkAi.Control.Clocks
import NetworkAi.Invariants.Participants
import NetworkAi.Invariants.RouteLeases

set_option relaxedAutoImplicit false
set_option autoImplicit false

/-!
# Settlement inside coverage

A cooperative session is admitted under a running window of its pool on its route, and its deadline
is within that window. A receipt is charged only before the deadline, and a running window ends
only once its end has passed. So under one clock a settlement is recorded while the window runs.

## Main definitions

* `NetworkAi.Session.Covered` — a session within the window it was admitted under.
* `NetworkAi.Settlement.InCoverage` — a settlement recorded while that window runs.

## Main results

* `NetworkAi.clocked_coverage` — every admitted session is covered, at every instant of a run.
* `NetworkAi.settled_in_coverage` — every settlement of a run is recorded in coverage.
-/

namespace NetworkAi

open Relational

variable {env : Env} {req : Request} {tx : Tx} {db db' : Db} {id : SessionId} {s s' : Session}
  {lease : LeaseId} {l l' : RouteLease} {finish : Int}

/-! ### Windows that run -/

/-- **A running window goes on**, with its terms and its end, unless a sample at its end closes
it. -/
theorem Change.route_running (h : Change env req tx db db')
    (hl : db.routeLeases.find? lease = some l) (hrun : l.state.running = true) :
    ∃ l', db'.routeLeases.find? lease = some l' ∧ (l'.state.running = true ∨
      req.advances lease = true ∧ ∃ ends, l.endsMs = some ends ∧ ends ≤ tx.clock 0) := by
  obtain ⟨l', hl', -⟩ := h.routeLeases.old hl
  refine ⟨l', hl', ?_⟩
  rcases h.routeLease_row hl' with hold | hwritten
  · rw [hl, Option.some.injEq] at hold
    exact .inl (hold ▸ hrun)
  · have hoffered : l.state ≠ .offered := by
      intro hstate
      rw [hstate] at hrun
      cases hrun
    cases hwritten with
    | offered h hid =>
      have hnone := h.id
      rw [hid, hl] at hnone
      cases hnone
    | accepted hrow hstate | activated hrow hstate =>
      rw [hl, Option.some.injEq] at hrow
      exact absurd (hrow ▸ hstate) hoffered
    | sampled _ hstate _ _ _ _ _ hsampled =>
      exact .inl (hsampled ▸ RouteLease.sampled_running hstate _ _ _ _ _)
    | drained => exact .inl rfl
    | closed hrow hend _ hreq =>
      rw [hl, Option.some.injEq] at hrow
      subst hrow
      rcases hend with ⟨hstate, -⟩ | ⟨-, -, -, hends⟩
      · exact absurd hstate hoffered
      · exact .inr ⟨hreq hrun, hends⟩

/-! ### Covered sessions -/

/-- **A session within the window it was admitted under**, at an instant: the window is one of its
pool on its route, its deadline is within the window, and the window runs or its end has passed. -/
structure Session.Covered (t : Micros) (db : Db) (s : Session) (lease : LeaseId) (l : RouteLease)
    (finish : Int) : Prop where
  row : db.routeLeases.find? lease = some l
  window : ∃ w, db.windows.find? lease = some w ∧ s.cooperativePoolId = some w.poolId
  route : s.routeId = some l.routeId
  ends : l.endsMs = some finish
  deadline : ∃ d, s.executionDeadline = some d ∧ toMs d ≤ finish
  running : l.state ≠ .offered ∧ (l.state.running = true ∨ finish ≤ toMs t)

/-- Every session that was admitted under a window is covered. -/
def Coverage (t : Micros) (db : Db) : Prop :=
  ∀ id s lease, db.sessions.find? id = some s → s.coverageLeaseId = some lease →
    ∃ l finish, s.Covered t db lease l finish

/-- Coverage at one instant holds at a later one. -/
theorem Coverage.wait {t t' : Micros} (h : Coverage t db) (hle : t ≤ t') : Coverage t' db := by
  intro id s lease hs hlease
  obtain ⟨l, finish, hcovered⟩ := h id s lease hs hlease
  refine ⟨l, finish, { hcovered with running := ⟨hcovered.running.1, ?_⟩ }⟩
  exact hcovered.running.2.imp_right fun hpast => hpast.trans (toMs_mono hle)

/-- A covered session stays covered while its window goes on. -/
theorem Session.Covered.change {t : Micros} (h : s.Covered t db lease l finish)
    (hc : Change env req tx db db') (hclock : req.advances lease = true → tx.clock 0 ≤ toMs t) :
    ∃ l', s.Covered t db' lease l' finish := by
  obtain ⟨l', hl', hkeeps⟩ := hc.routeLeases.old h.row
  obtain ⟨w, hw, hpool⟩ := h.window
  obtain ⟨w', hw', rfl⟩ := hc.windows.old hw
  obtain ⟨hstarted, -, hends⟩ := hkeeps.started h.running.1
  refine ⟨l', hl', ⟨w, hw', hpool⟩, by rw [hkeeps.route]; exact h.route, hends.trans h.ends,
    h.deadline, hstarted, ?_⟩
  rcases h.running.2 with hrun | hpast
  · obtain ⟨l₁, hl₁, hgoes | ⟨hreq, ends', hends', hpast⟩⟩ := hc.route_running h.row hrun
    · rw [hl', Option.some.injEq] at hl₁
      exact .inl (hl₁ ▸ hgoes)
    · rw [h.ends, Option.some.injEq] at hends'
      exact .inr (hends' ▸ hpast.trans (hclock hreq))
  · exact .inr hpast

/-! ### Admissions -/

/-- The window that covers an admission. -/
theorem coverageOf_ok {pool : PoolId} {route : Option RouteId}
    (h : coverageOf tx db pool route = some (lease, l)) :
    (∃ w, db.windows.find? lease = some w ∧ w.poolId = pool) ∧
      db.routeLeases.find? lease = some l ∧ route = some l.routeId ∧ l.state.running = true ∧
      ∃ ends, l.endsMs = some ends := by
  obtain ⟨⟨lease', w, l'⟩, hfind, heq⟩ := Option.map_eq_some_iff.1 h
  simp only [Prod.mk.injEq] at heq
  obtain ⟨rfl, rfl⟩ := heq
  have hmem := List.mem_of_find?_eq_some hfind
  have hcond := List.find?_some hfind
  simp only [decide_eq_true_eq] at hcond
  obtain ⟨hroute, hrun, ends, hends, -⟩ := hcond
  obtain ⟨⟨k, w'⟩, hw', hsome⟩ := List.mem_filterMap.1 hmem
  split at hsome
  · rename_i hpool
    obtain ⟨row, hrow, heq⟩ := Option.map_eq_some_iff.1 hsome
    simp only [Prod.mk.injEq] at heq
    obtain ⟨rfl, rfl, rfl⟩ := heq
    exact ⟨⟨w', Table.find?_eq_some.2 hw', hpool⟩, hrow, hroute.symm, hrun, ends, hends⟩
  · cases hsome

/-- **An admission covers the session** by a window that runs. -/
theorem Admitted.covered {t : Tx} {o : Offer} (h : Admitted t db s o s') (time : Micros)
    (hlease : s'.coverageLeaseId = some lease) :
    ∃ l finish, s'.Covered time db lease l finish := by
  obtain ⟨coverage, hcoverage, hid, -, hdeadline⟩ := h.coverage
  unfold admitCoverage at hcoverage
  split at hcoverage
  · simp only [Checked.pure_ok] at hcoverage
    subst hcoverage
    rw [hid] at hlease
    cases hlease
  · rename_i pool hpool
    simp only [Checked.bind_ok, needRow_ok, Checked.pure_ok] at hcoverage
    obtain ⟨⟨lease', l⟩, hcover, rfl⟩ := hcoverage
    simp only [hid, Option.map_some, Option.some.injEq] at hlease
    subst hlease
    obtain ⟨⟨w, hw, hwpool⟩, hl, hroute, hrun, finish, hends⟩ := coverageOf_ok hcover
    obtain ⟨e, he, -⟩ := Registry.routeOffer_root (List.mem_filter.1 h.offer).1 hroute
    refine ⟨l, finish, hl, ⟨w, hw, ?_⟩, ?_, hends, ?_, ?_, .inl hrun⟩
    · rw [h.row]
      exact hwpool ▸ hpool
    · rw [h.row, hroute, Option.bind_some, he]
      rfl
    · refine ⟨_, hdeadline, ?_⟩
      rw [toMs_ofMs]
      simp only [admitDeadline, Option.bind_some, hends]
      exact min_le_right _ _
    · intro hoffered
      rw [hoffered] at hrun
      cases hrun

/-- A session that is covered as it was. -/
structure Session.SameCover (s s' : Session) : Prop where
  lease : s'.coverageLeaseId = s.coverageLeaseId
  pool : s'.cooperativePoolId = s.cooperativePoolId
  route : s'.routeId = s.routeId
  deadline : s'.executionDeadline = s.executionDeadline

/-- A session that is where it was is still covered. -/
theorem Session.Covered.same {t : Micros} (h : s.Covered t db lease l finish)
    (hsame : s.SameCover s') : s'.Covered t db lease l finish :=
  { h with
    window := by rw [hsame.pool]; exact h.window
    route := hsame.route.trans h.route
    deadline := by rw [hsame.deadline]; exact h.deadline }

/-- **A step keeps how a session is covered**, or it is its admission. -/
theorem Session.Step.cover (h : s.Step env req db db' id s') :
    s.SameCover s' ∨ ∃ t o, Admitted t db s o s' := by
  cases h with
  | same => exact .inl ⟨rfl, rfl, rfl, rfl⟩
  | admitted h => exact .inr ⟨_, _, h⟩
  | updated h => exact .inl (by rw [h.continues.row]; exact ⟨rfl, rfl, rfl, rfl⟩)
  | finalized hreport _ _ _ _ hsplit =>
    rw [hsplit.same, hreport.row]
    exact .inl ⟨rfl, rfl, rfl, rfl⟩
  | refunded => exact .inl ⟨rfl, rfl, rfl, rfl⟩

/-! ### Runs -/

/-- **A change keeps the coverage**, as long as no window is sampled after the instant. -/
theorem Change.coverage {t : Micros} (hc : Change env req tx db db') (h : Coverage t db)
    (hclock : ∀ lease, req.advances lease = true → tx.clock 0 ≤ toMs t) : Coverage t db' := by
  intro id s' lease hs' hlease
  rcases hc.session_cases hs' with ⟨-, t', user, d, quote, -, rfl⟩ | ⟨s, hs, hstep⟩
  · cases hlease
  · rcases hstep.cover with hsame | ⟨t', o, hadmission⟩
    · obtain ⟨l, finish, hcovered⟩ := h id s lease hs (hsame.lease ▸ hlease)
      obtain ⟨l', hcovered'⟩ := hcovered.change hc (hclock lease)
      exact ⟨l', finish, hcovered'.same hsame⟩
    · obtain ⟨l, finish, hcovered⟩ := hadmission.covered t hlease
      obtain ⟨l', hcovered'⟩ := hcovered.change hc (hclock lease)
      exact ⟨l', finish, hcovered'⟩

/-- **Every admitted session is covered**, at every instant of a run under one clock. -/
theorem clocked_coverage {lo hi : Micros} {admin : UserId} {is : List (Tx × Request)}
    (hclock : Clocked lo is hi) : Coverage hi ((controlSystem env).run (Db.initial admin) is) := by
  refine clocked_invariant (P := Coverage) (fun lo hi db hle h => h.wait hle)
    (fun lo hi db i _ hnow h => ?_) (.init ⟨admin, rfl⟩) hclock
    fun id s lease hs _ => by cases hs
  refine Machine.Star.preserves (P := Coverage hi) (fun _ _ hc h => hc.coverage h fun _ _ => ?_)
    (step_changes i db) (h.wait hnow.le)
  exact toMs_mono (hnow.wall 0).2

/-! ### Settlements -/

/-- **A settlement is recorded in coverage**: in the database that its transaction leaves, the
window that its session was admitted under is one of the session's pool on the session's route, it
runs, and the transaction started and checked the deadline before its end. -/
structure Settlement.InCoverage (tx : Tx) (db : Db) (id : SessionId) (r : Settlement) : Prop where
  settled : db.settlements.find? id = some r
  session : ∃ s, db.sessions.find? id = some s ∧ s.coverageLeaseId = some r.coverageLeaseId ∧
    s.cooperativePoolId = some r.poolId ∧ s.state.terminal = true ∧
    (∃ w, db.windows.find? r.coverageLeaseId = some w ∧ w.poolId = r.poolId) ∧
    ∃ l finish, db.routeLeases.find? r.coverageLeaseId = some l ∧ s.routeId = some l.routeId ∧
      l.state.running = true ∧ l.endsMs = some finish ∧ r.createdAt < ofMs finish ∧
      tx.date 0 < finish

/-- An instant that has passed is not after the present millisecond. -/
theorem ofMs_le_of_le {t : Micros} {ms : Int} (h : ofMs ms ≤ t) : ms ≤ toMs t := by
  rw [← toMs_ofMs ms]
  exact toMs_mono h

/-- A request that charges does not sample a window. -/
theorem Request.charges_advances (h : req.charges = true) (lease : LeaseId) :
    req.advances lease = false := by
  unfold Request.charges at h
  split at h
  · rfl
  · rfl
  · cases h

/-- Only a request that charges records a settlement. -/
theorem Change.settlement_charges (hc : Change env req tx db db')
    (hnone : db.settlements.find? id = none) (hother : req.charges = false) :
    db'.settlements.find? id = none := by
  rcases hc with hc | hc
  · cases hc with
    | sessionFinalized _ _ _ _ _ _ hsplit _ htimely =>
      cases hsplit with
      | free | route | node => exact hnone
      | recycled hpos =>
        rw [hother] at htimely
        cases (htimely hpos).2.2
    | _ => exact hnone
  · cases hc <;> exact hnone

/-- **A new settlement of a change** is recorded in coverage.

**Proof sketch.** Only the end of a charged session of a pool records one. Its receipt came before
the deadline, which is not after the end of its window; so the window has not ended at the
transaction's instants, and runs. -/
theorem Change.settlement_covered {lo hi : Micros} {r : Settlement}
    (hc : Change env req tx db db') (h : Coverage lo db) (hnow : tx.Within lo hi)
    (hr : db'.settlements.find? id = some r) (hnone : db.settlements.find? id = none) :
    r.InCoverage tx db' id := by
  have hold : ∀ {P : Prop}, db.settlements.find? id = some r → P := by
    intro P hfound
    rw [hnone] at hfound
    cases hfound
  rcases hc with hc | hc
  · cases hc with
    | @sessionFinalized t id' s₀ s s' state charge error billing entries settlements books hs
        hreport _ _ _ _ hsplit _ htimely hrecorded =>
      cases hsplit with
      | free | route | node => exact hold hr
      | @recycled r' hpos hpool hlease _ _ _ hfresh =>
        rcases Table.find?_insert_cases (h := hfresh) hr with ⟨rfl, rfl⟩ | ⟨-, hfound⟩
        · obtain ⟨rfl, hdue, -⟩ := htimely hpos
          have hcreated := (hrecorded r Table.find?_insert_self hnone).created
          obtain ⟨l, finish, hcovered⟩ := h _ s₀ r.coverageLeaseId hs
            (by rw [hreport.row] at hlease; exact hlease)
          obtain ⟨d, hd, hle⟩ := hcovered.deadline
          have hdeadline : s.executionDeadline = some d := by rw [hreport.row]; exact hd
          -- the receipt came before the deadline, and so before the end of the window
          have htime : t.date 0 < finish := by
            rw [Session.overdue, hdeadline] at hdue
            have hbefore := of_decide_eq_false hdue
            omega
          have hstart : toMs t.now < finish := lt_of_le_of_lt (hnow.date 0).1 htime
          have hrun : l.state.running = true := by
            refine hcovered.running.2.resolve_right fun hpast => ?_
            exact absurd (hpast.trans (toMs_mono hnow.now)) (not_le.2 hstart)
          have hroute : s.routeId = some l.routeId := by rw [hreport.row]; exact hcovered.route
          obtain ⟨w, hw, hwpool⟩ := hcovered.window
          have hpool₀ : s₀.cooperativePoolId = some r.poolId := by
            rw [hreport.row] at hpool
            exact hpool
          rw [hpool₀, Option.some.injEq] at hwpool
          refine ⟨hr, _, Table.find?_set_self hs, hlease, hpool, by cases state <;> rfl,
            ⟨w, hw, hwpool.symm⟩, l, finish, hcovered.row, hroute, hrun, hcovered.ends, ?_, htime⟩
          rw [hcreated]
          exact not_le.1 fun hpast => absurd (ofMs_le_of_le hpast) (not_le.2 hstart)
        · exact hold hfound
    | _ => exact hold hr
  · cases hc <;> exact hold hr

/-- A settlement in coverage is so after any change of a transaction that charges. -/
theorem Settlement.InCoverage.change {r : Settlement} (h : r.InCoverage tx db id)
    (hc : Change env req tx db db') (hcharges : req.charges = true) : r.InCoverage tx db' id := by
  obtain ⟨s, hs, hlease, hpool, hended, ⟨w, hw, hwpool⟩, l, finish, hl, hroute, hrun, hends,
    hcreated, htime⟩ := h.session
  obtain ⟨r', hr', rfl⟩ := hc.frozen.2.2.1.old h.settled
  obtain ⟨s', hs', hkeeps⟩ := hc.sessions.old hs
  obtain ⟨w', hw', rfl⟩ := hc.windows.old hw
  obtain ⟨l', hl', hlkeeps⟩ := hc.routeLeases.old hl
  have hoffered : l.state ≠ .offered := by
    intro hoffered
    rw [hoffered] at hrun
    cases hrun
  obtain ⟨l₁, hl₁, hgoes | ⟨hreq, -⟩⟩ := hc.route_running hl hrun
  · rw [hl', Option.some.injEq] at hl₁
    subst hl₁
    rw [hkeeps.ended hended] at hs'
    exact ⟨hr', _, hs', hlease, hpool, hended, ⟨w, hw', hwpool⟩, l', finish, hl',
      by rw [hlkeeps.route]; exact hroute, hgoes, (hlkeeps.started hoffered).2.2.trans hends,
      hcreated, htime⟩
  · rw [Request.charges_advances hcharges] at hreq
    cases hreq

/-- **A new settlement of a step** is recorded in coverage. -/
theorem step_settlement_covered {lo hi : Micros} {i : Tx × Request} {r : Settlement}
    (h : Coverage lo db) (hnow : i.1.Within lo hi)
    (hr : ((controlSystem env).step i db).settlements.find? id = some r)
    (hnone : db.settlements.find? id = none) :
    r.InCoverage i.1 ((controlSystem env).step i db) id := by
  have hsteps : Changes env i.2 i.1 db ((controlSystem env).step i db) := step_changes i db
  cases hcharges : i.2.charges with
  | false =>
    have hnone' : ((controlSystem env).step i db).settlements.find? id = none :=
      Machine.Star.preserves (P := fun db => db.settlements.find? id = none)
        (fun _ _ hc hn => hc.settlement_charges hn hcharges) hsteps hnone
    rw [hr] at hnone'
    cases hnone'
  | true =>
    -- no window is sampled meanwhile: the coverage stays as it is, until the settlement
    have hidle : ∀ lease, i.2.advances lease = true → i.1.clock 0 ≤ toMs lo := by
      intro lease hreq
      rw [Request.charges_advances hcharges] at hreq
      cases hreq
    have hgoes := Machine.Star.preserves
      (P := fun db => (Coverage lo db ∧ db.settlements.find? id = none) ∨
        ∃ r : Settlement, r.InCoverage i.1 db id)
      (fun db₁ db₂ hc hp => by
        rcases hp with ⟨hcover, hn⟩ | ⟨r₁, hr₁⟩
        · cases hr₂ : db₂.settlements.find? id with
          | none => exact .inl ⟨hc.coverage hcover hidle, rfl⟩
          | some r₂ => exact .inr ⟨r₂, hc.settlement_covered hcover hnow hr₂ hn⟩
        · exact .inr ⟨r₁, hr₁.change hc hcharges⟩) hsteps (.inl ⟨h, hnone⟩)
    rcases hgoes with ⟨-, hn⟩ | ⟨r₁, hr₁⟩
    · rw [hr] at hn
      cases hn
    · have hsame := hr₁.settled
      rw [hr, Option.some.injEq] at hsame
      exact hsame ▸ hr₁

/-- A settlement stays as it was recorded. -/
theorem run_settlement {r : Settlement} (hr : db.settlements.find? id = some r)
    (hreach : Machine.Reachable (controlSystem env) db) (is : List (Tx × Request)) :
    ((controlSystem env).run db is).settlements.find? id = some r := by
  refine Machine.System.run_invariant (P := fun db => db.settlements.find? id = some r)
    (fun db i _ h => ?_) hreach hr is
  refine Machine.Star.preserves (P := fun db => db.settlements.find? id = some r)
    (fun _ _ hc h => ?_) (step_changes i db) h
  obtain ⟨r', hr', rfl⟩ := hc.frozen.2.2.1.old h
  exact hr'

/-- **Settlement inside coverage**: in every run under one clock, every settlement is recorded, at
some step of the run, while the window that its session was admitted under runs, and before the end
of that window.

**Proof sketch.** The settlement is not there at the start and there at the end, so that some step
of the run records it (`run_arises`). Coverage holds before that step, and what the step records is
never changed. -/
theorem settled_in_coverage {env : Env} {admin : UserId} {lo hi : Micros}
    {is : List (Tx × Request)} (hclock : Clocked lo is hi) {id : SessionId} {r : Settlement}
    (hr : ((controlSystem env).run (Db.initial admin) is).settlements.find? id = some r) :
    ∃ before i after, is = before ++ i :: after ∧
      ((controlSystem env).run (Db.initial admin) before).settlements.find? id = none ∧
      r.InCoverage i.1 ((controlSystem env).run (Db.initial admin) (before ++ [i])) id := by
  obtain ⟨before, i, after, his, hbefore, hafter⟩ := Machine.System.run_arises
    (P := fun db : Db => (db.settlements.find? id).isSome) (s := Db.initial admin)
    (by simp [Db.initial]) (by rw [hr]; rfl)
  subst his
  obtain ⟨mid, hpast, next, hnow, -⟩ := hclock.split
  have hnone : ((controlSystem env).run (Db.initial admin) before).settlements.find? id = none :=
    Option.not_isSome_iff_eq_none.1 hbefore
  obtain ⟨r₁, hr₁⟩ := Option.isSome_iff_exists.1 hafter
  have hreach : Machine.Reachable (controlSystem env)
      ((controlSystem env).run (Db.initial admin) (before ++ [i])) :=
    Machine.reachable_run (M := controlSystem env) (.init ⟨admin, rfl⟩) _
  have hstays := run_settlement hr₁ hreach after
  rw [← Machine.System.run_append, List.append_assoc, List.singleton_append, hr,
    Option.some.injEq] at hstays
  subst hstays
  refine ⟨before, i, after, rfl, hnone, ?_⟩
  rw [Machine.System.run_append] at hr₁ ⊢
  exact step_settlement_covered (clocked_coverage hpast) hnow hr₁ hnone

/-- The window of the laboratory is sampled, and a session is admitted and settled under it. -/
def labCovered : List (Tx × Request) :=
  labBeats 38 5000 ++ [(labTx 39 5000, .background (.reconcileRoute 36006))] ++
    labDemand 40 5000 ++ labStart 40 5000 ++ labReceipts 40 5000

/-- The covered session of the laboratory takes five seconds. -/
theorem labCovered_clocked :
    Clocked (ofMs (86400000 + 0)) (labSetup ++ labPlan ++ labCovered) (ofMs (86400000 + 5000)) := by
  have hcovered : Clocked (ofMs (86400000 + 5000)) labCovered (ofMs (86400000 + 5000)) := by
    refine clocked_labTx ?_
    unfold labCovered labBeats labDemand labStart labReceipts
    repeat' first | exact ⟨_, rfl⟩ | constructor
  exact (labPlan_clocked.wait (by decide)).append hcovered

/-- The settlement of the laboratory is recorded in coverage. -/
theorem settled_in_coverage_lab :
    ∃ r, (labDb (labSetup ++ labPlan ++ labCovered)).settlements.find? 41000 = some r ∧
      ∃ before i, r.InCoverage i.1 (labDb (before ++ [i])) 41000 := by
  have hsettled : ((labDb (labSetup ++ labPlan ++ labCovered)).settlements.find? 41000).isSome := by
    decide +kernel
  obtain ⟨r, hr⟩ := Option.isSome_iff_exists.1 hsettled
  obtain ⟨before, i, -, -, -, hcovered⟩ := settled_in_coverage labCovered_clocked hr
  exact ⟨r, hr, before, i, hcovered⟩

end NetworkAi
