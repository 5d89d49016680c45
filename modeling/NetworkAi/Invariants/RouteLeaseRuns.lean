import NetworkAi.Invariants.Charges
import NetworkAi.Invariants.Noninterference
import NetworkAi.Invariants.RouteLeaseBooks

set_option relaxedAutoImplicit false
set_option autoImplicit false

/-!
# The runs of a window

No sample of a window finds its members to have earned too much or less than before. A window that
runs ends only by its completion, not before its end. A window whose samples are never more than
six seconds apart, and always find every member ready in the epoch of the last one, credits all of
its length to every member, and pays its whole budget.

## Main definitions

* `NetworkAi.ReadyRun` — every sample of a window along a run is in time, and finds it ready.
* `NetworkAi.RouteLease.Full` — a window whose members were credited all of the time.

## Main results

* `NetworkAi.advanceRoute_projects` — a sample never stops with `lease_projection`.
* `NetworkAi.step_running` — how a window that runs ends.
* `NetworkAi.route_lease_accounting` — the accounts of the windows along every run.
-/

namespace NetworkAi

open Relational Checked

variable {env : Env} {req : Request} {tx t : Tx} {db db' : Db} {id : LeaseId} {l l' : RouteLease}
  {i : Tx × Request}

/-! ### Projections never fail -/

/-- The error of a sample by which a member would earn too much, or less than before. -/
@[simp] def Failure.ofProjection : Failure → Prop
  | .app _ code _ => code = "lease_projection"
  | _ => False

/-- A block never stops with `lease_projection`. -/
abbrev Projects {α : Type} (x : Except Failure α) : Prop := Avoids Failure.ofProjection x

/-- A posting stops with other codes. -/
theorem projects_post {j : JournalId} {key : BusinessKey} {info : PostInfo}
    {entries : List (AccountId × Int)} : Projects (db.post env j key info entries) := by
  refine avoids_post (fun _ => by simp) fun _ code _ hbad hmem => ?_
  have hbad : code = "lease_projection" := hbad
  subst hbad
  simp [postCodes] at hmem

/-- **A sample of a member** is projected between what it was paid before and its maximum. -/
theorem creditMember_projects (hs : l.Sound) {now previous ends : Int} {contiguous : Bool}
    (hprev : l.sampleMs = some previous) (hends : l.endsMs = some ends) {o : ObservedMember}
    (hmem : o.member ∈ l.members) :
    Projects (creditMember l (max previous (min now ends) - previous) contiguous o) := by
  obtain ⟨started, ends', ht⟩ := hs.sampled previous hprev
  obtain rfl : ends = ends' := by
    rw [← Option.some.injEq, ← hends, ht.endsMs]
  have hcredited := ht.credited _ hmem
  have hlast := ht.last
  have hlength := ht.length
  have hmaximum := (hs.maximum _ hmem).le
  have hwindow := hs.windowMs_pos
  -- the projection of any time between the credited one and the window
  have hproject : ∀ credited, o.member.credited ≤ credited → credited ≤ l.windowMs →
      0 ≤ credited * o.member.maximum / l.windowMs - o.member.paid ∧
        credited * o.member.maximum / l.windowMs ≤ o.member.maximum := by
    intro credited hmore hless
    refine ⟨?_, ?_⟩
    · rw [hs.projected _ hmem, sub_nonneg]
      apply Int.ediv_le_ediv hwindow
      exact mul_le_mul_of_nonneg_right hmore hmaximum
    · apply Int.ediv_le_of_le_mul hwindow
      rw [mul_comm o.member.maximum]
      exact mul_le_mul_of_nonneg_right hless hmaximum
  unfold creditMember
  simp only [avoids_bind, avoids_need, avoids_pure, implies_true, and_true]
  intro _
  apply hproject
  · split <;> omega
  · split <;> omega

/-- An observation of a member stops with other codes. -/
theorem observeMember_projects {now : Int} {p : LeaseMember} :
    Projects (observeMember db l now p) := by
  simp [observeMember]

/-- A write of a window stops with other codes. -/
theorem updateRouteLease_projects {new : RouteLease} : Projects (db.updateRouteLease id l new) := by
  have hclaims : Projects (insertClaims db.claims (.routeLease id) new.domains) :=
    avoids_foldlM (P := fun _ => True) trivial (fun _ _ _ _ => by simp) fun _ _ _ _ _ _ => trivial
  simp [Db.updateRouteLease, hclaims]

/-- The close of a window stops with other codes. -/
theorem closeRoute_projects {state : RouteLeaseState} {paid : Int} :
    Projects (closeRoute env t db id l state paid) := by
  simp [closeRoute, projects_post, updateRouteLease_projects]

/-- **An advance of a window** never stops with `lease_projection`. -/
theorem advanceRoute_projects (hs : l.Sound) : Projects (advanceRoute env tx db id l) := by
  unfold advanceRoute
  split
  · simp [closeRoute_projects]
  simp only [avoids_bind, avoids_reference, reference_ok]
  refine ⟨by simp, fun previous hprev => ⟨by simp, fun ends hends => ?_⟩⟩
  split
  · exact avoids_pure _
  unfold sampleRoute
  have hobserve : Projects (observeRoute db l (tx.clock 0)) := by
    unfold observeRoute
    simp only [avoids_bind, avoids_pure, implies_true, and_true]
    exact avoids_mapM fun _ _ => observeMember_projects
  simp only [avoids_bind]
  refine ⟨hobserve, fun observation hobs => ⟨?_, fun credits _ => ?_⟩⟩
  · apply avoids_mapM
    intro o ho
    apply creditMember_projects hs hprev hends
    rw [← observeRoute_members hobs]
    exact List.mem_map_of_mem ho
  · simp [projects_post, updateRouteLease_projects, closeRoute_projects]

/-- A drained window stops with other codes. -/
theorem drainRoute_projects {user : UserId} : Projects (drainRoute t db user id) := by
  simp [drainRoute, updateRouteLease_projects]

/-- A reconciled window whose row is sound stops with other codes. -/
theorem reconcileRoute_projects (hs : ∀ l, db.routeLeases.find? id = some l → l.Sound) :
    Projects (reconcileRoute env tx db id) := by
  unfold reconcileRoute
  split
  · rename_i row hrow
    split
    · exact advanceRoute_projects (hs row hrow)
    · exact avoids_pure _
  · exact avoids_pure _

/-- A cancelled window whose row is sound stops with other codes. -/
theorem cancelRoute_projects {user : Actor}
    (hs : ∀ l, db.routeLeases.find? id = some l → l.Sound) :
    Projects (cancelRoute env tx db user id) := by
  unfold cancelRoute
  simp only [avoids_bind, avoids_needRow, avoids_need, needRow_ok]
  refine ⟨by simp, fun row hrow => ⟨by simp, fun _ _ => ?_⟩⟩
  split
  · exact closeRoute_projects
  split
  · simp [advanceRoute_projects (hs row hrow), drainRoute_projects]
  · exact avoids_pure _

/-! ### How a window ends -/

/-- What a change of a window that runs leaves: it still runs, or it was completed by a request
that advances it, not before its end. -/
structure RouteLease.Onward (id : LeaseId) (i : Tx × Request) (l l' : RouteLease) : Prop where
  startedMs : l'.startedMs = l.startedMs
  endsMs : l'.endsMs = l.endsMs
  state : l'.state.running = true ∨ (l'.state = .completed ∧ i.2.advances id = true ∧
    ∃ ends, l.endsMs = some ends ∧ ends ≤ i.1.clock 0)

/-- A change of a window that runs. -/
theorem Change.onward (h : Change env i.2 i.1 db db') (hl : db.routeLeases.find? id = some l)
    (hrunning : l.state.running = true) :
    ∃ l', db'.routeLeases.find? id = some l' ∧ l.Onward id i l' := by
  obtain ⟨l', hl', hkeeps⟩ := h.routeLeases.old hl
  have haccepted : l.state ≠ .offered := fun hoffered => by rw [hoffered] at hrunning; cases hrunning
  obtain ⟨-, hstarted, hends⟩ := hkeeps.started haccepted
  refine ⟨l', hl', hstarted, hends, ?_⟩
  rcases h.routeLease_row hl' with hold | hwritten
  · rw [hl, Option.some.injEq] at hold
    exact .inl (hold ▸ hrunning)
  have hrow : ∀ {row : RouteLease}, db.routeLeases.find? id = some row → row = l :=
    fun hrow => Option.some.inj (hrow.symm.trans hl)
  cases hwritten with
  | offered h hid =>
    rw [← hid, h.id] at hl
    cases hl
  | accepted hfound hstate | activated hfound hstate =>
    obtain rfl := hrow hfound
    exact absurd hstate haccepted
  | sampled hfound hstate _ _ _ _ _ hsampled =>
    exact .inl (hsampled ▸ RouteLease.sampled_running hstate ..)
  | drained => exact .inl rfl
  | closed hfound hend _ hreq =>
    obtain rfl := hrow hfound
    rcases hend with ⟨hstate, -⟩ | ⟨-, -, rfl, hpast⟩
    · exact absurd hstate haccepted
    · exact .inr ⟨rfl, hreq hrunning, hpast⟩

/-- **A step of a window that runs**: it ends only as completed, by a request that advances it, and
not before its end. -/
theorem step_running (env : Env) (i : Tx × Request) (hl : db.routeLeases.find? id = some l)
    (hrunning : l.state.running = true) :
    ∃ l', ((controlSystem env).step i db).routeLeases.find? id = some l' ∧ l.Onward id i l' :=
  (step_changes i db).preserves
    (P := fun db' => ∃ l', db'.routeLeases.find? id = some l' ∧ l.Onward id i l')
    (fun _ _ hc ⟨l₁, hl₁, h₁⟩ => by
      rcases h₁.state with hrunning₁ | ⟨hcompleted, hends⟩
      · obtain ⟨l₂, hl₂, h₂⟩ := hc.onward hl₁ hrunning₁
        refine ⟨l₂, hl₂, h₂.startedMs.trans h₁.startedMs, h₂.endsMs.trans h₁.endsMs, ?_⟩
        exact h₁.endsMs ▸ h₂.state
      · obtain ⟨l₂, hl₂, hkeeps⟩ := hc.routeLeases.old hl₁
        rw [hkeeps.ended (by rw [hcompleted]; rfl)] at hl₂
        exact ⟨l₁, hl₂, h₁⟩)
    ⟨l, hl, rfl, rfl, .inl hrunning⟩

/-- A step of a window that has ended. -/
theorem step_ended (hl : db.routeLeases.find? id = some l) (hended : l.state.funded = false) :
    ((controlSystem env).step i db).routeLeases.find? id = some l :=
  (step_changes i db).preserves (P := fun db => db.routeLeases.find? id = some l)
    (fun _ _ hc hl => by
      obtain ⟨l', hl', hkeeps⟩ := hc.routeLeases.old hl
      rw [hl', hkeeps.ended hended]) hl

/-! ### Windows that are always ready -/

/-- A sample finds a member ready, in the epoch of the last sample. -/
def readyIn (db : Db) (l : RouteLease) (now : Int) (p : LeaseMember) : Bool :=
  match observeMember db l now p with
  | .ok o => o.ready ∧ p.nodeEpoch = some o.epoch
  | .error _ => false

/-- The window that a request samples, if it commits and samples it, and the instant of the last
sample. -/
def sampledWindow (env : Env) (id : LeaseId) (i : Tx × Request) (db : Db) :
    Option (RouteLease × Int) :=
  match transaction env i.1 db i.2, db.routeLeases.find? id with
  | .ok _, some l =>
    if i.2.advances id = true ∧ l.state.running = true then
      l.sampleMs.bind fun previous => if previous ≤ i.1.clock 0 then some (l, previous) else none
    else none
  | _, _ => none

/-- **A sample in time**: at most six seconds after the last one, it finds every member ready in
the epoch of the last one. -/
def ReadySample (env : Env) (id : LeaseId) (i : Tx × Request) (db : Db) : Prop :=
  ∀ s ∈ sampledWindow env id i db, i.1.clock 0 - s.2 ≤ 6000 ∧
    ∀ p ∈ s.1.members, readyIn db s.1 (i.1.clock 0) p = true

instance (env : Env) (id : LeaseId) (i : Tx × Request) (db : Db) :
    Decidable (ReadySample env id i db) :=
  inferInstanceAs (Decidable (∀ s ∈ sampledWindow env id i db, _ ∧ _))

/-- Every sample of a window along a run is in time, and finds the window ready. -/
def ReadyRun (env : Env) (id : LeaseId) : Db → List (Tx × Request) → Prop
  | _, [] => True
  | db, i :: is => ReadySample env id i db ∧ ReadyRun env id ((controlSystem env).step i db) is

instance decidableReadyRun (env : Env) (id : LeaseId) :
    ∀ (db : Db) (is : List (Tx × Request)), Decidable (ReadyRun env id db is)
  | _, [] => .isTrue trivial
  | db, i :: is =>
    have := decidableReadyRun env id ((controlSystem env).step i db) is
    inferInstanceAs (Decidable (_ ∧ _))

/-- **A window whose members were credited all of the time** since it started, up to its last
sample; a window that was completed was sampled at its end. -/
structure RouteLease.Full (l : RouteLease) : Prop where
  credited : ∀ sample started, l.sampleMs = some sample → l.startedMs = some started →
    ∀ p ∈ l.members, p.credited = sample - started ∧ (p.withdrawnAt = none → p.sampleReady = true)
  completed : l.state = .completed → ∃ ends, l.sampleMs = some ends ∧ l.endsMs = some ends

/-- A window that was never sampled. -/
theorem RouteLease.Full.of_unsampled (hsample : l.sampleMs = none) (hstate : l.state ≠ .completed) :
    l.Full :=
  ⟨fun sample _ hsome => (by rw [hsample] at hsome; cases hsome), fun h => absurd h hstate⟩

/-- The window that a change by any other request writes is full, if it was. -/
theorem RouteLease.Written.full (h : RouteLease.Written env req tx db db' id l)
    (hreq : req.advances id = false)
    (hold : ∀ row, db.routeLeases.find? id = some row → row.Sound ∧ row.Full) : l.Full := by
  cases h with
  | offered h hid => exact .of_unsampled rfl RouteLeaseState.noConfusion
  | accepted hrow => exact ⟨(hold _ hrow).2.credited, (hold _ hrow).2.completed⟩
  | @activated row acceptances observation now hrow hstate hobs =>
    have hs := (hold row hrow).1
    refine ⟨fun sample started hsample hstarted p hp => ?_, fun h => by cases h⟩
    obtain rfl : now = sample := Option.some.inj hsample
    obtain rfl : now = started := Option.some.inj hstarted
    obtain ⟨o, ho, rfl⟩ := List.mem_map.1 hp
    have hmem : o.member ∈ row.members := by
      rw [← show _ = row.members from observeRoute_members hobs]
      exact List.mem_map_of_mem ho
    refine ⟨?_, fun _ => rfl⟩
    rw [sub_self]
    exact hs.unsampled (hs.offered hstate) o.member hmem
  | sampled _ _ _ _ _ _ _ _ _ hadvances | drained _ _ _ hadvances =>
    rw [hreq] at hadvances
    cases hadvances
  | closed hrow hend _ hadvances =>
    rcases hend with ⟨hstate, -, hclosed⟩ | ⟨hrunning, -⟩
    · refine .of_unsampled ((hold _ hrow).1.offered hstate) ?_
      rcases hclosed with rfl | ⟨rfl, -⟩ <;> exact RouteLeaseState.noConfusion
    · rw [hreq] at hadvances
      cases hadvances hrunning

/-- A window that follows a full one without a sample, as every provider sees it, is full. -/
theorem RouteLease.Full.follows (h : l.Full) (hfollows : ∀ P, l.Follows P l')
    (hstarted : l'.startedMs = l.startedMs) (hcompleted : l'.state = .completed →
      ∃ ends, l'.sampleMs = some ends ∧ l'.endsMs = some ends) : l'.Full := by
  refine ⟨fun sample started hsample hstart p' hp' => ?_, hcompleted⟩
  have hp' : p' ∈ l'.membersOf p'.providerId := List.mem_filter.2 ⟨hp', by simp⟩
  obtain ⟨p, hp, hleaves⟩ := forall₂_right (hfollows p'.providerId).members hp'
  obtain ⟨hcredited, hready⟩ := h.credited sample started
    ((hfollows p'.providerId).sample ▸ hsample) (hstarted ▸ hstart) p (List.mem_filter.1 hp).1
  rcases hleaves with rfl | ⟨at', rfl⟩
  · exact ⟨hcredited, hready⟩
  · exact ⟨hcredited, fun hnone => by cases hnone⟩

/-- **A sample in time of a full window**, as every provider sees it.

**Proof sketch.** Every member was found ready, so that it has not withdrawn, and the last sample
found it ready as well. It is then credited the time between the two samples, and its credited time
stays that from the start to the last sample. -/
theorem RouteLease.Full.samples (h : l.Full) {now previous started : Int}
    (hprev : l.sampleMs = some previous) (hstart : l.startedMs = some started)
    (hsamples : ∀ P, ∃ previous ends sampled, l.Samples db now previous ends P sampled ∧
      sampled.Follows P l')
    (hcontiguous : now - previous ≤ 6000) (hready : ∀ p ∈ l.members, readyIn db l now p = true)
    (hstarted : l'.startedMs = l.startedMs) (hcompleted : l'.state = .completed →
      ∃ ends, l'.sampleMs = some ends ∧ l'.endsMs = some ends) : l'.Full := by
  refine ⟨fun sample started' hsample hstart' p' hp' => ?_, hcompleted⟩
  obtain rfl : started = started' := by
    rw [← Option.some.injEq, ← hstart, ← hstarted, hstart']
  have hp' : p' ∈ l'.membersOf p'.providerId := List.mem_filter.2 ⟨hp', by simp⟩
  obtain ⟨previous', ends, sampled, hsampled, hfollows⟩ := hsamples p'.providerId
  obtain rfl : previous = previous' := by
    rw [← Option.some.injEq, ← hprev, hsampled.before]
  obtain rfl : max previous (min now ends) = sample := by
    rw [← Option.some.injEq, ← hsampled.sample, ← hfollows.sample, hsample]
  obtain ⟨q, hq, hleaves⟩ := forall₂_right hfollows.members hp'
  obtain ⟨p, hp, o, ho, rfl⟩ := forall₂_right hsampled.members hq
  have hmem := (List.mem_filter.1 hp).1
  have hfound := hready p hmem
  unfold readyIn at hfound
  rw [ho] at hfound
  simp only [Bool.decide_and, Bool.decide_eq_true, Bool.and_eq_true, decide_eq_true_eq] at hfound
  obtain ⟨hcredited, hbefore⟩ := h.credited previous started hprev hstart p hmem
  -- a member that was found ready has not withdrawn, so that the last sample found it ready, too
  have hstays : p.withdrawnAt = none := by
    by_contra hleft
    have hidle := observeMember_withdrawn ho (.inl hleft)
    rw [hfound.1] at hidle
    cases hidle
  have hearned : (p.credit l.windowMs (max previous (min now ends) - previous)
      (decide (now - previous ≤ 6000)) o.epoch o.ready).credited =
        max previous (min now ends) - started := by
    simp only [LeaseMember.credit, hcontiguous, hbefore hstays, hfound.1, hfound.2, decide_true,
      and_self, if_true]
    omega
  rcases hleaves with rfl | ⟨at', rfl⟩
  · exact ⟨hearned, fun _ => hfound.1⟩
  · exact ⟨hearned, fun hnone => by cases hnone⟩

/-- A request that advances a window that is on offer closes it, or leaves it. -/
theorem perform_offered (hreq : req.advances id = true) (hl : db.routeLeases.find? id = some l)
    (hstate : l.state = .offered) (h : perform env tx db req = .ok db') :
    ∃ l', db'.routeLeases.find? id = some l' ∧ l'.sampleMs = l.sampleMs ∧
      l'.state ≠ .completed := by
  have hidle : l.state ≠ .completed := by
    rw [hstate]
    exact RouteLeaseState.noConfusion
  rcases advances_cases hreq h with h | ⟨user, -, h⟩
  · unfold reconcileRoute at h
    simp only [hl, hstate, RouteLeaseState.funded, if_true] at h
    unfold advanceRoute at h
    rw [if_pos hstate] at h
    split at h
    · exact ⟨_, closeRoute_row hl h, rfl, RouteLeaseState.noConfusion⟩
    · simp only [Checked.pure_ok] at h
      exact ⟨l, h ▸ hl, rfl, hidle⟩
  · unfold cancelRoute at h
    simp only [Checked.bind_ok, needRow_ok, need_ok, exists_const] at h
    obtain ⟨row, hrow, -, h⟩ := h
    rw [hl, Option.some.injEq] at hrow
    subst hrow
    rw [if_pos hstate] at h
    exact ⟨_, closeRoute_row hl h, rfl, RouteLeaseState.noConfusion⟩

/-- What is known of a window along a run whose samples are in time. -/
structure FullWindow (env : Env) (id : LeaseId) (db : Db) : Prop where
  booking : Booking db
  books : RouteLeaseBooks env db
  full : ∀ l, db.routeLeases.find? id = some l → l.Full

/-- A change that advances another window keeps what is known of this one. -/
theorem Change.fullWindow (h : Change env req tx db db') (hreq : req.advances id = false)
    (hw : FullWindow env id db) : FullWindow env id db' where
  booking := h.booking hw.booking
  books := h.routeLeaseBooks hw.booking hw.books
  full l hl := by
    rcases h.routeLease_row hl with hold | hwritten
    · exact hw.full l hold
    · exact hwritten.full hreq fun row hrow => ⟨(hw.books.accounted id row hrow).sound,
        hw.full row hrow⟩

/-- A running window stays full under a request that advances it in time.

**Proof sketch.** A sample is in time and finds every member ready, by the condition of the step; a
request that does not sample leaves the members' time. A window is completed only past its end,
where its last sample is its end. -/
theorem running_full (hs : l.Sound) (hfull : l.Full) (hreq : i.2.advances id = true)
    (hready : ReadySample env id i db) (hl : db.routeLeases.find? id = some l)
    (hrunning : l.state.running = true) :
    ∀ l', ((controlSystem env).step i db).routeLeases.find? id = some l' → l'.Full := by
  intro l' hl'
  have haccepted : l.state ≠ .offered := fun hoffered => by rw [hoffered] at hrunning; cases hrunning
  obtain ⟨l₁, hl₁, honward⟩ := step_running env i hl hrunning
  obtain rfl : l' = l₁ := Option.some.inj (hl'.symm.trans hl₁)
  obtain ⟨previous, started, ends, hprev, ht⟩ := hs.timed hrunning
  have hlast := ht.last
  -- a window that was completed is past its end
  have hpast : l'.state = .completed → ends ≤ i.1.clock 0 := by
    intro hcompleted
    rcases honward.state with hstill | ⟨-, -, ends', hends', hle⟩
    · rw [hcompleted] at hstill
      cases hstill
    · rw [ht.endsMs, Option.some.injEq] at hends'
      omega
  rcases step_routeLeases i db with ⟨db', hcommit, hperform, hrows⟩ | ⟨-, hrows⟩
  · rw [hrows] at hl'
    have hadvanced : ∀ P, Advanced i.1 db db' id P l := fun P =>
      perform_advanced hreq hl haccepted hperform
    by_cases hforward : previous ≤ i.1.clock 0
    · have hsamplable : l.samplable (i.1.clock 0) := ⟨hrunning, previous, hprev, hforward⟩
      have hsampled : (l, previous) ∈ sampledWindow env id i db := by
        unfold sampledWindow
        rw [hcommit, hl]
        simp [hreq, hrunning, hprev, hforward]
      obtain ⟨hcontiguous, hmembers⟩ := hready _ hsampled
      have hsamples : ∀ P, ∃ previous ends sampled,
          l.Samples db (i.1.clock 0) previous ends P sampled ∧ sampled.Follows P l' := by
        intro P
        obtain ⟨previous, ends, sampled, l₂, hsamples, hl₂, hfollows⟩ :=
          (hadvanced P).sample hsamplable
        obtain rfl : l' = l₂ := Option.some.inj (hl'.symm.trans hl₂)
        exact ⟨previous, ends, sampled, hsamples, hfollows⟩
      refine hfull.samples hprev ht.startedMs hsamples hcontiguous hmembers honward.startedMs
        fun hcompleted => ?_
      obtain ⟨previous', ends', sampled, hsample, hfollows⟩ := hsamples l.sponsorId
      have hends' : ends = ends' := by
        rw [← Option.some.injEq, ← ht.endsMs, hsample.finish]
      have hprev' : previous = previous' := by
        rw [← Option.some.injEq, ← hprev, hsample.before]
      have hend := hpast hcompleted
      refine ⟨ends, ?_, honward.endsMs.trans ht.endsMs⟩
      rw [hfollows.sample, hsample.sample, Option.some.injEq]
      omega
    · have hblind : ¬ l.samplable (i.1.clock 0) := by
        rintro ⟨-, previous', hprev', hle⟩
        rw [Option.mem_def, hprev, Option.some.injEq] at hprev'
        omega
      have hfollows : ∀ P, l.Follows P l' := by
        intro P
        obtain ⟨l₂, hl₂, hfollows⟩ := (hadvanced P).blind hblind
        exact Option.some.inj (hl'.symm.trans hl₂) ▸ hfollows
      refine hfull.follows hfollows honward.startedMs fun hcompleted => ?_
      have hend := hpast hcompleted
      omega
  · rw [hrows, hl, Option.some.injEq] at hl'
    exact hl' ▸ hfull

/-- **A step whose sample is in time** keeps a window full.

**Proof sketch.** A request that does not advance the window keeps what is known of it. One that
does finds no window, or one that has ended and stays, or one that is offered and has no sample yet,
or one that runs (`running_full`). -/
theorem step_full (hw : FullWindow env id db) (hready : ReadySample env id i db) :
    FullWindow env id ((controlSystem env).step i db) := by
  cases hreq : i.2.advances id with
  | false => exact (step_changes i db).preserves (fun _ _ hc => hc.fullWindow hreq) hw
  | true =>
    have hbooks : Booking ((controlSystem env).step i db) ∧
        RouteLeaseBooks env ((controlSystem env).step i db) :=
      (step_changes i db).preserves (P := fun db => Booking db ∧ RouteLeaseBooks env db)
        (fun _ _ hc ⟨hb, hp⟩ => ⟨hc.booking hb, hc.routeLeaseBooks hb hp⟩) ⟨hw.booking, hw.books⟩
    refine ⟨hbooks.1, hbooks.2, fun l' hl' => ?_⟩
    cases hl : db.routeLeases.find? id with
    | none =>
      -- there is no window to advance
      rcases step_routeLeases i db with ⟨db', -, hperform, hrows⟩ | ⟨-, hrows⟩
      · rw [hrows] at hl'
        rcases advances_cases hreq hperform with h | ⟨user, -, h⟩
        · unfold reconcileRoute at h
          simp only [hl, Checked.pure_ok] at h
          rw [← h, hl] at hl'
          cases hl'
        · unfold cancelRoute at h
          simp only [Checked.bind_ok, needRow_ok] at h
          obtain ⟨row, hrow, -⟩ := h
          rw [hl] at hrow
          cases hrow
      · rw [hrows, hl] at hl'
        cases hl'
    | some l =>
      have hfull := hw.full l hl
      have hs := (hw.books.accounted id l hl).sound
      cases hfunded : l.state.funded with
      | false =>
        rw [step_ended hl hfunded, Option.some.injEq] at hl'
        exact hl' ▸ hfull
      | true =>
        by_cases hstate : l.state = .offered
        · rcases step_routeLeases i db with ⟨db', -, hperform, hrows⟩ | ⟨-, hrows⟩
          · obtain ⟨l₁, hl₁, hsample, hidle⟩ := perform_offered hreq hl hstate hperform
            rw [hrows, hl₁, Option.some.injEq] at hl'
            exact hl' ▸ .of_unsampled (hsample.trans (hs.offered hstate)) hidle
          · rw [hrows, hl, Option.some.injEq] at hl'
            exact hl' ▸ hfull
        · rw [RouteLeaseState.funded_eq_running hstate] at hfunded
          exact running_full hs hfull hreq hready hl hfunded l' hl'

/-- **A run whose samples are in time** keeps a window full. -/
theorem run_full {is : List (Tx × Request)} (hw : FullWindow env id db)
    (hready : ReadyRun env id db is) : FullWindow env id ((controlSystem env).run db is) := by
  induction is generalizing db with
  | nil => exact hw
  | cons i is ih => exact ih (step_full hw hready.1) hready.2

/-- **A full window that was completed** has credited all of its length to every member, and has
paid its whole budget. -/
theorem RouteLease.Full.whole (h : l.Full) (hs : l.Sound) (hstate : l.state = .completed) :
    (∀ p ∈ l.members, p.credited = l.windowMs ∧ p.paid = p.maximum) ∧ l.paid = l.budget := by
  obtain ⟨sample, hsample, hends⟩ := h.completed hstate
  obtain ⟨started, ends, ht⟩ := hs.sampled sample hsample
  have hend : sample = ends := by
    rw [← Option.some.injEq, ← hends, ht.endsMs]
  have hlength := ht.length
  have hmembers : ∀ p ∈ l.members, p.credited = l.windowMs ∧ p.paid = p.maximum := by
    intro p hp
    have hcredited : p.credited = l.windowMs := by
      rw [(h.credited sample started hsample ht.startedMs p hp).1]
      omega
    refine ⟨hcredited, ?_⟩
    rw [hs.projected p hp, hcredited]
    exact Int.mul_ediv_cancel_left _ hs.windowMs_pos.ne'
  refine ⟨hmembers, ?_⟩
  rw [hs.paid, ← hs.budget]
  exact congrArg List.sum (List.map_congr_left fun p hp => (hmembers p hp).2)

/-! ### The accounts along every run -/

/-- The keys of the next payments and of the refund of a window are free. -/
theorem RouteLease.Accounted.free_keys (h : l.Accounted env db.books id) (hb : Booking db)
    (hl : db.routeLeases.find? id = some l) :
    (∀ paid, l.paid < paid → db.books.findKey (.routePay id paid) = none) ∧
      (l.state.funded = true → db.books.findKey (.routeRefund id) = none) := by
  refine ⟨fun paid hmore => hb.fresh fun ⟨row, hrow, hle⟩ => ?_,
    fun hfunded => hb.fresh fun ⟨row, hrow, hended⟩ => ?_⟩
  · rw [hl, Option.some.injEq] at hrow
    rw [← hrow, ← h.sound.paid] at hle
    omega
  · rw [hl, Option.some.injEq] at hrow
    rw [← hrow, hfunded] at hended
    cases hended

/-- **The accounts of the windows of routes.** In every reachable database, a window agrees with
its members, with its escrow and with the entries that funded and refunded it; the keys of its next
payments and of its refund are free; no advance of it stops with `lease_projection`; and while it
runs, it ends only as completed, not before its end. A window whose samples, along a run, are never
more than six seconds apart and find every member ready in the epoch of the last one has paid its
whole budget when it is completed.

**Proof sketch.** The first part is read off the books of the windows, which every change keeps, and
the second follows along the run (`run_full`): a full window that is completed has credited every
member its whole length. -/
theorem route_lease_accounting (env : Env) (id : LeaseId) :
    (∀ db, Machine.Reachable (controlSystem env) db → ∀ l, db.routeLeases.find? id = some l →
      l.Accounted env db.books id ∧ (∀ p ∈ l.members, 0 ≤ p.paid ∧ p.paid ≤ p.maximum) ∧
      ((∀ paid, l.paid < paid → db.books.findKey (.routePay id paid) = none) ∧
        (l.state.funded = true → db.books.findKey (.routeRefund id) = none)) ∧
      (∀ tx, Projects (reconcileRoute env tx db id) ∧
        ∀ user, Projects (cancelRoute env tx db user id)) ∧
      ∀ i : Tx × Request, l.state.running = true →
        ∃ l', ((controlSystem env).step i db).routeLeases.find? id = some l' ∧
          (l'.state.running = true ∨ (l'.state = .completed ∧
            ∃ ends, l.endsMs = some ends ∧ ends ≤ i.1.clock 0))) ∧
    ∀ admin is, ReadyRun env id (Db.initial admin) is → ∀ l,
      ((controlSystem env).run (Db.initial admin) is).routeLeases.find? id = some l →
      l.state = .completed →
        (∀ p ∈ l.members, p.credited = l.windowMs ∧ p.paid = p.maximum) ∧ l.paid = l.budget := by
  refine ⟨fun db hr l hl => ?_, fun admin is hready l hl hcompleted => ?_⟩
  · have hbooks := reachable_routeLeaseBooks hr
    have hacc := hbooks.accounted id l hl
    have hsound : ∀ row, db.routeLeases.find? id = some row → row.Sound :=
      fun row hrow => (hbooks.accounted id row hrow).sound
    refine ⟨hacc, fun p hp => hacc.sound.paid_le hp, hacc.free_keys (reachable_booking hr) hl,
      fun tx => ⟨reconcileRoute_projects hsound, fun user => cancelRoute_projects hsound⟩,
      fun i hrunning => ?_⟩
    obtain ⟨l', hl', honward⟩ := step_running env i hl hrunning
    exact ⟨l', hl', honward.state.imp_right fun ⟨hstate, _, hends⟩ => ⟨hstate, hends⟩⟩
  · have hw : FullWindow env id (Db.initial admin) :=
      ⟨initial_booking admin, initial_routeLeaseBooks env admin, fun l hl => by cases hl⟩
    have hrun := run_full hw hready
    exact (hrun.full l hl).whole (hrun.books.accounted id l hl).sound hcompleted

/-- The window of the laboratory is sampled every six seconds, until its end. -/
def labFullWindow : List (Tx × Request) :=
  (List.range 10).flatMap fun k => labBeats (100 + 5 * k) (6000 * (k + 1)) ++
    [(labTx (104 + 5 * k) (6000 * (k + 1)), .background (.reconcileRoute 36006))]

/-- The laboratory's window runs with its escrow, and is paid in full when it is sampled in time. -/
theorem route_lease_accounting_lab :
    (∃ l, (labDb (labSetup ++ labPlan ++ labWork)).routeLeases.find? 36006 = some l ∧
      l.state = .active ∧
      (labDb (labSetup ++ labPlan ++ labWork)).books.balance (.routeEscrow 36006) = l.remaining) ∧
    ∃ l, (labDb (labSetup ++ labPlan ++ labFullWindow)).routeLeases.find? 36006 = some l ∧
      0 < l.budget ∧ l.paid = l.budget := by
  have hactive : ∃ l, (labDb (labSetup ++ labPlan ++ labWork)).routeLeases.find? 36006 = some l ∧
      l.state = .active := by decide +kernel
  have hcompleted : ∃ l, (labDb (labSetup ++ labPlan ++ labFullWindow)).routeLeases.find? 36006 =
      some l ∧ l.state = .completed ∧ 0 < l.budget := by decide +kernel
  have hready : ReadyRun labEnv 36006 (Db.initial 0) (labSetup ++ labPlan ++ labFullWindow) := by
    decide +kernel
  have haccounting := route_lease_accounting labEnv 36006
  refine ⟨?_, ?_⟩
  · obtain ⟨l, hl, hstate⟩ := hactive
    obtain ⟨hacc, -⟩ := haccounting.1 _ (reachable_lab _) l hl
    exact ⟨l, hl, hstate, hacc.escrow (by rw [hstate]; rfl)⟩
  · obtain ⟨l, hl, hstate, hbudget⟩ := hcompleted
    exact ⟨l, hl, hbudget, (haccounting.2 0 _ hready l hl hstate).2⟩

end NetworkAi
