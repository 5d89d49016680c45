import NetworkAi.Invariants.RouteLeases
import NetworkAi.Lib.Unwinding

set_option relaxedAutoImplicit false
set_option autoImplicit false

/-!
# Providers of one window do not interfere

What the members of one provider earn in a window depends on the samples of the window and on what
they observe of these members, and on nothing else: not on the sponsor, who may cancel, nor on other
providers, who may withdraw or fail. A provider that withdraws gives up its own further earnings.

## Main definitions

* `NetworkAi.sampleOf` — the sample that a request makes of a window, as one provider sees it.
* `NetworkAi.RouteLease.earned` — what the members of a provider have earned.
* `NetworkAi.RouteLease.Follows` — a window that was not sampled, seen by one provider.
* `NetworkAi.RouteLease.Agrees` — two windows that agree on one provider.

## Main results

* `NetworkAi.blind_step`, `NetworkAi.sample_step` — what a step does to a window, seen by a provider.
* `NetworkAi.provider_unwinding` — agreement on a provider is an unwinding relation.
* `NetworkAi.provider_noninterference` — the two-run theorem, and the earnings after a withdrawal.
-/

namespace NetworkAi

open Relational

variable {env : Env} {req : Request} {tx t : Tx} {db db' : Db} {id : LeaseId} {P : UserId}
  {l l' row : RouteLease}

/-! ### What concerns a provider -/

/-- The members of a window that belong to a provider. -/
def RouteLease.membersOf (l : RouteLease) (P : UserId) : List LeaseMember :=
  l.members.filter fun p => p.providerId = P

/-- What the members of a provider have earned: credited time and payment. -/
def RouteLease.earned (l : RouteLease) (P : UserId) : List (NodeId × Int × Int) :=
  (l.membersOf P).map fun p => (p.nodeId, p.credited, p.paid)

/-- What a sample observes of a member: the epoch of its node, and whether it is ready. -/
def observed (db : Db) (row : RouteLease) (now : Int) (p : LeaseMember) :
    Option (NodeId × Nat × Bool) :=
  match observeMember db row now p with
  | .ok o => some (p.nodeId, o.epoch, o.ready)
  | .error _ => none

/-- **The sample that a request makes of a window**, if it commits and makes one: its instant, and
what it observes of the members of a provider. -/
def sampleOf (env : Env) (id : LeaseId) (P : UserId) (i : Tx × Request) (db : Db) :
    Option (Int × List (NodeId × Nat × Bool)) :=
  match transaction env i.1 db i.2, db.routeLeases.find? id with
  | .ok _, some row =>
    if i.2.advances id = true ∧ row.state.running = true ∧
        ∃ previous ∈ row.sampleMs, previous ≤ i.1.clock 0 then
      some (i.1.clock 0, (row.membersOf P).filterMap (observed db row (i.1.clock 0)))
    else none
  | _, _ => none

/-- The samples of a window along a run, as a provider sees them. -/
def samples (env : Env) (id : LeaseId) (P : UserId) (db : Db) (is : List (Tx × Request)) :
    List (Int × List (NodeId × Nat × Bool)) :=
  (controlSystem env).seen (sampleOf env id P) db is

/-- What the members of a provider have earned after each sample of a run. -/
def earnings (env : Env) (id : LeaseId) (P : UserId) (db : Db) (is : List (Tx × Request)) :
    List (Option (List (NodeId × Int × Int))) :=
  (controlSystem env).shown (sampleOf env id P)
    (fun db => (db.routeLeases.find? id).map (·.earned P)) db is

/-! ### Between samples -/

/-- A member after anything but a sample: it is the same, or it has withdrawn. -/
def LeaseMember.Leaves (p p' : LeaseMember) : Prop :=
  p' = p ∨ ∃ at', p' = { p with withdrawnAt := some at', sampleReady := false }

/-- What a member becomes between samples, twice. -/
theorem LeaseMember.Leaves.trans {p q r : LeaseMember} (hpq : p.Leaves q) (hqr : q.Leaves r) :
    p.Leaves r := by
  rcases hqr with rfl | ⟨at', rfl⟩
  · exact hpq
  · rcases hpq with rfl | ⟨_, rfl⟩
    · exact .inr ⟨at', rfl⟩
    · exact .inr ⟨at', rfl⟩

/-- **A window that was not sampled**, seen by a provider: its samples and its length are the same,
and the members of the provider at most have withdrawn. -/
structure RouteLease.Follows (P : UserId) (l l' : RouteLease) : Prop where
  accepted : l'.state ≠ .offered
  duration : l'.durationSeconds = l.durationSeconds
  sample : l'.sampleMs = l.sampleMs
  ends : l'.endsMs = l.endsMs
  route : l'.routeId = l.routeId
  members : List.Forall₂ LeaseMember.Leaves (l.membersOf P) (l'.membersOf P)

/-- Members that were left as they are. -/
theorem forall₂_leaves_refl (ps : List LeaseMember) : List.Forall₂ LeaseMember.Leaves ps ps :=
  List.forall₂_same.2 fun _ _ => .inl rfl

/-- What members become between samples, twice. -/
theorem forall₂_leaves_trans {ps qs rs : List LeaseMember}
    (hpq : List.Forall₂ LeaseMember.Leaves ps qs) (hqr : List.Forall₂ LeaseMember.Leaves qs rs) :
    List.Forall₂ LeaseMember.Leaves ps rs := by
  induction hpq generalizing rs with
  | nil =>
    cases hqr
    exact .nil
  | cons hp _ ih =>
    cases hqr with
    | cons hq hrest => exact .cons (hp.trans hq) (ih hrest)

/-- An accepted window that was left as it is follows itself. -/
theorem RouteLease.Follows.refl (h : l.state ≠ .offered) : l.Follows P l :=
  ⟨h, rfl, rfl, rfl, rfl, forall₂_leaves_refl _⟩

/-- Windows that follow one after the other. -/
theorem RouteLease.Follows.trans {l₁ l₂ l₃ : RouteLease} (h₁₂ : l₁.Follows P l₂)
    (h₂₃ : l₂.Follows P l₃) : l₁.Follows P l₃ where
  accepted := h₂₃.accepted
  duration := h₂₃.duration.trans h₁₂.duration
  sample := h₂₃.sample.trans h₁₂.sample
  ends := h₂₃.ends.trans h₁₂.ends
  route := h₂₃.route.trans h₁₂.route
  members := forall₂_leaves_trans h₁₂.members h₂₃.members

/-- Operations on members that keep their provider respect the members of a provider. -/
theorem forall₂_membersOf {R : LeaseMember → LeaseMember → Prop} {ps qs : List LeaseMember}
    (hprovider : ∀ p q, R p q → q.providerId = p.providerId) (h : List.Forall₂ R ps qs) :
    List.Forall₂ R (ps.filter fun p => p.providerId = P) (qs.filter fun p => p.providerId = P) := by
  refine List.rel_filter (fun p q hR => ?_) h
  simp [hprovider p q hR]

/-- A window that drains, seen by a provider. -/
theorem RouteLease.drained_follows (t : Tx) (user : UserId) : l.Follows P (l.drained t user) where
  accepted h := by cases h
  duration := rfl
  sample := rfl
  ends := rfl
  route := rfl
  members := by
    refine forall₂_membersOf (R := LeaseMember.Leaves) (fun p q hR => ?_) ?_
    · rcases hR with rfl | ⟨_, rfl⟩ <;> rfl
    · rw [RouteLease.drained, List.forall₂_map_right_iff, List.forall₂_same]
      intro p _
      split
      · exact .inr ⟨_, rfl⟩
      · exact .inl rfl

/-- A window that ends, seen by a provider. -/
theorem RouteLease.closed_follows {state : RouteLeaseState} (h : state ≠ .offered) (t : Tx) :
    l.Follows P (l.closed t state) :=
  ⟨h, rfl, rfl, rfl, rfl, forall₂_leaves_refl _⟩

/-- **A change by any other request** does not sample a window that was accepted. -/
theorem Change.follows (h : Change env req tx db db') (hreq : req.advances id = false)
    (hl : db.routeLeases.find? id = some l) (haccepted : l.state ≠ .offered) :
    ∃ l', db'.routeLeases.find? id = some l' ∧ l.Follows P l' := by
  rcases h.routeLease_cases with hbut | ⟨id₁, l₁, hl₁, hwritten, hbut⟩
  · exact ⟨l, by rw [(hbut id (by simp)).1, hl], .refl haccepted⟩
  by_cases hid : id = id₁
  · subst hid
    refine ⟨l₁, hl₁, ?_⟩
    cases hwritten with
    | @offered t d route terms hoffer hid =>
      have hnone := hoffer.id
      rw [hid, hl] at hnone
      cases hnone
    | accepted hrow hstate | activated hrow hstate =>
      rw [hl, Option.some.injEq] at hrow
      exact absurd (hrow ▸ hstate) haccepted
    | sampled _ _ _ _ _ _ _ _ _ hadvances | drained _ _ _ hadvances =>
      rw [hreq] at hadvances
      cases hadvances
    | @closed t row state paid hrow hend =>
      rw [hl, Option.some.injEq] at hrow
      subst hrow
      refine RouteLease.closed_follows ?_ t
      rcases hend with ⟨-, -, rfl | ⟨rfl, -⟩⟩ | ⟨-, -, rfl, -⟩ <;> exact RouteLeaseState.noConfusion
  · exact ⟨l, by rw [(hbut id (by simpa using hid)).1, hl], .refl haccepted⟩

/-- A step by any other request. -/
theorem step_follows {i : Tx × Request} (hreq : i.2.advances id = false)
    (hl : db.routeLeases.find? id = some l) (haccepted : l.state ≠ .offered) :
    ∃ l', ((controlSystem env).step i db).routeLeases.find? id = some l' ∧ l.Follows P l' :=
  (step_changes i db).preserves
    (P := fun db' => ∃ l', db'.routeLeases.find? id = some l' ∧ l.Follows P l')
    (fun _ _ hc ⟨_, hl₁, hfollows⟩ => by
      obtain ⟨l₂, hl₂, hnext⟩ := hc.follows (P := P) hreq hl₁ hfollows.accepted
      exact ⟨l₂, hl₂, hfollows.trans hnext⟩)
    ⟨l, hl, .refl haccepted⟩

/-! ### Samples -/

/-- **A window that was sampled**, seen by a provider. -/
structure RouteLease.Samples (db : Db) (now previous ends : Int) (P : UserId)
    (l l' : RouteLease) : Prop where
  accepted : l'.state ≠ .offered
  duration : l'.durationSeconds = l.durationSeconds
  endsMs : l'.endsMs = l.endsMs
  route : l'.routeId = l.routeId
  before : l.sampleMs = some previous
  finish : l.endsMs = some ends
  sample : l'.sampleMs = some (max previous (min now ends))
  members : List.Forall₂ (Credits db l now (max previous (min now ends) - previous)
    (now - previous ≤ 6000)) (l.membersOf P) (l'.membersOf P)

/-- The window after its end. -/
theorem closeRoute_row {state : RouteLeaseState} {paid : Int}
    (hrow : db.routeLeases.find? id = some row)
    (h : closeRoute env t db id row state paid = .ok db') :
    db'.routeLeases.find? id = some (row.closed t state) := by
  unfold closeRoute at h
  simp only [Checked.ite_bind, Checked.bind_ok, Prod.exists] at h
  obtain ⟨j, db₁, hpost, hupdate⟩ := h
  obtain ⟨books, -, rfl⟩ := Db.postIf_ok hpost
  obtain ⟨-, claims, rfl, -⟩ := Db.updateRouteLease_ok hupdate
  exact Table.find?_set_self hrow

/-- The window after a sample, and after its end if the sample ended it. -/
theorem sampleRoute_row {now previous ends : Int} (hrow : db.routeLeases.find? id = some row)
    (hstate : row.state.running = true) (hprev : row.sampleMs = some previous)
    (hends : row.endsMs = some ends)
    (h : sampleRoute env t db id row now previous ends = .ok db') :
    ∃ sampled l', row.Samples db now previous ends P sampled ∧
      db'.routeLeases.find? id = some l' ∧ sampled.Follows P l' := by
  unfold sampleRoute at h
  simp only [Checked.ite_bind, Checked.bind_ok, Prod.exists] at h
  obtain ⟨observation, hobs, credits, hcredits, j, db₁, hpost, db₂, hupdate, h⟩ := h
  obtain ⟨books, -, rfl⟩ := Db.postIf_ok hpost
  obtain ⟨-, claims, rfl, -⟩ := Db.updateRouteLease_ok hupdate
  have hrunning := RouteLease.sampled_running hstate observation.joint
    (decide (now - previous ≤ 6000)) (max previous (min now ends) - previous)
    (max previous (min now ends)) credits
  have hsamples : row.Samples db now previous ends P (row.sampled observation.joint
      (decide (now - previous ≤ 6000)) (max previous (min now ends) - previous)
      (max previous (min now ends)) credits) := by
    refine ⟨fun hoffered => ?_, rfl, rfl, rfl, hprev, hends, rfl, ?_⟩
    · rw [hoffered] at hrunning
      cases hrunning
    · refine forall₂_membersOf (fun p c hcredit => ?_) (credits_forall₂ hobs hcredits)
      obtain ⟨o, -, rfl⟩ := hcredit
      rfl
  split at h
  · exact ⟨_, _, hsamples, closeRoute_row (Table.find?_set_self hrow) h,
      RouteLease.closed_follows RouteLeaseState.noConfusion t⟩
  · simp only [Checked.pure_ok] at h
    subst h
    exact ⟨_, _, hsamples, Table.find?_set_self hrow, .refl hsamples.accepted⟩

/-- **A running window advances**: it is sampled, unless the clock has gone back. -/
theorem advanceRoute_row (hrow : db.routeLeases.find? id = some row)
    (hstate : row.state.running = true) (h : advanceRoute env tx db id row = .ok db') :
    ∃ previous ends, row.sampleMs = some previous ∧ row.endsMs = some ends ∧
      ((tx.clock 0 < previous ∧ db' = db) ∨ (previous ≤ tx.clock 0 ∧
        ∃ sampled l', row.Samples db (tx.clock 0) previous ends P sampled ∧
          db'.routeLeases.find? id = some l' ∧ sampled.Follows P l')) := by
  unfold advanceRoute at h
  rw [if_neg (fun hoffered => by rw [hoffered] at hstate; cases hstate)] at h
  simp only [Checked.bind_ok, reference_ok] at h
  obtain ⟨previous, hprev, ends, hends, h⟩ := h
  refine ⟨previous, ends, hprev, hends, ?_⟩
  split at h
  · rename_i hback
    simp only [Checked.pure_ok] at h
    exact .inl ⟨hback, h.symm⟩
  · rename_i hforward
    exact .inr ⟨by omega, sampleRoute_row hrow hstate hprev hends h⟩

/-- The window after a request to drain it. -/
theorem drainRoute_row {user : UserId} (hrow : db.routeLeases.find? id = some row)
    (haccepted : row.state ≠ .offered) (h : drainRoute t db user id = .ok db') :
    ∃ l', db'.routeLeases.find? id = some l' ∧ row.Follows P l' ∧
      (l'.state.running = true → l' = row.drained t user) ∧
      (l'.state.running = false → l' = row) := by
  unfold drainRoute at h
  simp only [Checked.bind_ok, reference_ok] at h
  obtain ⟨row₁, hrow₁, h⟩ := h
  rw [hrow, Option.some.injEq] at hrow₁
  subst hrow₁
  split at h
  · rename_i hstate
    obtain ⟨-, rfl⟩ := Db.updateRouteLease_running h hstate rfl
    exact ⟨_, Table.find?_set_self hrow, RouteLease.drained_follows t user, fun _ => rfl,
      fun hended => by cases hended⟩
  · rename_i hstate
    simp only [Checked.pure_ok] at h
    subst h
    exact ⟨row, hrow, .refl haccepted, fun hrunning => absurd hrunning hstate, fun _ => rfl⟩

/-! ### Steps -/

/-- The condition under which a request that advances an accepted window samples it. -/
def RouteLease.samplable (l : RouteLease) (now : Int) : Prop :=
  l.state.running = true ∧ ∃ previous ∈ l.sampleMs, previous ≤ now

/-- What a request that advances a window does to it, seen by a provider. -/
structure Advanced (tx : Tx) (db db' : Db) (id : LeaseId) (P : UserId) (l : RouteLease) : Prop where
  blind : ¬ l.samplable (tx.clock 0) →
    ∃ l', db'.routeLeases.find? id = some l' ∧ l.Follows P l'
  sample : l.samplable (tx.clock 0) → ∃ previous ends sampled l',
    l.Samples db (tx.clock 0) previous ends P sampled ∧
      db'.routeLeases.find? id = some l' ∧ sampled.Follows P l'

/-- The advance of a running window. -/
theorem advanceRoute_advanced (hl : db.routeLeases.find? id = some l)
    (hstate : l.state.running = true) (h : advanceRoute env tx db id l = .ok db') :
    Advanced tx db db' id P l := by
  have haccepted : l.state ≠ .offered := fun hoffered => by rw [hoffered] at hstate; cases hstate
  obtain ⟨previous, ends, hprev, hends, ⟨hback, rfl⟩ | ⟨hforward, hsampled⟩⟩ :=
    advanceRoute_row (P := P) hl hstate h
  · refine ⟨fun _ => ⟨l, hl, .refl haccepted⟩, fun hsamplable => ?_⟩
    obtain ⟨-, previous', hprev', hle⟩ := hsamplable
    rw [Option.mem_def, hprev, Option.some.injEq] at hprev'
    omega
  · exact ⟨fun hnot => absurd ⟨hstate, previous, hprev, hforward⟩ hnot,
      fun _ => ⟨previous, ends, hsampled⟩⟩

/-- A request that advances a window is its reconciliation or its cancellation. -/
theorem advances_cases (hreq : req.advances id = true) (h : perform env tx db req = .ok db') :
    reconcileRoute env tx db id = .ok db' ∨
      ∃ user, req = .user user (.cancelRoute id) ∧ cancelRoute env tx db user id = .ok db' := by
  unfold Request.advances at hreq
  split at hreq
  · rw [decide_eq_true_eq] at hreq
    subst hreq
    exact .inl h
  · rw [decide_eq_true_eq] at hreq
    subst hreq
    simp only [perform, Checked.bind_ok, need_ok, exists_const] at h
    exact .inr ⟨_, rfl, h.2⟩
  · cases hreq

/-- A window that does not run is not funded, once it was accepted. -/
theorem RouteLeaseState.funded_eq_running {state : RouteLeaseState} (h : state ≠ .offered) :
    state.funded = state.running := by
  cases state <;> first | rfl | exact absurd rfl h

/-- **The requests that advance a window** sample it under their condition, and are blind
otherwise.

**Proof sketch.** By the request. A reconciliation advances the window. A cancellation advances it
and drains it then, which is what a member becomes between samples. A window that has ended is left
alone. -/
theorem perform_advanced (hreq : req.advances id = true) (hl : db.routeLeases.find? id = some l)
    (haccepted : l.state ≠ .offered) (h : perform env tx db req = .ok db') :
    Advanced tx db db' id P l := by
  have hidle : l.state.running = false → Advanced tx db db id P l := fun hended =>
    ⟨fun _ => ⟨l, hl, .refl haccepted⟩, fun hsamplable => by
      rw [RouteLease.samplable, hended] at hsamplable
      cases hsamplable.1⟩
  rcases advances_cases hreq h with h | ⟨user, -, h⟩
  · unfold reconcileRoute at h
    simp only [hl, RouteLeaseState.funded_eq_running haccepted] at h
    split at h
    · exact advanceRoute_advanced hl ‹_› h
    · simp only [Checked.pure_ok] at h
      subst h
      exact hidle (Bool.eq_false_iff.2 ‹_›)
  · unfold cancelRoute at h
    simp only [Checked.bind_ok, needRow_ok, need_ok, exists_const] at h
    obtain ⟨row, hrow, -, h⟩ := h
    rw [hl, Option.some.injEq] at hrow
    subst hrow
    rw [if_neg haccepted] at h
    split at h
    · rename_i hstate
      simp only [Checked.bind_ok] at h
      obtain ⟨db₁, hadvance, hdrain⟩ := h
      have hadvanced := advanceRoute_advanced (P := P) hl hstate hadvance
      -- the window drains after it was sampled
      refine ⟨fun hnot => ?_, fun hsamplable => ?_⟩
      · obtain ⟨l₁, hl₁, hfollows⟩ := hadvanced.blind hnot
        obtain ⟨l₂, hl₂, hnext, -⟩ := drainRoute_row (P := P) hl₁ hfollows.accepted hdrain
        exact ⟨l₂, hl₂, hfollows.trans hnext⟩
      · obtain ⟨previous, ends, sampled, l₁, hsamples, hl₁, hfollows⟩ :=
          hadvanced.sample hsamplable
        obtain ⟨l₂, hl₂, hnext, -⟩ := drainRoute_row (P := P) hl₁ hfollows.accepted hdrain
        exact ⟨previous, ends, sampled, l₂, hsamples, hl₂, hfollows.trans hnext⟩
    · simp only [Checked.pure_ok] at h
      subst h
      exact hidle (Bool.eq_false_iff.2 ‹_›)

/-- The rows of windows after a step that commits, or that is rejected. -/
theorem step_routeLeases (i : Tx × Request) (db : Db) :
    (∃ db', transaction env i.1 db i.2 = .ok db' ∧ perform env i.1 db i.2 = .ok db' ∧
        ((controlSystem env).step i db).routeLeases = db'.routeLeases) ∨
      (∃ e, transaction env i.1 db i.2 = .error e) ∧
        ((controlSystem env).step i db).routeLeases = db.routeLeases := by
  have hstep : (controlSystem env).step i db =
    { Checked.settle (transaction env i.1 db i.2) db with xid := db.xid + 1 } := rfl
  rw [hstep]
  cases hi : transaction env i.1 db i.2 with
  | ok db' =>
    have hperform := hi
    simp only [transaction, Checked.bind_ok, Checked.pure_ok] at hperform
    obtain ⟨db₁, hperform, _, -, rfl⟩ := hperform
    exact .inl ⟨db₁, rfl, hperform, rfl⟩
  | error e => exact .inr ⟨⟨e, rfl⟩, rfl⟩

/-- **A blind step**: the window was not sampled. -/
theorem blind_step {i : Tx × Request} (hblind : sampleOf env id P i db = none)
    (hl : db.routeLeases.find? id = some l) (haccepted : l.state ≠ .offered) :
    ∃ l', ((controlSystem env).step i db).routeLeases.find? id = some l' ∧ l.Follows P l' := by
  by_cases hreq : i.2.advances id = true
  · rcases step_routeLeases i db with ⟨db', hcommit, hperform, hrows⟩ | ⟨-, hrows⟩
    · rw [hrows]
      refine (perform_advanced hreq hl haccepted hperform).blind fun hsamplable => ?_
      unfold sampleOf at hblind
      rw [hcommit, hl] at hblind
      dsimp only at hblind
      rw [if_pos ⟨hreq, hsamplable⟩] at hblind
      cases hblind
    · exact ⟨l, by rw [hrows, hl], .refl haccepted⟩
  · exact step_follows (by simpa using hreq) hl haccepted

/-- **A step that samples a window**, seen by a provider. -/
theorem sample_step {i : Tx × Request} {now : Int} {observations : List (NodeId × Nat × Bool)}
    (hsample : sampleOf env id P i db = some (now, observations))
    (hl : db.routeLeases.find? id = some l) (haccepted : l.state ≠ .offered) :
    observations = (l.membersOf P).filterMap (observed db l now) ∧
      ∃ previous ends sampled l', l.Samples db now previous ends P sampled ∧
        ((controlSystem env).step i db).routeLeases.find? id = some l' ∧
        sampled.Follows P l' := by
  rcases step_routeLeases i db with ⟨db', hcommit, hperform, hrows⟩ | ⟨⟨e, hreject⟩, -⟩
  · unfold sampleOf at hsample
    rw [hcommit, hl] at hsample
    dsimp only at hsample
    split at hsample
    · rename_i hcond
      simp only [Option.some.injEq, Prod.mk.injEq] at hsample
      obtain ⟨rfl, rfl⟩ := hsample
      refine ⟨rfl, ?_⟩
      rw [hrows]
      exact (perform_advanced hcond.1 hl haccepted hperform).sample hcond.2
    · cases hsample
  · unfold sampleOf at hsample
    rw [hreject] at hsample
    cases hsample

/-! ### Two windows that agree on a provider -/

/-- **Two members that agree**: they have earned the same, and the last sample found them alike,
unless one has withdrawn since, so that no later sample finds it ready. -/
structure LeaseMember.Agrees (p q : LeaseMember) : Prop where
  node : p.nodeId = q.nodeId
  maximum : p.maximum = q.maximum
  credited : p.credited = q.credited
  paid : p.paid = q.paid
  epoch : p.nodeEpoch = q.nodeEpoch
  ready : p.sampleReady = q.sampleReady ∨ p.withdrawnAt ≠ none ∨ q.withdrawnAt ≠ none

/-- Two members agree either way. -/
theorem LeaseMember.Agrees.symm {p q : LeaseMember} (h : p.Agrees q) : q.Agrees p :=
  ⟨h.node.symm, h.maximum.symm, h.credited.symm, h.paid.symm, h.epoch.symm,
    h.ready.elim (fun he => .inl he.symm) fun hw => .inr hw.symm⟩

/-- Leaving does not disturb agreement. -/
theorem LeaseMember.Agrees.leaves {p p' q : LeaseMember} (h : p.Agrees q) (hleaves : p.Leaves p') :
    p'.Agrees q := by
  rcases hleaves with rfl | ⟨at', rfl⟩
  · exact h
  · exact ⟨h.node, h.maximum, h.credited, h.paid, h.epoch, .inr (.inl (Option.some_ne_none _))⟩

/-- What is observed of a member that could be observed. -/
theorem observed_eq {row : RouteLease} {now : Int} {p : LeaseMember} {o : ObservedMember}
    (h : observeMember db row now p = .ok o) :
    observed db row now p = some (p.nodeId, o.epoch, o.ready) := by
  unfold observed
  rw [h]

/-- **Members that agree and are observed alike** are credited alike. -/
theorem LeaseMember.Agrees.credits {db₁ db₂ : Db} {row₁ row₂ : RouteLease} {now elapsed : Int}
    {contiguous : Bool} {p p' q q' : LeaseMember} (h : p.Agrees q)
    (hp : Credits db₁ row₁ now elapsed contiguous p p')
    (hq : Credits db₂ row₂ now elapsed contiguous q q') (hwindow : row₁.windowMs = row₂.windowMs)
    (hobserved : observed db₁ row₁ now p = observed db₂ row₂ now q) : p'.Agrees q' := by
  obtain ⟨o₁, ho₁, rfl⟩ := hp
  obtain ⟨o₂, ho₂, rfl⟩ := hq
  rw [observed_eq ho₁, observed_eq ho₂] at hobserved
  simp only [Option.some.injEq, Prod.mk.injEq] at hobserved
  obtain ⟨-, hepoch, hready⟩ := hobserved
  have hvalid : (o₁.ready = true → p.sampleReady = q.sampleReady) := by
    intro hr
    rcases h.ready with he | hw | hw
    · exact he
    · rw [observeMember_withdrawn ho₁ (.inl hw)] at hr
      cases hr
    · rw [hready, observeMember_withdrawn ho₂ (.inl hw)] at hr
      cases hr
  have hcredited : (p.credit row₁.windowMs elapsed contiguous o₁.epoch o₁.ready).credited =
      (q.credit row₂.windowMs elapsed contiguous o₂.epoch o₂.ready).credited := by
    simp only [LeaseMember.credit]
    rw [h.credited, h.epoch, hepoch, ← hready]
    cases hr : o₁.ready with
    | false => simp
    | true => rw [hvalid hr]
  refine ⟨h.node, h.maximum, hcredited, ?_, ?_, .inl hready⟩
  · show (p.credit row₁.windowMs elapsed contiguous o₁.epoch o₁.ready).credited * p.maximum /
      row₁.windowMs = (q.credit row₂.windowMs elapsed contiguous o₂.epoch o₂.ready).credited *
        q.maximum / row₂.windowMs
    rw [hcredited, h.maximum, hwindow]
  · show some o₁.epoch = some o₂.epoch
    rw [hepoch]

/-- Members that leave on one side still agree. -/
theorem forall₂_agrees_leaves {ps ps' qs : List LeaseMember}
    (h : List.Forall₂ LeaseMember.Agrees ps qs) (hleaves : List.Forall₂ LeaseMember.Leaves ps ps') :
    List.Forall₂ LeaseMember.Agrees ps' qs := by
  induction h generalizing ps' with
  | nil =>
    cases hleaves
    exact .nil
  | cons hpq _ ih =>
    cases hleaves with
    | cons hp hrest => exact .cons (hpq.leaves hp) (ih hrest)

/-- Members that agree and are observed alike are credited alike. -/
theorem forall₂_agrees_credits {db₁ db₂ : Db} {row₁ row₂ : RouteLease} {now elapsed : Int}
    {contiguous : Bool} (hwindow : row₁.windowMs = row₂.windowMs)
    {ps ps' qs qs' : List LeaseMember} (h : List.Forall₂ LeaseMember.Agrees ps qs)
    (hp : List.Forall₂ (Credits db₁ row₁ now elapsed contiguous) ps ps')
    (hq : List.Forall₂ (Credits db₂ row₂ now elapsed contiguous) qs qs')
    (hobserved : ps.filterMap (observed db₁ row₁ now) = qs.filterMap (observed db₂ row₂ now)) :
    List.Forall₂ LeaseMember.Agrees ps' qs' := by
  induction h generalizing ps' qs' with
  | nil =>
    cases hp
    cases hq
    exact .nil
  | cons hpq _ ih =>
    cases hp with
    | cons hp hps =>
      cases hq with
      | cons hq hqs =>
        obtain ⟨o₁, ho₁, -⟩ := id hp
        obtain ⟨o₂, ho₂, -⟩ := id hq
        rw [List.filterMap_cons_some (observed_eq ho₁), List.filterMap_cons_some (observed_eq ho₂),
          List.cons.injEq, ← Option.some.injEq, ← observed_eq ho₁, ← observed_eq ho₂] at hobserved
        exact .cons (hpq.credits hp hq hwindow hobserved.1) (ih hps hqs hobserved.2)

/-- **Two windows that agree on a provider**: they were accepted, they have been sampled up to the
same instant, and the members of the provider agree. -/
structure RouteLease.Agrees (P : UserId) (l m : RouteLease) : Prop where
  accepted : l.state ≠ .offered ∧ m.state ≠ .offered
  duration : l.durationSeconds = m.durationSeconds
  sample : l.sampleMs = m.sampleMs
  ends : l.endsMs = m.endsMs
  members : List.Forall₂ LeaseMember.Agrees (l.membersOf P) (m.membersOf P)

/-- An accepted window agrees with itself. -/
theorem RouteLease.Agrees.refl (h : l.state ≠ .offered) : l.Agrees P l :=
  ⟨⟨h, h⟩, rfl, rfl, rfl, List.forall₂_same.2 fun _ _ => ⟨rfl, rfl, rfl, rfl, rfl, .inl rfl⟩⟩

/-- Two windows agree either way. -/
theorem RouteLease.Agrees.symm {l m : RouteLease} (h : l.Agrees P m) : m.Agrees P l :=
  ⟨h.accepted.symm, h.duration.symm, h.sample.symm, h.ends.symm,
    (h.members.imp fun _ _ ha => ha.symm).flip⟩

/-- Windows that agree still agree when one was not sampled. -/
theorem RouteLease.Agrees.follows {m : RouteLease} (h : l.Agrees P m) (hfollows : l.Follows P l') :
    l'.Agrees P m where
  accepted := ⟨hfollows.accepted, h.accepted.2⟩
  duration := hfollows.duration.trans h.duration
  sample := hfollows.sample.trans h.sample
  ends := hfollows.ends.trans h.ends
  members := forall₂_agrees_leaves h.members hfollows.members

/-- **Windows that agree and are sampled alike** still agree. -/
theorem RouteLease.Agrees.samples {db₁ db₂ : Db} {m m' : RouteLease}
    {now previous₁ ends₁ previous₂ ends₂ : Int} (h : l.Agrees P m)
    (hl : l.Samples db₁ now previous₁ ends₁ P l') (hm : m.Samples db₂ now previous₂ ends₂ P m')
    (hobserved : (l.membersOf P).filterMap (observed db₁ l now) =
      (m.membersOf P).filterMap (observed db₂ m now)) : l'.Agrees P m' := by
  obtain rfl : previous₁ = previous₂ := by
    rw [← Option.some.injEq, ← hl.before, h.sample, hm.before]
  obtain rfl : ends₁ = ends₂ := by
    rw [← Option.some.injEq, ← hl.finish, h.ends, hm.finish]
  refine ⟨⟨hl.accepted, hm.accepted⟩, ?_, hl.sample.trans hm.sample.symm, ?_, ?_⟩
  · rw [hl.duration, hm.duration, h.duration]
  · rw [hl.endsMs, hm.endsMs, h.ends]
  · exact forall₂_agrees_credits (by rw [windowMs, windowMs, h.duration]) h.members hl.members
      hm.members hobserved

/-- Windows that agree on a provider have earned it the same. -/
theorem RouteLease.Agrees.earned {m : RouteLease} (h : l.Agrees P m) : l.earned P = m.earned P := by
  unfold RouteLease.earned
  have hmembers := h.members
  generalize l.membersOf P = ps at hmembers ⊢
  generalize m.membersOf P = qs at hmembers ⊢
  induction hmembers with
  | nil => rfl
  | cons hpq _ ih =>
    rw [List.map_cons, List.map_cons, ih, hpq.node, hpq.credited, hpq.paid]

/-- Two databases whose windows agree on a provider. -/
def WindowsAgree (id : LeaseId) (P : UserId) (db₁ db₂ : Db) : Prop :=
  ∃ l m, db₁.routeLeases.find? id = some l ∧ db₂.routeLeases.find? id = some m ∧ l.Agrees P m

/-- Two databases agree either way. -/
theorem WindowsAgree.symm {db₁ db₂ : Db} (h : WindowsAgree id P db₁ db₂) :
    WindowsAgree id P db₂ db₁ := by
  obtain ⟨l, m, hl, hm, hagrees⟩ := h
  exact ⟨m, l, hm, hl, hagrees.symm⟩

/-- A blind step on one side does not disturb agreement. -/
theorem WindowsAgree.blind {db₁ db₂ : Db} {i : Tx × Request} (h : WindowsAgree id P db₁ db₂)
    (hblind : sampleOf env id P i db₁ = none) :
    WindowsAgree id P ((controlSystem env).step i db₁) db₂ := by
  obtain ⟨l, m, hl, hm, hagrees⟩ := h
  obtain ⟨l', hl', hfollows⟩ := blind_step hblind hl hagrees.accepted.1
  exact ⟨l', m, hl', hm, hagrees.follows hfollows⟩

/-- **Agreement on a provider is an unwinding relation.** -/
theorem provider_unwinding (env : Env) (id : LeaseId) (P : UserId) :
    Machine.Unwinding (controlSystem env) (sampleOf env id P)
      (fun db => (db.routeLeases.find? id).map (·.earned P)) (WindowsAgree id P) where
  left _ _ _ hblind h := h.blind hblind
  right _ _ _ hblind h := (h.symm.blind hblind).symm
  both i j db₁ db₂ o hi hj h := by
    obtain ⟨l, m, hl, hm, hagrees⟩ := h
    obtain ⟨now, observations⟩ := o
    obtain ⟨hobs₁, _, _, sampled₁, l', hsamples₁, hl', hfollows₁⟩ :=
      sample_step hi hl hagrees.accepted.1
    obtain ⟨hobs₂, _, _, sampled₂, m', hsamples₂, hm', hfollows₂⟩ :=
      sample_step hj hm hagrees.accepted.2
    have hagrees' := hagrees.samples hsamples₁ hsamples₂ (hobs₁.symm.trans hobs₂)
    exact ⟨l', m', hl', hm', ((hagrees'.follows hfollows₁).symm.follows hfollows₂).symm⟩
  agree db₁ db₂ h := by
    obtain ⟨l, m, hl, hm, hagrees⟩ := h
    simp only [hl, hm, Option.map_some, hagrees.earned]

/-! ### After a withdrawal -/

/-- A provider has withdrawn from a window: each of its members, or its consent to the route. -/
def RouteLease.Left (db : Db) (P : UserId) (l : RouteLease) : Prop :=
  (∀ p ∈ l.membersOf P, p.withdrawnAt ≠ none) ∨
    ∃ a, db.registry.routeAcceptances.find? (l.routeId, P) = some a ∧ a.withdrawnAt ≠ none

/-- A consent that was withdrawn stays withdrawn. -/
theorem step_withdrawn {i : Tx × Request} {k : RouteId × UserId}
    (h : ∃ a, db.registry.routeAcceptances.find? k = some a ∧ a.withdrawnAt ≠ none) :
    ∃ a, ((controlSystem env).step i db).registry.routeAcceptances.find? k = some a ∧
      a.withdrawnAt ≠ none :=
  (step_changes i db).preserves
    (P := fun db => ∃ a, db.registry.routeAcceptances.find? k = some a ∧ a.withdrawnAt ≠ none)
    (fun _ _ hc ⟨_, ha, hw⟩ => by
      obtain ⟨a', ha', hsame⟩ := hc.registry.acceptances.old ha
      exact ⟨a', ha', hsame.withdrawn hw⟩) h

/-- Members that leave have earned what they had. -/
theorem earned_of_leaves {ps ps' : List LeaseMember}
    (h : List.Forall₂ LeaseMember.Leaves ps ps') :
    (ps'.map fun p => (p.nodeId, p.credited, p.paid)) =
      ps.map fun p => (p.nodeId, p.credited, p.paid) := by
  induction h with
  | nil => rfl
  | cons hp _ ih =>
    rw [List.map_cons, List.map_cons, ih]
    rcases hp with rfl | ⟨_, rfl⟩ <;> rfl

/-- Members of a provider that has withdrawn earn nothing by a sample. -/
theorem earned_of_credits {now elapsed : Int} {contiguous : Bool} {ps ps' : List LeaseMember}
    (h : List.Forall₂ (Credits db row now elapsed contiguous) ps ps')
    (hprojected : ∀ p ∈ ps, p.paid = p.credited * p.maximum / row.windowMs)
    (hready : ∀ p ∈ ps, ∀ o, observeMember db row now p = .ok o → o.ready = false) :
    (ps'.map fun p => (p.nodeId, p.credited, p.paid)) =
      ps.map fun p => (p.nodeId, p.credited, p.paid) := by
  induction h with
  | nil => rfl
  | cons hp _ ih =>
    rw [List.map_cons, List.map_cons, ih (fun q hq => hprojected q (List.mem_cons_of_mem _ hq))
      fun q hq => hready q (List.mem_cons_of_mem _ hq)]
    obtain ⟨o, ho, rfl⟩ := hp
    have hidle := hready _ List.mem_cons_self o ho
    have hpaid := hprojected _ List.mem_cons_self
    simp only [LeaseMember.credit, hidle, List.cons.injEq, Prod.mk.injEq, and_true, true_and]
    simp [hpaid]

/-- A member that has withdrawn keeps its withdrawal. -/
theorem withdrawn_of_forall₂ {R : LeaseMember → LeaseMember → Prop} {ps ps' : List LeaseMember}
    (hR : ∀ p q, R p q → p.withdrawnAt ≠ none → q.withdrawnAt ≠ none)
    (h : List.Forall₂ R ps ps') (hall : ∀ p ∈ ps, p.withdrawnAt ≠ none) :
    ∀ p ∈ ps', p.withdrawnAt ≠ none := by
  intro q hq
  obtain ⟨p, hp, hpq⟩ := Checked.forall₂_right h hq
  exact hR p q hpq (hall p hp)

/-- A member that has withdrawn stays withdrawn. -/
theorem LeaseMember.Leaves.withdrawn {p q : LeaseMember} (h : p.Leaves q)
    (hw : p.withdrawnAt ≠ none) : q.withdrawnAt ≠ none := by
  rcases h with rfl | ⟨at', rfl⟩
  · exact hw
  · exact Option.some_ne_none _

/-- The members of a provider belong to it. -/
theorem provider_of_membersOf {p : LeaseMember} (hp : p ∈ l.membersOf P) : p.providerId = P := by
  have := (List.mem_filter.1 hp).2
  simpa using this

/-- **A step after a provider has withdrawn** earns it nothing. -/
theorem left_step {i : Tx × Request} (hl : db.routeLeases.find? id = some l)
    (haccepted : l.state ≠ .offered) (hprojected : l.Projected) (hleft : l.Left db P) :
    ∃ l', ((controlSystem env).step i db).routeLeases.find? id = some l' ∧
      l'.state ≠ .offered ∧ l'.Left ((controlSystem env).step i db) P ∧
      l'.earned P = l.earned P := by
  cases hsample : sampleOf env id P i db with
  | none =>
    obtain ⟨l', hl', hfollows⟩ := blind_step hsample hl haccepted
    refine ⟨l', hl', hfollows.accepted, ?_, earned_of_leaves hfollows.members⟩
    rcases hleft with hall | hroute
    · exact .inl (withdrawn_of_forall₂ (fun _ _ h => h.withdrawn) hfollows.members hall)
    · rw [RouteLease.Left, hfollows.route]
      exact .inr (step_withdrawn hroute)
  | some sample =>
    obtain ⟨now, observations⟩ := sample
    obtain ⟨-, previous, ends, sampled, l', hsamples, hl', hfollows⟩ :=
      sample_step hsample hl haccepted
    have hready : ∀ p ∈ l.membersOf P, ∀ o, observeMember db l now p = .ok o →
        o.ready = false := by
      intro p hp o ho
      refine observeMember_withdrawn ho ?_
      rw [provider_of_membersOf hp]
      exact hleft.imp_left fun hall => hall p hp
    refine ⟨l', hl', hfollows.accepted, ?_, ?_⟩
    · rcases hleft with hall | hroute
      · refine .inl (withdrawn_of_forall₂ (fun _ _ h => h.withdrawn) hfollows.members ?_)
        refine withdrawn_of_forall₂ (fun p q hcredit hw => ?_) hsamples.members hall
        obtain ⟨o, -, rfl⟩ := hcredit
        exact hw
      · rw [RouteLease.Left, hfollows.route, hsamples.route]
        exact .inr (step_withdrawn hroute)
    · calc l'.earned P = sampled.earned P := earned_of_leaves hfollows.members
        _ = l.earned P := earned_of_credits hsamples.members
          (fun p hp => hprojected p (List.mem_of_mem_filter hp)) hready

/-- What the members of a provider have earned stays what it was along every run. -/
def EarnedForever (env : Env) (db : Db) (id : LeaseId) (P : UserId) : Prop :=
  ∃ l, db.routeLeases.find? id = some l ∧ ∀ is, ∃ l',
    ((controlSystem env).run db is).routeLeases.find? id = some l' ∧ l'.earned P = l.earned P

/-- A provider that has withdrawn earns nothing any more. -/
theorem earnedForever_of_left (h : Machine.Reachable (controlSystem env) db)
    (hl : db.routeLeases.find? id = some l) (haccepted : l.state ≠ .offered)
    (hleft : l.Left db P) : EarnedForever env db id P := by
  refine ⟨l, hl, fun is => ?_⟩
  obtain ⟨l', hl', -, -, hearned⟩ := (controlSystem env).run_invariant
    (P := fun db => ∃ l', db.routeLeases.find? id = some l' ∧ l'.state ≠ .offered ∧ l'.Left db P ∧
      l'.earned P = l.earned P)
    (fun db i hr ⟨l₁, hl₁, haccepted₁, hleft₁, hearned₁⟩ => by
      obtain ⟨l₂, hl₂, haccepted₂, hleft₂, hearned₂⟩ :=
        left_step hl₁ haccepted₁ (reachable_projected hr id l₁ hl₁) hleft₁
      exact ⟨l₂, hl₂, haccepted₂, hleft₂, hearned₂.trans hearned₁⟩)
    h ⟨l, hl, haccepted, hleft, rfl⟩ is
  exact ⟨l', hl', hearned⟩

/-- A window that has ended earns nobody anything any more. -/
theorem earnedForever_of_ended (hl : db.routeLeases.find? id = some l)
    (hended : l.state.funded = false) : EarnedForever env db id P := by
  refine ⟨l, hl, fun is => ?_⟩
  have hkept : ((controlSystem env).run db is).routeLeases.find? id = some l :=
    run_of_changes (P := fun db => db.routeLeases.find? id = some l)
      (fun _ _ _ _ hl hc => by
        obtain ⟨l', hl', hkeeps⟩ := hc.routeLeases.old hl
        rw [hl', hkeeps.ended hended]) hl is
  exact ⟨l, hkept, rfl⟩

/-- The members of a provider that asked a window to drain have withdrawn. -/
theorem RouteLease.drained_withdrawn (l : RouteLease) (t : Tx) (user : UserId) :
    ∀ p ∈ (l.drained t user).membersOf user, p.withdrawnAt ≠ none := by
  intro p hp hnone
  obtain ⟨hmem, hprovider⟩ := List.mem_filter.1 hp
  rw [decide_eq_true_eq] at hprovider
  obtain ⟨q, -, rfl⟩ := List.mem_map.1 hmem
  split at hnone
  · cases hnone
  · rename_i hnot
    rw [if_neg hnot] at hprovider
    exact hnot ⟨hprovider, hnone⟩

/-- **A cancellation by a provider** ends the window, or withdraws the provider's members.

**Proof sketch.** A window that is only offered is closed. One that runs is advanced and drained,
and a drained window has withdrawn the members of the provider, unless the advance has ended it. -/
theorem cancelRoute_left {user : Actor} (h : cancelRoute env tx db user id = .ok db') :
    ∃ l, db'.routeLeases.find? id = some l ∧ (l.state.funded = false ∨
      (l.state ≠ .offered ∧ ∀ p ∈ l.membersOf user.id, p.withdrawnAt ≠ none)) := by
  unfold cancelRoute at h
  simp only [Checked.bind_ok, needRow_ok, need_ok, exists_const] at h
  obtain ⟨row, hrow, -, h⟩ := h
  split at h
  · exact ⟨_, closeRoute_row hrow h, .inl rfl⟩
  rename_i haccepted
  split at h
  · rename_i hstate
    simp only [Checked.bind_ok] at h
    obtain ⟨db₁, hadvance, hdrain⟩ := h
    obtain ⟨l₁, hl₁, haccepted₁⟩ : ∃ l₁, db₁.routeLeases.find? id = some l₁ ∧
        l₁.state ≠ .offered := by
      have hadvanced := advanceRoute_advanced (P := user.id) hrow hstate hadvance
      by_cases hsamplable : row.samplable (tx.clock 0)
      · obtain ⟨_, _, _, l₁, -, hl₁, hfollows⟩ := hadvanced.sample hsamplable
        exact ⟨l₁, hl₁, hfollows.accepted⟩
      · obtain ⟨l₁, hl₁, hfollows⟩ := hadvanced.blind hsamplable
        exact ⟨l₁, hl₁, hfollows.accepted⟩
    obtain ⟨l₂, hl₂, hfollows, hdrained, hidle⟩ := drainRoute_row (P := user.id) hl₁ haccepted₁ hdrain
    refine ⟨l₂, hl₂, ?_⟩
    cases hrunning : l₂.state.running with
    | true =>
      refine .inr ⟨hfollows.accepted, ?_⟩
      rw [hdrained hrunning]
      exact l₁.drained_withdrawn tx user.id
    | false =>
      refine .inl ?_
      rw [RouteLeaseState.funded_eq_running hfollows.accepted, hrunning]
  · rename_i hstate
    simp only [Checked.pure_ok] at h
    subst h
    refine ⟨row, hrow, .inl ?_⟩
    rw [RouteLeaseState.funded_eq_running haccepted]
    exact Bool.eq_false_iff.2 hstate

/-- A provider that withdraws from a route has withdrawn its consent. -/
theorem withdraw_left {r r' : Registry} {user : Actor} {route : RouteId}
    (h : r.withdraw tx user route = .ok r') :
    ∃ a, r'.routeAcceptances.find? (route, user.id) = some a ∧ a.withdrawnAt ≠ none := by
  unfold Registry.withdraw at h
  simp only [Checked.bind_ok, needRow_ok, Checked.pure_ok] at h
  obtain ⟨old, hold, rfl⟩ := h
  exact ⟨_, Table.find?_set_self hold, Option.some_ne_none _⟩

/-- **A provider that withdraws**, from a window that was accepted or from its route, has earned
all it will. -/
theorem withdrawal_earnedForever {role : Role} {r : UserRequest}
    (h : Machine.Reachable (controlSystem env) db) (hl : db.routeLeases.find? id = some l)
    (haccepted : l.state ≠ .offered) (hr : r = .cancelRoute id ∨ r = .withdrawRoute l.routeId)
    (hcommit : transaction env tx db (.user ⟨P, role⟩ r) = .ok db') :
    EarnedForever env ((controlSystem env).step (tx, .user ⟨P, role⟩ r) db) id P := by
  have hreach := h.step (tx, .user ⟨P, role⟩ r)
  rcases hr with rfl | rfl
  · rcases step_routeLeases (tx, .user ⟨P, role⟩ (.cancelRoute id)) db with
      ⟨db₁, -, hperform, hrows⟩ | ⟨⟨e, hreject⟩, -⟩
    · simp only [perform, Checked.bind_ok, need_ok, exists_const] at hperform
      obtain ⟨l₁, hl₁, hended | ⟨haccepted₁, hleft⟩⟩ := cancelRoute_left hperform.2
      · exact earnedForever_of_ended (by rw [hrows]; exact hl₁) hended
      · exact earnedForever_of_left hreach (by rw [hrows]; exact hl₁) haccepted₁ (.inl hleft)
    · rw [hcommit] at hreject
      cases hreject
  · obtain ⟨l₁, hl₁, hfollows⟩ : ∃ l₁, ((controlSystem env).step
        (tx, .user ⟨P, role⟩ (.withdrawRoute l.routeId)) db).routeLeases.find? id = some l₁ ∧
        l.Follows P l₁ := step_follows rfl hl haccepted
    refine earnedForever_of_left hreach hl₁ hfollows.accepted (.inr ?_)
    rw [hfollows.route]
    have hstep : ((controlSystem env).step
        (tx, .user ⟨P, role⟩ (.withdrawRoute l.routeId)) db).registry = db'.registry := by
      show (Checked.settle (transaction env tx db (.user ⟨P, role⟩ (.withdrawRoute l.routeId)))
        db).registry = db'.registry
      rw [hcommit]
      rfl
    rw [hstep]
    simp only [transaction, Checked.bind_ok, Checked.pure_ok] at hcommit
    obtain ⟨db₁, hperform, _, hjournal, rfl⟩ := hcommit
    simp only [perform, Checked.bind_ok, need_ok, exists_const, performUser, Db.withRegistry,
      Checked.pure_ok] at hperform
    obtain ⟨-, registry, hwithdraw, rfl⟩ := hperform
    exact withdraw_left hwithdraw

/-- **Noninterference of providers.** Two runs from the same accepted window that sample it at the
same instants, with the same observations of the members of a provider, earn this provider the same
at every sample; and once the provider has withdrawn, no run earns it anything more.

**Proof sketch.** Two windows agree on a provider when their members of it have earned the same.
Steps that do not sample keep this on either side, and samples with the same observations keep it on
both (`provider_unwinding`). A member that has withdrawn is observed as not ready by every later
sample, and earns nothing more. -/
theorem provider_noninterference (env : Env) (id : LeaseId) (P : UserId) :
    (∀ db₁ db₂ l is₁ is₂, db₁.routeLeases.find? id = some l → db₂.routeLeases.find? id = some l →
      l.state ≠ .offered → samples env id P db₁ is₁ = samples env id P db₂ is₂ →
      earnings env id P db₁ is₁ = earnings env id P db₂ is₂) ∧
    ∀ db l tx role r db', Machine.Reachable (controlSystem env) db →
      db.routeLeases.find? id = some l → l.state ≠ .offered →
      (r = .cancelRoute id ∨ r = .withdrawRoute l.routeId) →
      transaction env tx db (.user ⟨P, role⟩ r) = .ok db' →
      EarnedForever env ((controlSystem env).step (tx, .user ⟨P, role⟩ r) db) id P := by
  refine ⟨fun db₁ db₂ l is₁ is₂ hl₁ hl₂ haccepted hsamples => ?_,
    fun db l tx role r db' h hl haccepted hr hcommit =>
      withdrawal_earnedForever h hl haccepted hr hcommit⟩
  exact (provider_unwinding env id P).shown_eq ⟨l, l, hl₁, hl₂, .refl haccepted⟩ hsamples

/-- The consumer provides the stage of a third route, whose root is the administrator's. The
administrator funds a window of the route for sixty seconds, and both accept it. -/
def labShared : List (Tx × Request) := [
    (labTx 27 0, .background (.bootstrap 0)),
    (labTx 28 0, .user labAdmin (.grant ⟨0, 10000, 1, "g"⟩)),
    (labTx 29 0, .user labAdmin (.domain 4 0 1)),
    (labTx 30 0, .user labAdmin (.domain 5 1000 1)),
    (labTx 31 0, .user labAdmin (.invite 5 "t5" 0 4 "m" .routeRoot)),
    (labTx 32 0, .user labAdmin (.invite 6 "t6" 1000 5 "m" .rpcStage)),
    (labTx 33 0, .background (.register "t5" "k5" 1)),
    (labTx 34 0, .background (.register "t6" "k6" 1)),
    (labTx 35 0, .node 5 (.heartbeat 1 1 .ready ["b"] none)),
    (labTx 36 0, .node 6 (.heartbeat 1 1 .ready ["b"] none)),
    (labTx 37 0, .user labAdmin (.publishRoute ⟨"C", "m", 3, [⟨5, 5000⟩, ⟨6, 5000⟩]⟩)),
    (labTx 38 0, .user labAdmin (.consentRoute 37000 "5")),
    (labTx 39 0, .user labConsumer (.consentRoute 37000 "5")),
    (labTx 40 0, .user labAdmin (.qualifyRoute 37000 .localPreview)),
    (labTx 41 0, .user labAdmin (.offerRoute ⟨37000, 60, 100, .requested, "r", 1⟩)),
    (labTx 42 0, .user labAdmin (.acceptRoute 41000 "0")),
    (labTx 43 0, .user labConsumer (.acceptRoute 41000 "0"))]

/-- The window is sampled twice, with every member ready. -/
def labQuiet : List (Tx × Request) := [
    (labTx 44 5000, .node 6 (.heartbeat 1 1 .ready ["b"] none)),
    (labTx 45 5000, .node 5 (.heartbeat 1 1 .ready ["b"] none)),
    (labTx 46 5000, .background (.reconcileRoute 41000)),
    (labTx 47 10000, .node 6 (.heartbeat 1 1 .ready ["b"] none)),
    (labTx 49 10000, .background (.reconcileRoute 41000))]

/-- The administrator, who is the sponsor and the other provider, cancels at the first sample and
withdraws from the route before the second one. -/
def labNoisy : List (Tx × Request) := [
    (labTx 44 5000, .node 6 (.heartbeat 1 1 .ready ["b"] none)),
    (labTx 45 5000, .user labAdmin (.cancelRoute 41000)),
    (labTx 46 6000, .user labAdmin (.withdrawRoute 37000)),
    (labTx 47 10000, .node 6 (.heartbeat 1 1 .ready ["b"] none)),
    (labTx 48 10000, .background (.reconcileRoute 41000))]

/-- The consumer earns the same in both runs, although the other provider leaves in one of them,
and earns nothing more after a withdrawal of its own. -/
theorem provider_noninterference_lab :
    earnings labEnv 41000 1000 (labDb (labSetup ++ labShared)) labQuiet =
        [some [(6, 5000, 250)], some [(6, 10000, 500)]] ∧
      earnings labEnv 41000 1000 (labDb (labSetup ++ labShared)) labNoisy =
        earnings labEnv 41000 1000 (labDb (labSetup ++ labShared)) labQuiet ∧
      EarnedForever labEnv ((controlSystem labEnv).step
        (labTx 50 11000, .user labConsumer (.withdrawRoute 37000))
        (labDb (labSetup ++ labShared))) 41000 1000 := by
  have hfacts : ((labDb (labSetup ++ labShared)).routeLeases.find? 41000).map (fun l =>
        (l.state, l.routeId)) = some (.active, 37000) ∧
      (transaction labEnv (labTx 50 11000) (labDb (labSetup ++ labShared))
        (.user labConsumer (.withdrawRoute 37000))).toOption.isSome := by
    decide +kernel
  have hsamples : samples labEnv 41000 1000 (labDb (labSetup ++ labShared)) labNoisy =
      samples labEnv 41000 1000 (labDb (labSetup ++ labShared)) labQuiet := by
    decide +kernel
  have hearned : earnings labEnv 41000 1000 (labDb (labSetup ++ labShared)) labQuiet =
      [some [(6, 5000, 250)], some [(6, 10000, 500)]] := by
    decide +kernel
  obtain ⟨hcolumns, hcommits⟩ := hfacts
  obtain ⟨l, hl, hcolumns⟩ := Option.map_eq_some_iff.1 hcolumns
  rw [Prod.mk.injEq] at hcolumns
  obtain ⟨hstate, hroute⟩ := hcolumns
  have haccepted : l.state ≠ .offered := by
    rw [hstate]
    exact nofun
  have hnoninterference := provider_noninterference labEnv 41000 1000
  refine ⟨hearned, hnoninterference.1 _ _ l labNoisy labQuiet hl hl haccepted hsamples, ?_⟩
  obtain ⟨db', hcommit⟩ := Checked.ok_of_toOption hcommits
  exact hnoninterference.2 _ l (labTx 50 11000) .member (.withdrawRoute 37000) db'
    (reachable_lab (labSetup ++ labShared)) hl haccepted (.inr (by rw [hroute])) hcommit

end NetworkAi
