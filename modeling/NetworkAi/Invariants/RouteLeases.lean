import NetworkAi.Control.LeaseSteps
import NetworkAi.Invariants.Books

set_option relaxedAutoImplicit false
set_option autoImplicit false

/-!
# The members of a window

A sample observes every member of a window and credits the time since the last sample to each of
them on its own; what a member has been paid is the rounded part of its maximum that the credited
time has earned. No other operation changes what a member has earned.

## Main definitions

* `NetworkAi.LeaseMember.credit` — a member after a sample.
* `NetworkAi.Credits` — a sample of one member, as it was observed.
* `NetworkAi.RouteLease.Projected` — what every member has been paid follows from its credited time.

## Main results

* `NetworkAi.RouteLease.Written.projected` — the window that a change writes is projected.
* `NetworkAi.reachable_projected` — every window of a reachable database is projected.
-/

namespace NetworkAi

open Relational

variable {env : Env} {req : Request} {tx t : Tx} {db db' : Db} {id : LeaseId} {l l' : RouteLease}

/-! ### Samples of members -/

/-- The length of a window in milliseconds. -/
def RouteLease.windowMs (l : RouteLease) : Int := l.durationSeconds * 1000

/-- A member after a sample that observed an epoch and whether its node is ready: the interval is
credited when both of its ends were ready in one epoch. -/
def LeaseMember.credit (p : LeaseMember) (windowMs elapsed : Int) (contiguous : Bool) (epoch : Nat)
    (ready : Bool) : LeaseMember :=
  let valid : Bool := contiguous ∧ p.sampleReady ∧ ready ∧ p.nodeEpoch = some epoch
  let credited := p.credited + if valid then elapsed else 0
  { p with
    credited
    paid := credited * p.maximum / windowMs
    sampleReady := ready
    nodeEpoch := some epoch }

/-- A sample of a member of a window: it was observed, and credited accordingly. -/
def Credits (db : Db) (row : RouteLease) (now elapsed : Int) (contiguous : Bool)
    (p c : LeaseMember) : Prop :=
  ∃ o, observeMember db row now p = .ok o ∧
    c = p.credit row.windowMs elapsed contiguous o.epoch o.ready

/-- An observation is about its member. -/
theorem observeMember_member {row : RouteLease} {now : Int} {p : LeaseMember} {o : ObservedMember}
    (h : observeMember db row now p = .ok o) : o.member = p := by
  unfold observeMember at h
  simp only [Checked.bind_ok, reference_ok, Checked.pure_ok] at h
  obtain ⟨n, -, u, -, m, -, rfl⟩ := h
  rfl

/-- A member that has withdrawn, from the window or from its route, is not ready. -/
theorem observeMember_withdrawn {row : RouteLease} {now : Int} {p : LeaseMember}
    {o : ObservedMember} (h : observeMember db row now p = .ok o)
    (hwithdrawn : p.withdrawnAt ≠ none ∨ ∃ a,
      db.registry.routeAcceptances.find? (row.routeId, p.providerId) = some a ∧
        a.withdrawnAt ≠ none) : o.ready = false := by
  unfold observeMember at h
  simp only [Checked.bind_ok, reference_ok, Checked.pure_ok] at h
  obtain ⟨n, -, u, -, m, -, rfl⟩ := h
  rw [decide_eq_false_iff_not]
  rintro ⟨hp, ha, -⟩
  rcases hwithdrawn with hw | ⟨a, hfound, hw⟩
  · exact hw hp
  · rw [hfound] at ha
    exact hw ha

/-- What a sample credits to a member. -/
theorem creditMember_eq {row : RouteLease} {elapsed : Int} {contiguous : Bool}
    {o : ObservedMember} {c : LeaseMember × Bool}
    (h : creditMember row elapsed contiguous o = .ok c) :
    c.1 = o.member.credit row.windowMs elapsed contiguous o.epoch o.ready := by
  unfold creditMember at h
  simp only [Checked.bind_ok, need_ok, Checked.pure_ok, exists_const] at h
  obtain ⟨-, rfl⟩ := h
  rfl

/-- **The members after a sample** are the members before it, each credited as it was observed. -/
theorem credits_forall₂ {row : RouteLease} {now elapsed : Int} {contiguous : Bool}
    {observation : Observation} {credits : List (LeaseMember × Bool)}
    (hobs : observeRoute db row now = .ok observation)
    (hcredits : observation.members.mapM (creditMember row elapsed contiguous) = .ok credits) :
    List.Forall₂ (Credits db row now elapsed contiguous) row.members (credits.map Prod.fst) := by
  unfold observeRoute at hobs
  simp only [Checked.bind_ok, Checked.pure_ok] at hobs
  obtain ⟨members, hmembers, rfl⟩ := hobs
  rw [Checked.mapM_ok] at hmembers hcredits
  dsimp only at hcredits
  generalize row.members = ps at hmembers
  induction hmembers generalizing credits with
  | nil =>
    cases hcredits
    exact .nil
  | cons ho _ ih =>
    cases hcredits with
    | cons hc hrest =>
      refine .cons ⟨_, ho, ?_⟩ (ih hrest)
      rw [creditMember_eq hc, observeMember_member ho]

/-! ### Projections -/

/-- What every member has been paid is the rounded part of its maximum that its credited time has
earned. -/
def RouteLease.Projected (l : RouteLease) : Prop :=
  ∀ p ∈ l.members, p.paid = p.credited * p.maximum / l.windowMs

/-- Members that have earned the same are projected alike. -/
theorem RouteLease.Projected.of_map (h : l.Projected) (hduration : l'.durationSeconds =
      l.durationSeconds)
    (hmembers : l'.members.map (fun p => (p.credited, p.maximum, p.paid)) =
      l.members.map fun p => (p.credited, p.maximum, p.paid)) : l'.Projected := by
  intro p hp
  have hmem : (p.credited, p.maximum, p.paid) ∈
      l.members.map fun p => (p.credited, p.maximum, p.paid) :=
    hmembers ▸ List.mem_map_of_mem hp
  obtain ⟨q, hq, heq⟩ := List.mem_map.1 hmem
  simp only [Prod.mk.injEq] at heq
  obtain ⟨hcredited, hmaximum, hpaid⟩ := heq
  rw [← hcredited, ← hmaximum, ← hpaid, RouteLease.windowMs, hduration]
  exact h q hq

/-- **The window that a change writes** is projected. -/
theorem RouteLease.Written.projected (h : RouteLease.Written env req tx db db' id l)
    (hold : ∀ row, db.routeLeases.find? id = some row → row.Projected) : l.Projected := by
  cases h with
  | @offered t d route terms h hid =>
    intro p hp
    obtain ⟨m, -, rfl⟩ := List.mem_map.1 hp
    simp [newLeaseMember]
  | accepted hrow => exact (hold _ hrow).of_map rfl rfl
  | @activated row acceptances observation now hrow hstate hobs =>
    refine (hold _ hrow).of_map rfl ?_
    have hmembers := observeRoute_members hobs
    dsimp only at hmembers
    rw [← hmembers]
    simp only [RouteLease.activated, List.map_map]
    rfl
  | @sampled row sampled now previous ends observation credits hrow _ _ _ _ hobs hcredits
      hsampled =>
    rw [hsampled]
    intro c hc
    obtain ⟨p, -, o, -, rfl⟩ := Checked.forall₂_right (credits_forall₂ hobs hcredits) hc
    rfl
  | drained hrow =>
    refine (hold _ hrow).of_map rfl ?_
    simp only [RouteLease.drained, List.map_map]
    refine List.map_congr_left fun p _ => ?_
    simp only [Function.comp_apply]
    split <;> rfl
  | closed hrow => exact (hold _ hrow).of_map rfl rfl

/-- A change writes at most one window, and leaves all others with their escrows. -/
theorem Change.routeLease_cases (h : Change env req tx db db') :
    RouteLeasesBut db db' [] ∨ ∃ id l, db'.routeLeases.find? id = some l ∧
      RouteLease.Written env req tx db db' id l ∧ RouteLeasesBut db db' [id] := by
  rcases h.lease_cases with hbut | ⟨id, l, hl, -, hbut⟩ | ⟨id, l, hl, hwritten, hbut⟩
  · exact .inl hbut.2
  · exact .inl hbut.2
  · exact .inr ⟨id, l, hl, hwritten, hbut.2⟩

/-- A window after a change is the old one, or the one that the change wrote. -/
theorem Change.routeLease_row (h : Change env req tx db db')
    (hl : db'.routeLeases.find? id = some l) :
    db.routeLeases.find? id = some l ∨ RouteLease.Written env req tx db db' id l := by
  rcases h.routeLease_cases with hbut | ⟨id₁, l₁, hl₁, hwritten, hbut⟩
  · exact .inl (by rw [← (hbut id (by simp)).1, hl])
  · by_cases hid : id = id₁
    · subst hid
      rw [hl, Option.some.injEq] at hl₁
      exact .inr (hl₁ ▸ hwritten)
    · exact .inl (by rw [← (hbut id (by simpa using hid)).1, hl])

/-- **Every window of a reachable database is projected.** -/
theorem reachable_projected (h : Machine.Reachable (controlSystem env) db) :
    ∀ id l, db.routeLeases.find? id = some l → l.Projected :=
  reachable_of_changes (P := fun db => ∀ id l, db.routeLeases.find? id = some l → l.Projected)
    (fun _ _ _ hl => by cases hl)
    (fun _ _ _ _ hp hc id l hl => by
      rcases hc.routeLease_row hl with hold | hwritten
      · exact hp id l hold
      · exact hwritten.projected (hp id)) h

end NetworkAi
