import NetworkAi.Invariants.RouteLeases

set_option relaxedAutoImplicit false
set_option autoImplicit false

/-!
# The accounts of the windows of routes

A window moves its budget into an escrow of its own; every sample pays each member what its
credited time has earned so far, less what it was paid before; the end returns the rest to the
account that funded the window. No other operation names the escrow, so that its balance is the
budget less the payments until the end, and nothing afterwards.

## Main definitions

* `NetworkAi.RouteLease.Sound` — the terms, the members and the columns of a window agree.
* `NetworkAi.RouteLease.Accounted` — they agree with its escrow, too.

## Main results

* `NetworkAi.RouteLease.Written.accounted` — the window that a change writes is accounted for.
* `NetworkAi.reachable_routeLeaseBooks` — every window of a reachable database is.
-/

namespace NetworkAi

open Relational

variable {env : Env} {req : Request} {tx t : Tx} {db db' : Db} {id : LeaseId} {l l' : RouteLease}
  {books books' : Books}

/-! ### The invariant -/

/-- What is left of the budget of a window. -/
def RouteLease.remaining (l : RouteLease) : Int := l.budget - l.paid

/-- The credited time of every member of a window that has been sampled lies between its start and
its last sample, which does not pass its end. -/
structure RouteLease.Timed (l : RouteLease) (sample started ends : Int) : Prop where
  startedMs : l.startedMs = some started
  endsMs : l.endsMs = some ends
  length : ends = started + l.windowMs
  credited : ∀ p ∈ l.members, p.credited ≤ sample - started
  last : sample ≤ ends

/-- The terms, the members and the columns of a window agree with each other. -/
structure RouteLease.Sound (l : RouteLease) : Prop where
  duration : 0 < l.durationSeconds
  budget : (l.members.map (·.maximum)).sum = l.budget
  maximum : ∀ p ∈ l.members, 0 < p.maximum
  paid : l.paid = (l.members.map (·.paid)).sum
  projected : l.Projected
  joint : 0 ≤ l.jointReadyMs ∧ ∀ p ∈ l.members, l.jointReadyMs ≤ p.credited
  offered : l.state = .offered → l.sampleMs = none
  running : l.state.running = true → l.sampleMs ≠ none
  unsampled : l.sampleMs = none → ∀ p ∈ l.members, p.credited = 0
  sampled : ∀ sample, l.sampleMs = some sample → ∃ started ends, l.Timed sample started ends

/-- **The columns of a window agree with its escrow**, with the entry that funded it and with the
entry that refunded it. -/
structure RouteLease.Accounted (env : Env) (books : Books) (id : LeaseId) (l : RouteLease) :
    Prop where
  sound : l.Sound
  funding : Entered env books (.routeFund id)
    [(fundingAccount l.sponsorId l.terms.cooperative, -l.budget), (.routeEscrow id, l.budget)]
  escrow : l.state.funded = true → books.balance (.routeEscrow id) = l.remaining
  empty : l.state.funded = false → books.balance (.routeEscrow id) = 0
  refund : l.state.funded = false → 0 < l.remaining → Entered env books (.routeRefund id)
    [(.routeEscrow id, -l.remaining),
      (fundingAccount l.sponsorId l.terms.cooperative, l.remaining)]
  whole : l.state.funded = false → l.remaining = 0 → books.findKey (.routeRefund id) = none

/-- Every window is accounted for, and an escrow without a window is empty. -/
structure RouteLeaseBooks (env : Env) (db : Db) : Prop where
  accounted : ∀ id l, db.routeLeases.find? id = some l → l.Accounted env db.books id
  absent : ∀ id, db.routeLeases.find? id = none → db.books.balance (.routeEscrow id) = 0

namespace RouteLease.Sound

/-- The length of a window is positive. -/
theorem windowMs_pos (h : l.Sound) : 0 < l.windowMs := by
  have hduration := h.duration
  unfold windowMs
  omega

/-- The credited time of a member is never longer than the window. -/
theorem credited_le (h : l.Sound) {p : LeaseMember} (hp : p ∈ l.members) :
    0 ≤ p.credited ∧ p.credited ≤ l.windowMs := by
  refine ⟨h.joint.1.trans (h.joint.2 p hp), ?_⟩
  cases hsample : l.sampleMs with
  | none =>
    rw [h.unsampled hsample p hp]
    exact h.windowMs_pos.le
  | some sample =>
    obtain ⟨started, ends, ht⟩ := h.sampled sample hsample
    have hcredited := ht.credited p hp
    have hlast := ht.last
    have hlength := ht.length
    omega

/-- A member is never paid more than its maximum. -/
theorem paid_le (h : l.Sound) {p : LeaseMember} (hp : p ∈ l.members) :
    0 ≤ p.paid ∧ p.paid ≤ p.maximum := by
  obtain ⟨hcredited, hle⟩ := h.credited_le hp
  have hmaximum := (h.maximum p hp).le
  have hwindow := h.windowMs_pos
  rw [h.projected p hp]
  refine ⟨Int.ediv_nonneg (mul_nonneg hcredited hmaximum) hwindow.le, ?_⟩
  apply Int.ediv_le_of_le_mul hwindow
  rw [mul_comm p.maximum]
  exact mul_le_mul_of_nonneg_right hle hmaximum

/-- A window never pays more than its budget. -/
theorem remaining_nonneg (h : l.Sound) : 0 ≤ l.paid ∧ 0 ≤ l.remaining := by
  have hsum : (l.members.map (·.paid)).sum ≤ (l.members.map (·.maximum)).sum :=
    List.sum_le_sum fun p hp => (h.paid_le hp).2
  refine ⟨?_, ?_⟩
  · rw [h.paid]
    apply List.sum_nonneg
    intro n hn
    obtain ⟨p, hp, rfl⟩ := List.mem_map.1 hn
    exact (h.paid_le hp).1
  · unfold remaining
    rw [← h.budget, h.paid]
    omega

/-- A window that was never sampled has paid nothing. -/
theorem paid_eq_zero (h : l.Sound) (hsample : l.sampleMs = none) : l.paid = 0 := by
  rw [h.paid]
  apply List.sum_eq_zero
  intro n hn
  obtain ⟨p, hp, rfl⟩ := List.mem_map.1 hn
  rw [h.projected p hp, h.unsampled hsample p hp, zero_mul, Int.zero_ediv]

/-- A running window has been sampled, between its start and its end. -/
theorem timed (h : l.Sound) (hstate : l.state.running = true) :
    ∃ sample started ends, l.sampleMs = some sample ∧ l.Timed sample started ends := by
  obtain ⟨sample, hsample⟩ := Option.ne_none_iff_exists'.1 (h.running hstate)
  obtain ⟨started, ends, ht⟩ := h.sampled sample hsample
  exact ⟨sample, started, ends, hsample, ht⟩

end RouteLease.Sound

/-! ### The members of a window -/

/-- What a sample credits to a member, and whether it credits the interval. -/
theorem creditMember_valid {row : RouteLease} {elapsed : Int} {contiguous : Bool}
    {o : ObservedMember} {c : LeaseMember × Bool}
    (h : creditMember row elapsed contiguous o = .ok c) :
    c.1.credited = o.member.credited + if c.2 then elapsed else 0 := by
  unfold creditMember at h
  simp only [Checked.bind_ok, need_ok, Checked.pure_ok, exists_const] at h
  obtain ⟨-, rfl⟩ := h
  rfl

/-- What a sample credits to the members of a window. -/
theorem credits_valid {row : RouteLease} {now elapsed : Int} {contiguous : Bool}
    {observation : Observation} {credits : List (LeaseMember × Bool)}
    (hobs : observeRoute db row now = .ok observation)
    (hcredits : observation.members.mapM (creditMember row elapsed contiguous) = .ok credits)
    {c : LeaseMember × Bool} (hc : c ∈ credits) :
    ∃ p ∈ row.members, c.1.credited = p.credited + if c.2 then elapsed else 0 := by
  rw [Checked.mapM_ok] at hcredits
  obtain ⟨o, ho, hcredit⟩ := Checked.forall₂_right hcredits hc
  refine ⟨o.member, ?_, creditMember_valid hcredit⟩
  rw [← observeRoute_members hobs]
  exact List.mem_map_of_mem ho

/-- A sample changes the maximum of no member. -/
theorem map_maximum_of_credits {row : RouteLease} {now elapsed : Int} {contiguous : Bool}
    {ps ps' : List LeaseMember} (h : List.Forall₂ (Credits db row now elapsed contiguous) ps ps') :
    ps'.map (·.maximum) = ps.map (·.maximum) := by
  induction h with
  | nil => rfl
  | cons hp _ ih =>
    obtain ⟨o, -, rfl⟩ := hp
    rw [List.map_cons, List.map_cons, ih]
    rfl

/-- Two windows that have earned the same under the same terms. -/
structure RouteLease.SameAccount (l l' : RouteLease) : Prop where
  duration : l'.durationSeconds = l.durationSeconds
  budget : l'.budget = l.budget
  paid : l'.paid = l.paid
  joint : l'.jointReadyMs = l.jointReadyMs
  members : l'.members.map (fun p => (p.credited, p.maximum, p.paid)) =
    l.members.map fun p => (p.credited, p.maximum, p.paid)

namespace RouteLease.SameAccount

/-- A member of a window was a member with the same account before. -/
theorem mem (h : l.SameAccount l') {p' : LeaseMember} (hp : p' ∈ l'.members) :
    ∃ p ∈ l.members, p.credited = p'.credited ∧ p.maximum = p'.maximum ∧ p.paid = p'.paid := by
  have hmem : (p'.credited, p'.maximum, p'.paid) ∈
      l.members.map fun p => (p.credited, p.maximum, p.paid) :=
    h.members ▸ List.mem_map_of_mem hp
  obtain ⟨p, hp, heq⟩ := List.mem_map.1 hmem
  simp only [Prod.mk.injEq] at heq
  exact ⟨p, hp, heq⟩

/-- What follows from the earnings of the members is the same. -/
theorem map_eq (h : l.SameAccount l') (f : Int × Int × Int → Int) :
    (l'.members.map fun p => f (p.credited, p.maximum, p.paid)) =
      l.members.map fun p => f (p.credited, p.maximum, p.paid) := by
  have hmap := congrArg (List.map f) h.members
  rwa [List.map_map, List.map_map] at hmap

/-- A window stays sound when its state changes, but not its account. -/
theorem sound (h : l.SameAccount l') (hs : l.Sound)
    (hoffered : l'.state = .offered → l'.sampleMs = none)
    (hrunning : l'.state.running = true → l'.sampleMs ≠ none)
    (hunsampled : l'.sampleMs = none → l.sampleMs = none)
    (hsampled : ∀ sample, l'.sampleMs = some sample → ∃ started ends, l'.Timed sample started ends) :
    l'.Sound where
  duration := by rw [h.duration]; exact hs.duration
  budget := by rw [h.map_eq (·.2.1), h.budget]; exact hs.budget
  maximum p' hp' := by
    obtain ⟨p, hp, -, hmaximum, -⟩ := h.mem hp'
    exact hmaximum ▸ hs.maximum p hp
  paid := by rw [h.map_eq (·.2.2), h.paid]; exact hs.paid
  projected := hs.projected.of_map h.duration h.members
  joint := by
    rw [h.joint]
    refine ⟨hs.joint.1, fun p' hp' => ?_⟩
    obtain ⟨p, hp, hcredited, -⟩ := h.mem hp'
    exact hcredited ▸ hs.joint.2 p hp
  offered := hoffered
  running := hrunning
  unsampled hnone p' hp' := by
    obtain ⟨p, hp, hcredited, -⟩ := h.mem hp'
    exact hcredited ▸ hs.unsampled (hunsampled hnone) p hp
  sampled := hsampled

/-- The times of a window whose account and whose times stay. -/
theorem timed (h : l.SameAccount l') (hs : l.Sound) (hstarted : l'.startedMs = l.startedMs)
    (hends : l'.endsMs = l.endsMs) (hsampleMs : l'.sampleMs = l.sampleMs) (sample : Int)
    (hsample : l'.sampleMs = some sample) : ∃ started ends, l'.Timed sample started ends := by
  rw [hsampleMs] at hsample
  obtain ⟨started, ends, ht⟩ := hs.sampled sample hsample
  refine ⟨started, ends, hstarted.trans ht.startedMs, hends.trans ht.endsMs, ?_, fun p' hp' => ?_,
    ht.last⟩
  · rw [RouteLease.windowMs, h.duration]
    exact ht.length
  · obtain ⟨p, hp, hcredited, -⟩ := h.mem hp'
    exact hcredited ▸ ht.credited p hp

end RouteLease.SameAccount

/-! ### The operations -/

namespace RouteLease.Sound

/-- A window that one more provider accepts. -/
theorem to_accepted (h : l.Sound) (acceptances : List LeaseAcceptance) :
    ({ l with acceptances } : RouteLease).Sound := by
  have hsame : l.SameAccount { l with acceptances } := ⟨rfl, rfl, rfl, rfl, rfl⟩
  exact hsame.sound h h.offered h.running id (hsame.timed h rfl rfl rfl)

/-- A window that starts. -/
theorem to_activated (h : l.Sound) (hstate : l.state = .offered) {observation : Observation}
    {now : Int} (hobs : observeRoute db l now = .ok observation) :
    (l.activated observation now).Sound := by
  have hsame : l.SameAccount (l.activated observation now) := by
    refine ⟨rfl, rfl, rfl, rfl, ?_⟩
    have hmembers := observeRoute_members hobs
    rw [← hmembers]
    simp only [RouteLease.activated, List.map_map]
    rfl
  refine hsame.sound h (fun hoffered => by cases hoffered) (fun _ hnone => by cases hnone)
    (fun hnone => by cases hnone) fun sample hsample => ?_
  have hsample : some now = some sample := hsample
  rw [Option.some.injEq] at hsample
  subst hsample
  refine ⟨now, now + l.durationSeconds * 1000, rfl, rfl, rfl, fun p' hp' => ?_, ?_⟩
  · obtain ⟨p, hp, hcredited, -⟩ := hsame.mem hp'
    rw [← hcredited, h.unsampled (h.offered hstate) p hp]
    omega
  · have hduration := h.duration
    omega

/-- A window that drains. -/
theorem to_drained (h : l.Sound) (hstate : l.state.running = true) (t : Tx) (user : UserId) :
    (l.drained t user).Sound := by
  have hsame : l.SameAccount (l.drained t user) := by
    refine ⟨rfl, rfl, rfl, rfl, ?_⟩
    simp only [RouteLease.drained, List.map_map]
    refine List.map_congr_left fun p _ => ?_
    simp only [Function.comp_apply]
    split <;> rfl
  exact hsame.sound h (fun hoffered => by cases hoffered) (fun _ => h.running hstate) id
    (hsame.timed h rfl rfl rfl)

/-- A window that ends. -/
theorem to_closed (h : l.Sound) {state : RouteLeaseState} (hstate : state.funded = false) :
    (l.closed t state).Sound := by
  have hsame : l.SameAccount (l.closed t state) := ⟨rfl, rfl, rfl, rfl, rfl⟩
  refine hsame.sound h (fun hoffered => ?_) (fun hrunning => ?_) id (hsame.timed h rfl rfl rfl)
  · have hoffered : state = .offered := hoffered
    rw [hoffered] at hstate
    cases hstate
  · have hrunning : state.running = true := hrunning
    have hended : state.running = false := by cases state <;> first | rfl | cases hstate
    rw [hended] at hrunning
    cases hrunning

/-- **A sample** credits to every member at most the time since the last one.

**Proof sketch.** Each member is credited no time or the time since the last sample, which is not
negative, and is paid the rounded price of what it has been credited. So the joint time, which grows
with that of every member, stays below each of them, and no member is credited more than the time
from the start to the sample. -/
theorem to_sampled (h : l.Sound) (hstate : l.state.running = true) {now previous ends : Int}
    {observation : Observation} {credits : List (LeaseMember × Bool)} {contiguous : Bool}
    (hprev : l.sampleMs = some previous) (hends : l.endsMs = some ends)
    (hobs : observeRoute db l now = .ok observation)
    (hcredits : observation.members.mapM (creditMember l
      (max previous (min now ends) - previous) contiguous) = .ok credits) :
    (l.sampled observation.joint contiguous (max previous (min now ends) - previous)
      (max previous (min now ends)) credits).Sound := by
  obtain ⟨started, ends', ht⟩ := h.sampled previous hprev
  obtain rfl : ends = ends' := by
    rw [← Option.some.injEq, ← hends, ht.endsMs]
  have hforall := credits_forall₂ hobs hcredits
  have hlast := ht.last
  generalize helapsed : max previous (min now ends) - previous = elapsed at *
  have hnonneg : 0 ≤ elapsed := by omega
  have hcredit : ∀ c ∈ credits.map Prod.fst, ∃ p ∈ l.members, c.maximum = p.maximum ∧
      p.credited ≤ c.credited ∧ c.credited ≤ p.credited + elapsed ∧
      c.paid = c.credited * c.maximum / l.windowMs := by
    intro c hc
    obtain ⟨p, hp, o, -, rfl⟩ := Checked.forall₂_right hforall hc
    refine ⟨p, hp, rfl, ?_, ?_, rfl⟩
    · simp only [LeaseMember.credit]
      split <;> omega
    · simp only [LeaseMember.credit]
      split <;> omega
  refine ⟨h.duration, ?_, fun c hc => ?_, ?_, fun c hc => ?_, ?_, fun hoffered => ?_,
    fun _ hnone => (by cases hnone), fun hnone => (by cases hnone), fun sample hsample => ?_⟩
  · show ((credits.map Prod.fst).map (·.maximum)).sum = l.budget
    rw [map_maximum_of_credits hforall]
    exact h.budget
  · obtain ⟨p, hp, hmaximum, -⟩ := hcredit c hc
    exact hmaximum ▸ h.maximum p hp
  · show (credits.map (·.1.paid)).sum = ((credits.map Prod.fst).map (·.paid)).sum
    rw [List.map_map]
    rfl
  · obtain ⟨-, -, -, -, -, hpaid⟩ := hcredit c hc
    exact hpaid
  · -- the joint time grows only when the time of every member does
    refine ⟨?_, fun c hc => ?_⟩
    · simp only [RouteLease.sampled]
      have hjoint := h.joint.1
      split <;> omega
    · obtain ⟨c, hmem, rfl⟩ := List.mem_map.1 hc
      obtain ⟨p, hp, hcredited⟩ := credits_valid hobs hcredits hmem
      have hjoint := h.joint.2 p hp
      simp only [RouteLease.sampled]
      split
      · rename_i hall
        rw [hcredited, if_pos (hall.2.2.2 c hmem)]
        omega
      · rw [hcredited]
        split <;> omega
  · have hrunning := RouteLease.sampled_running hstate observation.joint contiguous elapsed
      (max previous (min now ends)) credits
    rw [hoffered] at hrunning
    cases hrunning
  · have hsample : some (max previous (min now ends)) = some sample := hsample
    rw [Option.some.injEq] at hsample
    subst hsample
    refine ⟨started, ends, ht.startedMs, ht.endsMs, ht.length, fun c hc => ?_, by omega⟩
    obtain ⟨p, hp, -, -, hle, -⟩ := hcredit c hc
    have hbefore := ht.credited p hp
    omega

end RouteLease.Sound

/-- A window that runs is funded. -/
theorem RouteLeaseState.funded_of_running {state : RouteLeaseState} (h : state.running = true) :
    state.funded = true := by
  cases state <;> first | rfl | cases h

/-- A funded window whose escrow holds what is left of its budget. -/
theorem RouteLease.Accounted.of_funded (hsound : l.Sound)
    (hfunding : Entered env books (.routeFund id)
      [(fundingAccount l.sponsorId l.terms.cooperative, -l.budget), (.routeEscrow id, l.budget)])
    (hfunded : l.state.funded = true)
    (hescrow : books.balance (.routeEscrow id) = l.remaining) : l.Accounted env books id := by
  refine ⟨hsound, hfunding, fun _ => hescrow, ?_, ?_, ?_⟩ <;>
  · intro hended
    rw [hfunded] at hended
    cases hended

/-- A new window agrees with its terms. -/
theorem RouteOffered.sound {d : RouteOffer} {route : ExecutionRoute} {terms : LeaseTerms}
    (h : RouteOffered env t db d route terms books) :
    (newRouteLease env t db.xid d terms).Sound := by
  obtain ⟨maxima, -, hpos, hzip⟩ := h.members
  have hmembers : ∀ p ∈ (newRouteLease env t db.xid d terms).members,
      0 < p.maximum ∧ p.credited = 0 ∧ p.paid = 0 := by
    intro p hp
    obtain ⟨m, hm, rfl⟩ := List.mem_map.1 hp
    rw [hzip] at hm
    exact ⟨hpos m.2 (List.of_mem_zip hm).2, rfl, rfl⟩
  have hduration : 0 < terms.durationSeconds := by
    have hmin := h.duration.1
    omega
  refine ⟨hduration, h.check.1, fun p hp => (hmembers p hp).1, ?_, fun p hp => ?_,
    ⟨le_rfl, fun p hp => (hmembers p hp).2.1.ge⟩, fun _ => rfl, fun hrunning => (by cases hrunning),
    fun _ p hp => (hmembers p hp).2.1, fun sample hsample => by cases hsample⟩
  · symm
    apply List.sum_eq_zero
    intro n hn
    obtain ⟨p, hp, rfl⟩ := List.mem_map.1 hn
    exact (hmembers p hp).2.2
  · rw [(hmembers p hp).2.2, (hmembers p hp).2.1, zero_mul, Int.zero_ediv]

/-- What a payment takes from the escrow of a window. -/
theorem entrySum_paymentLines (id : LeaseId) (before after : List LeaseMember) (delta : Int) :
    Ledger.entrySum (.routeEscrow id) (paymentLines id before after delta) = -delta := by
  unfold paymentLines
  rw [Ledger.entrySum_append, Ledger.entrySum_eq_zero]
  · simp
  · intro e he
    obtain ⟨p, -, hp⟩ := List.mem_filterMap.1 he
    split at hp
    · simp only [Option.some.injEq] at hp
      subst hp
      exact AccountId.noConfusion
    · cases hp

/-- What an entry moves between the escrow of a window and the account that funds it. -/
theorem entrySum_funding (id : LeaseId) (sponsor : UserId) (c : Option CoopContext)
    (amount given : Int) :
    Ledger.entrySum (.routeEscrow id) [(fundingAccount sponsor c, given), (.routeEscrow id, amount)]
      = amount := by
  have hne : fundingAccount sponsor c ≠ .routeEscrow id := fun heq => by
    have hfree := fundingAccount_not_isEscrow sponsor c
    rw [heq] at hfree
    cases hfree
  simp [hne]

/-- **The window that a change writes** is accounted for.

**Proof sketch.** By what was written. Each posting is under a key that was new: the funding of a
new window, the payment of an amount that has grown, the refund of a window that was open. So the
escrow moves by its entries, and stays what is left of the budget. -/
theorem RouteLease.Written.accounted (h : RouteLease.Written env req tx db db' id l)
    (hb : Booking db) (hbooks : RouteLeaseBooks env db)
    (hentered : ∀ key entries, Entered env db.books key entries →
      Entered env db'.books key entries) : l.Accounted env db'.books id := by
  cases h with
  | @offered t d route terms h hid =>
    subst hid
    have hfresh : (db.books.openAccount (.routeEscrow terms.leaseId) .leaseEscrow).findKey
        (.routeFund terms.leaseId) = none := by
      rw [findKey_openAccount]
      exact hb.fresh fun ⟨l, hl⟩ => by rw [h.id] at hl; cases hl
    refine .of_funded h.sound (h.booked.entered (hb.sound.openAccount _ _) hfresh) rfl ?_
    rw [h.booked.balance_of_fresh hfresh, balance_openAccount, hbooks.absent _ h.id,
      entrySum_funding]
    show 0 + terms.budget = terms.budget - 0
    omega
  | @accepted row acceptances hrow hstate hsame =>
    have hacc := hbooks.accounted id row hrow
    have hfunded : row.state.funded = true := by rw [hstate]; rfl
    refine .of_funded (hacc.sound.to_accepted acceptances) (hentered _ _ hacc.funding) hfunded ?_
    rw [hsame, hacc.escrow hfunded]
    rfl
  | @activated row acceptances observation now hrow hstate hobs hjoint hsame =>
    have hacc := hbooks.accounted id row hrow
    refine .of_funded ((hacc.sound.to_accepted acceptances).to_activated hstate hobs)
      (hentered _ _ hacc.funding) rfl ?_
    rw [hsame, hacc.escrow (by rw [hstate]; rfl)]
    rfl
  | @sampled row _ now previous ends observation credits hrow hstate hprev hends hnow hobs
      hcredits hsampled hpay =>
    have hacc := hbooks.accounted id row hrow
    have hsound : l.Sound := hsampled ▸ hacc.sound.to_sampled hstate hprev hends hobs hcredits
    have hrunning : l.state.running = true := hsampled ▸ RouteLease.sampled_running hstate ..
    have hterms : l.sponsorId = row.sponsorId ∧ l.terms = row.terms ∧
        l.budget = row.budget := by
      subst hsampled
      exact ⟨rfl, rfl, rfl⟩
    have hearned : row.paid ≤ l.paid := by
      rw [hacc.sound.paid, hsampled]
      exact credits_earned hobs hcredits
    obtain ⟨hsponsor, hterms, hbudget⟩ := hterms
    refine .of_funded hsound ?_ (RouteLeaseState.funded_of_running hrunning) ?_
    · rw [hsponsor, hterms, hbudget]
      exact hentered _ _ hacc.funding
    have hescrow := hacc.escrow (RouteLeaseState.funded_of_running hstate)
    unfold RouteLease.remaining at hescrow ⊢
    rcases hpay with ⟨hmore, hpay⟩ | ⟨hmore, hsame⟩
    · -- the payment has a key of its own, since the payments have grown
      have hfresh : db.books.findKey (.routePay id l.paid) = none := by
        refine hb.fresh fun ⟨row', hrow', hle⟩ => ?_
        rw [hrow, Option.some.injEq] at hrow'
        subst hrow'
        rw [← hacc.sound.paid] at hle
        omega
      rw [hpay.balance_of_fresh hfresh, hescrow, entrySum_paymentLines, hbudget]
      omega
    · rw [hsame, hescrow, hbudget]
      omega
  | @drained t user row hrow hstate hsame =>
    have hacc := hbooks.accounted id row hrow
    refine .of_funded (hacc.sound.to_drained hstate t user) (hentered _ _ hacc.funding) rfl ?_
    rw [hsame, hacc.escrow (RouteLeaseState.funded_of_running hstate)]
    rfl
  | @closed t row state paid hrow hend hrefund =>
    have hacc := hbooks.accounted id row hrow
    have hfunded : row.state.funded = true := by
      rcases hend with ⟨hstate, -⟩ | ⟨hstate, -⟩
      · rw [hstate]
        rfl
      · exact RouteLeaseState.funded_of_running hstate
    have hended : state.funded = false := by
      rcases hend with ⟨-, -, rfl | ⟨rfl, -⟩⟩ | ⟨-, -, rfl, -⟩ <;> rfl
    have hpaid : paid = row.paid := by
      rcases hend with ⟨hstate, rfl | hpaid, -⟩ | ⟨-, hpaid, -⟩
      · exact (hacc.sound.paid_eq_zero (hacc.sound.offered hstate)).symm
      · exact hpaid
      · exact hpaid
    subst hpaid
    have hfresh : db.books.findKey (.routeRefund id) = none := by
      refine hb.fresh fun ⟨l, hl, hended⟩ => ?_
      rw [hrow, Option.some.injEq] at hl
      subst hl
      rw [hfunded] at hended
      cases hended
    have hnot : ¬ (row.closed t state).state.funded = true := by
      show ¬ state.funded = true
      rw [hended]
      exact Bool.false_ne_true
    have hleft := hacc.sound.remaining_nonneg.2
    unfold RouteLease.remaining at hleft
    refine ⟨hacc.sound.to_closed hended, hentered _ _ hacc.funding, fun h => absurd h hnot,
      fun _ => ?_, fun _ hpos => ?_, fun _ hzero => ?_⟩
    · have hsum : Ledger.entrySum (.routeEscrow id) [(.routeEscrow id, -(row.budget - row.paid)),
          (fundingAccount row.sponsorId row.terms.cooperative, row.budget - row.paid)] =
            -(row.budget - row.paid) := by
        rw [Ledger.entrySum_perm (List.Perm.swap _ _ _), entrySum_funding]
      rw [hrefund.balance_of_fresh hfresh, hsum, hacc.escrow hfunded]
      · exact add_neg_cancel (row.budget - row.paid)
      · intro hnone
        rw [hsum]
        omega
    · rcases hrefund with ⟨-, hrefund⟩ | ⟨hnone, -⟩
      · exact hrefund.entered hb.sound hfresh
      · exact absurd hpos hnone
    · rcases hrefund with ⟨hpos, -⟩ | ⟨-, hsame⟩
      · have hzero : row.budget - row.paid = 0 := hzero
        omega
      · rw [hsame]
        exact hfresh

/-- **Every change keeps the windows accounted for.** -/
theorem Change.routeLeaseBooks (h : Change env req tx db db') (hb : Booking db)
    (hbooks : RouteLeaseBooks env db) : RouteLeaseBooks env db' := by
  -- a window that the change does not write
  have hkept : ∀ ids, RouteLeasesBut db db' ids → ∀ id, id ∉ ids →
      (∀ l, db'.routeLeases.find? id = some l → l.Accounted env db'.books id) ∧
        (db'.routeLeases.find? id = none → db'.books.balance (.routeEscrow id) = 0) := by
    intro ids hbut id hid
    obtain ⟨hfind, hbalance, hkey⟩ := hbut id hid
    rw [hfind, hbalance]
    refine ⟨fun l hl => ?_, hbooks.absent id⟩
    have hacc := hbooks.accounted id l hl
    exact ⟨hacc.sound, h.entered hb.sound hacc.funding,
      fun hfunded => hbalance.trans (hacc.escrow hfunded),
      fun hended => hbalance.trans (hacc.empty hended),
      fun hended hpos => h.entered hb.sound (hacc.refund hended hpos),
      fun hended hzero => hkey.2 (hacc.whole hended hzero)⟩
  rcases h.routeLease_cases with hbut | ⟨id, l, hl, hwritten, hbut⟩
  · exact ⟨fun id => (hkept [] hbut id (by simp)).1, fun id => (hkept [] hbut id (by simp)).2⟩
  · refine ⟨fun id₁ l₁ hl₁ => ?_, fun id₁ hnone => ?_⟩
    · by_cases hid : id₁ = id
      · subst hid
        rw [hl, Option.some.injEq] at hl₁
        exact hl₁ ▸ hwritten.accounted hb hbooks fun _ _ => h.entered hb.sound
      · exact (hkept [id] hbut id₁ (by simpa using hid)).1 l₁ hl₁
    · by_cases hid : id₁ = id
      · subst hid
        rw [hl] at hnone
        cases hnone
      · exact (hkept [id] hbut id₁ (by simpa using hid)).2 hnone

/-- The windows of an empty database. -/
theorem initial_routeLeaseBooks (env : Env) (admin : UserId) :
    RouteLeaseBooks env (Db.initial admin) where
  accounted _ _ hl := by cases hl
  absent id _ := by
    simp only [Db.initial, createAccounts, balance_openAccount]
    rfl

/-- **Every window of a reachable database is accounted for.** -/
theorem reachable_routeLeaseBooks (h : Machine.Reachable (controlSystem env) db) :
    RouteLeaseBooks env db :=
  reachable_of_booked_changes (initial_routeLeaseBooks env)
    (fun _ _ _ _ hb hp hc => hc.routeLeaseBooks hb hp) h

end NetworkAi
