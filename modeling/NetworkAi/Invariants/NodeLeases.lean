import NetworkAi.Control.LeaseSteps
import NetworkAi.Invariants.Books

set_option relaxedAutoImplicit false
set_option autoImplicit false

/-!
# The accounts of the readiness contracts of nodes

A contract moves its budget into an escrow of its own; every sample pays what the credited time has
earned so far, less what was paid before; the end returns the rest. No other operation names the
escrow, so that its balance is the budget less the payments until the end, and nothing afterwards.

## Main definitions

* `NetworkAi.NodeLease.Accounted` — the columns of a contract agree with its escrow.

## Main results

* `NetworkAi.NodeLease.Written.accounted` — the contract that a change writes is accounted for.
* `NetworkAi.node_lease_accounting` — the invariant of the contracts, and what a run keeps.
-/

namespace NetworkAi

open Relational

variable {env : Env} {req : Request} {tx : Tx} {db db' : Db} {id : LeaseId} {l l' : NodeLease}

/-! ### The invariant -/

/-- What is left of the budget of a contract. -/
def NodeLease.remaining (l : NodeLease) : Int := l.budget - l.paid

/-- The credited time of a contract that has been sampled lies between its start and its last
sample, which does not pass its end. -/
structure NodeLease.Timed (l : NodeLease) (sample started ends : Int) : Prop where
  startedMs : l.startedMs = some started
  endsMs : l.endsMs = some ends
  length : ends = started + l.durationSeconds * 1000
  credited : 0 ≤ l.credited ∧ l.credited ≤ sample - started
  last : sample ≤ ends

/-- The terms and the columns of a contract agree with each other. -/
structure NodeLease.Sound (l : NodeLease) : Prop where
  budget : l.budget = l.rate * l.durationSeconds
  rate : 0 < l.rate
  paid : l.paid = l.credited * l.rate / 1000
  offered : l.state = .offered → l.sampleMs = none
  active : l.state = .active → l.sampleMs ≠ none
  unsampled : l.sampleMs = none → l.credited = 0
  sampled : ∀ sample, l.sampleMs = some sample → ∃ started ends, l.Timed sample started ends

/-- **The columns of a contract agree with its escrow**, and with the entry that refunded it. -/
structure NodeLease.Accounted (env : Env) (books : Books) (id : LeaseId) (l : NodeLease) :
    Prop where
  sound : l.Sound
  escrow : l.state.isOpen = true → books.balance (.leaseEscrow id) = l.remaining
  empty : l.state.isOpen = false → books.balance (.leaseEscrow id) = 0
  refund : l.state.isOpen = false → 0 < l.remaining → Entered env books (.leaseRefund id)
    [(.leaseEscrow id, -l.remaining), (.available l.sponsorId, l.remaining)]
  whole : l.state.isOpen = false → l.remaining = 0 → books.findKey (.leaseRefund id) = none

/-- Every contract is accounted for, and an escrow without a contract is empty. -/
structure NodeLeaseBooks (env : Env) (db : Db) : Prop where
  accounted : ∀ id l, db.nodeLeases.find? id = some l → l.Accounted env db.books id
  absent : ∀ id, db.nodeLeases.find? id = none → db.books.balance (.leaseEscrow id) = 0

namespace NodeLease.Sound

/-- The credited time is never longer than the contract. -/
theorem credited_le (h : l.Sound) : 0 ≤ l.credited ∧ l.credited ≤ l.durationSeconds * 1000 := by
  cases hsample : l.sampleMs with
  | none =>
    have hzero := h.unsampled hsample
    omega
  | some sample =>
    obtain ⟨started, ends, ht⟩ := h.sampled sample hsample
    have hcredited := ht.credited
    have hlast := ht.last
    have hlength := ht.length
    omega

/-- A contract never pays more than its budget. -/
theorem remaining_nonneg (h : l.Sound) : 0 ≤ l.paid ∧ 0 ≤ l.remaining := by
  obtain ⟨h0, hle⟩ := h.credited_le
  have hrate := h.rate
  have hpaid : l.paid * 1000 ≤ l.credited * l.rate := by
    rw [h.paid]
    exact Int.ediv_mul_le _ (by norm_num)
  have hbound : l.credited * l.rate ≤ l.durationSeconds * 1000 * l.rate :=
    mul_le_mul_of_nonneg_right hle hrate.le
  refine ⟨?_, ?_⟩
  · rw [h.paid]
    exact Int.ediv_nonneg (mul_nonneg h0 hrate.le) (by norm_num)
  · unfold remaining
    rw [h.budget]
    nlinarith

/-- A contract that starts. -/
theorem to_activated (h : l.Sound) (hstate : l.state = .offered) (now : Int) (epoch : Nat) :
    (l.activated now epoch).Sound where
  budget := h.budget
  rate := h.rate
  paid := h.paid
  offered hoffered := by cases hoffered
  active _ hnone := by cases hnone
  unsampled hnone := by cases hnone
  sampled sample hsample := by
    have hsample : some now = some sample := hsample
    rw [Option.some.injEq] at hsample
    subst hsample
    have hzero := h.unsampled (h.offered hstate)
    refine ⟨now, now + l.durationSeconds * 1000, rfl, rfl, rfl, ?_, ?_⟩
    · show 0 ≤ l.credited ∧ l.credited ≤ now - now
      omega
    · omega

/-- **A sample** credits at most the time since the last one, and brings the payments up to the
credited time. -/
theorem sampled_step (h : l.Sound) (node : NodeObservation) (now previous ends : Int) :
    (l.credited ≤ (l.sampled node now previous ends).credited ∧
      (l.sampled node now previous ends).credited - l.credited ≤
        max previous (min now ends) - previous) ∧
      (l.sampled node now previous ends).paid =
        (l.sampled node now previous ends).credited * l.rate / 1000 := by
  have hcredit : l.credited ≤ (l.sampled node now previous ends).credited ∧
      (l.sampled node now previous ends).credited - l.credited ≤
        max previous (min now ends) - previous := by
    simp only [NodeLease.sampled]
    split <;> omega
  refine ⟨hcredit, ?_⟩
  show max l.paid ((l.sampled node now previous ends).credited * l.rate / 1000) = _
  rw [h.paid]
  exact max_eq_right (Int.ediv_le_ediv (by norm_num)
    (mul_le_mul_of_nonneg_right hcredit.1 h.rate.le))

/-- A contract that is sampled. -/
theorem to_sampled (h : l.Sound) {node : NodeObservation} {now previous ends : Int}
    (hstate : l.state = .active) (hprev : l.sampleMs = some previous)
    (hends : l.endsMs = some ends) : (l.sampled node now previous ends).Sound where
  budget := h.budget
  rate := h.rate
  paid := (h.sampled_step node now previous ends).2
  offered hoffered := by
    have hoffered : l.state = .offered := hoffered
    rw [hstate] at hoffered
    cases hoffered
  active _ hnone := by cases hnone
  unsampled hnone := by cases hnone
  sampled sample hsample := by
    have hsample : some (max previous (min now ends)) = some sample := hsample
    rw [Option.some.injEq] at hsample
    subst hsample
    obtain ⟨hmono, hbound⟩ := (h.sampled_step node now previous ends).1
    obtain ⟨started, ends', ht⟩ := h.sampled previous hprev
    obtain rfl : ends = ends' := by
      rw [← Option.some.injEq, ← hends, ht.endsMs]
    have hcredited := ht.credited
    have hlast := ht.last
    refine ⟨started, ends, ht.startedMs, ht.endsMs, ht.length, ?_, ?_⟩
    · omega
    · omega

/-- A contract that ends. -/
theorem to_closed (h : l.Sound) {t : Tx} {state : NodeLeaseState} (hstate : state.isOpen = false) :
    (l.closed t state).Sound where
  budget := h.budget
  rate := h.rate
  paid := h.paid
  offered hoffered := by
    have hoffered : state = .offered := hoffered
    subst hoffered
    cases hstate
  active hactive := by
    have hactive : state = .active := hactive
    subst hactive
    cases hstate
  unsampled := h.unsampled
  sampled sample hsample := by
    obtain ⟨started, ends, ht⟩ := h.sampled sample hsample
    exact ⟨started, ends, ht.startedMs, ht.endsMs, ht.length, ht.credited, ht.last⟩

end NodeLease.Sound

/-! ### The operations -/

/-- A change writes at most one contract, and leaves all others with their escrows. -/
theorem Change.nodeLease_cases (h : Change env req tx db db') :
    NodeLeasesBut db db' [] ∨ ∃ id l, db'.nodeLeases.find? id = some l ∧
      NodeLease.Written env db db' id l ∧ NodeLeasesBut db db' [id] := by
  rcases h.lease_cases with hbut | ⟨id, l, hl, hwritten, hbut⟩ | ⟨id, l, hl, -, hbut⟩
  · exact .inl hbut.1
  · exact .inr ⟨id, l, hl, hwritten, hbut.1⟩
  · exact .inl hbut.1

/-- An open contract whose escrow holds what is left of its budget. -/
theorem NodeLease.Accounted.of_open {books : Books} (hsound : l.Sound)
    (hopen : l.state.isOpen = true)
    (hescrow : books.balance (.leaseEscrow id) = l.remaining) : l.Accounted env books id := by
  refine ⟨hsound, fun _ => hescrow, ?_, ?_, ?_⟩ <;>
  · intro hended
    rw [hopen] at hended
    cases hended

/-- The contract that a change writes is accounted for.

**Proof sketch.** By what was written. Each posting is under a key that was new: the funding of a
new contract, the payment for a credited time that has grown, the refund of a contract that was
open. So the escrow moves by its entries, and stays what is left of the budget. -/
theorem NodeLease.Written.accounted (h : NodeLease.Written env db db' id l) (hb : Booking db)
    (hbooks : NodeLeaseBooks env db) : l.Accounted env db'.books id := by
  cases h with
  | offered hid hstate hnew hbudget hrate hfund =>
    have hfresh : (db.books.openAccount (.leaseEscrow id) .leaseEscrow).findKey (.leaseFund id) =
        none := by
      rw [findKey_openAccount]
      refine hb.fresh ?_
      rintro ⟨l, hl⟩
      rw [hid] at hl
      cases hl
    obtain ⟨hpaid, hcredited, hsample⟩ := hnew
    refine .of_open ⟨hbudget, hrate, ?_, fun _ => hsample, fun hactive => ?_, fun _ => hcredited,
      fun sample h => ?_⟩ (by rw [hstate]; rfl) ?_
    · rw [hpaid, hcredited, zero_mul]
      rfl
    · rw [hstate] at hactive
      cases hactive
    · rw [hsample] at h
      cases h
    · rw [hfund.balance_of_fresh hfresh, balance_openAccount, hbooks.absent id hid]
      simp [NodeLease.remaining, hpaid]
  | activated hrow hstate hsame =>
    have hacc := hbooks.accounted id _ hrow
    refine .of_open (hacc.sound.to_activated hstate _ _) rfl ?_
    rw [hsame, hacc.escrow (by rw [hstate]; rfl)]
    rfl
  | @sampled row node now previous ends hrow hstate hprev hends hpay =>
    have hacc := hbooks.accounted id row hrow
    have hopen : row.state.isOpen = true := by rw [hstate]; rfl
    have hsound : (row.sampled node now previous ends).Sound :=
      hacc.sound.to_sampled hstate hprev hends
    obtain ⟨⟨hmono, -⟩, htotal⟩ := hacc.sound.sampled_step node now previous ends
    refine .of_open hsound hopen ?_
    have hescrow := hacc.escrow hopen
    rcases hpay with ⟨hmore, hpay⟩ | ⟨hmore, hsame⟩
    · -- the payment has a key of its own, since the credited time has grown
      have hfresh : db.books.findKey
          (.leasePay id (row.sampled node now previous ends).credited) = none := by
        refine hb.fresh ?_
        rintro ⟨l, hl, hle⟩
        rw [hrow, Option.some.injEq] at hl
        subst hl
        have heq : (row.sampled node now previous ends).credited = row.credited := by omega
        rw [heq, ← hacc.sound.paid] at hmore
        exact lt_irrefl _ hmore
      rw [hpay.balance_of_fresh hfresh, hescrow]
      unfold NodeLease.remaining
      rw [htotal]
      show _ = row.budget - _
      simp
    · rw [hsame, hescrow]
      have hle : (row.sampled node now previous ends).paid ≤ row.paid := by
        rw [htotal]
        exact not_lt.1 hmore
      have hge : row.paid ≤ (row.sampled node now previous ends).paid := le_max_left _ _
      show row.budget - row.paid = row.budget - (row.sampled node now previous ends).paid
      omega
  | @closed t row state hrow hopen hstate hrefund =>
    have hacc := hbooks.accounted id row hrow
    have hfresh : db.books.findKey (.leaseRefund id) = none := by
      refine hb.fresh ?_
      rintro ⟨l, hl, hended⟩
      rw [hrow, Option.some.injEq] at hl
      subst hl
      rw [hopen] at hended
      cases hended
    have hclosed : ¬ (row.closed t state).state.isOpen = true := by
      show ¬ state.isOpen = true
      rw [hstate]
      exact Bool.false_ne_true
    refine ⟨hacc.sound.to_closed hstate, fun h => absurd h hclosed, fun _ => ?_, fun _ hpos => ?_,
      fun _ hzero => ?_⟩
    · rw [hrefund.balance_of_fresh hfresh, hacc.escrow hopen]
      · simp [NodeLease.remaining]
      · intro hnone
        have hleft := hacc.sound.remaining_nonneg.2
        unfold NodeLease.remaining at hleft
        simp
        omega
    · rcases hrefund with ⟨-, hrefund⟩ | ⟨hnone, -⟩
      · exact hrefund.entered hb.sound hfresh
      · exact absurd hpos hnone
    · rcases hrefund with ⟨hpos, -⟩ | ⟨-, hsame⟩
      · have hzero : row.budget - row.paid = 0 := hzero
        omega
      · rw [hsame]
        exact hfresh

/-- **Every change keeps the contracts accounted for.** -/
theorem Change.nodeLeaseBooks (h : Change env req tx db db') (hb : Booking db)
    (hbooks : NodeLeaseBooks env db) : NodeLeaseBooks env db' := by
  -- a contract that the change does not write
  have hkept : ∀ ids, NodeLeasesBut db db' ids → ∀ id, id ∉ ids →
      (∀ l, db'.nodeLeases.find? id = some l → l.Accounted env db'.books id) ∧
        (db'.nodeLeases.find? id = none → db'.books.balance (.leaseEscrow id) = 0) := by
    intro ids hbut id hid
    obtain ⟨hfind, hbalance, hkey⟩ := hbut id hid
    rw [hfind, hbalance]
    refine ⟨fun l hl => ?_, hbooks.absent id⟩
    have hacc := hbooks.accounted id l hl
    exact ⟨hacc.sound, fun hopen => hbalance.trans (hacc.escrow hopen),
      fun hended => hbalance.trans (hacc.empty hended),
      fun hended hpos => h.entered hb.sound (hacc.refund hended hpos),
      fun hended hzero => hkey.2 (hacc.whole hended hzero)⟩
  rcases h.nodeLease_cases with hbut | ⟨id, l, hl, hwritten, hbut⟩
  · exact ⟨fun id => (hkept [] hbut id (by simp)).1, fun id => (hkept [] hbut id (by simp)).2⟩
  · refine ⟨fun id₁ l₁ hl₁ => ?_, fun id₁ hnone => ?_⟩
    · by_cases hid : id₁ = id
      · subst hid
        rw [hl, Option.some.injEq] at hl₁
        exact hl₁ ▸ hwritten.accounted hb hbooks
      · exact (hkept [id] hbut id₁ (by simpa using hid)).1 l₁ hl₁
    · by_cases hid : id₁ = id
      · subst hid
        rw [hl] at hnone
        cases hnone
      · exact (hkept [id] hbut id₁ (by simpa using hid)).2 hnone

/-- The contracts of an empty database. -/
theorem initial_nodeLeaseBooks (env : Env) (admin : UserId) :
    NodeLeaseBooks env (Db.initial admin) where
  accounted _ _ hl := by cases hl
  absent id _ := by
    simp only [Db.initial, createAccounts, balance_openAccount]
    rfl

/-- Every reachable database has its contracts accounted. -/
theorem reachable_nodeLeaseBooks (h : Machine.Reachable (controlSystem env) db) :
    NodeLeaseBooks env db :=
  reachable_of_booked_changes (initial_nodeLeaseBooks env)
    (fun _ _ _ _ hb hp hc => hc.nodeLeaseBooks hb hp) h

/-! ### Runs -/

/-- **A contract later in a run**: what has been credited since is no more than the time since the
last sample, which never goes back, and a contract that has ended stays as it ended. -/
structure NodeLease.Later (l l' : NodeLease) : Prop where
  credited : l.credited ≤ l'.credited
  sampled : ∀ sample, l.sampleMs = some sample → ∃ sample', l'.sampleMs = some sample' ∧
    sample ≤ sample' ∧ l'.credited - l.credited ≤ sample' - sample
  ended : l.state.isOpen = false → l' = l

/-- A contract is no later than itself. -/
theorem NodeLease.Later.refl (l : NodeLease) : l.Later l :=
  ⟨le_rfl, fun sample hsample => ⟨sample, hsample, le_rfl, by omega⟩, fun _ => rfl⟩

/-- A contract that is later than a later one is later. -/
theorem NodeLease.Later.trans {l₁ l₂ l₃ : NodeLease} (h₁₂ : l₁.Later l₂) (h₂₃ : l₂.Later l₃) :
    l₁.Later l₃ where
  credited := h₁₂.credited.trans h₂₃.credited
  sampled sample hsample := by
    obtain ⟨sample₂, hsample₂, hle₂, hcredit₂⟩ := h₁₂.sampled sample hsample
    obtain ⟨sample₃, hsample₃, hle₃, hcredit₃⟩ := h₂₃.sampled sample₂ hsample₂
    exact ⟨sample₃, hsample₃, hle₂.trans hle₃, by omega⟩
  ended hended := by
    obtain rfl := h₁₂.ended hended
    exact h₂₃.ended hended

/-- The contract that a change writes is the old one, later. -/
theorem NodeLease.Written.later (h : NodeLease.Written env db db' id l')
    (hl : db.nodeLeases.find? id = some l) (hsound : l.Sound) : l.Later l' := by
  cases h with
  | offered hid =>
    rw [hid] at hl
    cases hl
  | activated hrow hstate =>
    rw [hl, Option.some.injEq] at hrow
    subst hrow
    refine ⟨le_rfl, fun sample hsample => ?_, fun hended => ?_⟩
    · rw [hsound.offered hstate] at hsample
      cases hsample
    · rw [hstate] at hended
      cases hended
  | @sampled row node now previous ends hrow hstate hprev =>
    rw [hl, Option.some.injEq] at hrow
    subst hrow
    obtain ⟨hmono, hbound⟩ := (hsound.sampled_step node now previous ends).1
    refine ⟨hmono, fun sample hsample => ?_, fun hended => ?_⟩
    · obtain rfl : previous = sample := by
        rw [← Option.some.injEq, ← hprev, hsample]
      exact ⟨max previous (min now ends), rfl, le_max_left _ _, hbound⟩
    · rw [hstate] at hended
      cases hended
  | closed hrow hopen =>
    rw [hl, Option.some.injEq] at hrow
    subst hrow
    refine ⟨le_rfl, fun sample hsample => ⟨sample, hsample, le_rfl, ?_⟩, fun hended => ?_⟩
    · show l.credited - l.credited ≤ sample - sample
      omega
    · rw [hopen] at hended
      cases hended

/-- **A change leaves every contract in place**, later. -/
theorem Change.nodeLease_later (h : Change env req tx db db') (hbooks : NodeLeaseBooks env db)
    (hl : db.nodeLeases.find? id = some l) :
    ∃ l', db'.nodeLeases.find? id = some l' ∧ l.Later l' := by
  rcases h.nodeLease_cases with hbut | ⟨id₁, l₁, hl₁, hwritten, hbut⟩
  · exact ⟨l, by rw [(hbut id (by simp)).1, hl], .refl l⟩
  · by_cases hid : id = id₁
    · subst hid
      exact ⟨l₁, hl₁, hwritten.later hl (hbooks.accounted id l hl).sound⟩
    · exact ⟨l, by rw [(hbut id (by simpa using hid)).1, hl], .refl l⟩

/-- **The accounts of the contracts of nodes.** In every reachable database, the credited time of a
contract lies between its start and its last sample, its payments are the rounded price of the
credited time, and its escrow is what is left of the budget until the contract ends; the end
refunds what is left, in one entry, and empties the escrow. Along every run, time is credited at
most once, and a contract that has ended stays as it ended.

**Proof sketch.** Every change keeps the contracts accounted, by the lemma about the one that it
writes, and leads to a later row of each. Both are carried along the run. -/
theorem node_lease_accounting (h : Machine.Reachable (controlSystem env) db)
    (hl : db.nodeLeases.find? id = some l) :
    l.Accounted env db.books id ∧ ∀ is, ∃ l',
      ((controlSystem env).run db is).nodeLeases.find? id = some l' ∧ l.Later l' := by
  have hbooks := reachable_nodeLeaseBooks h
  refine ⟨hbooks.accounted id l hl, fun is => ?_⟩
  obtain ⟨-, -, hlater⟩ := run_of_changes
    (P := fun db => Booking db ∧ NodeLeaseBooks env db ∧ ∃ l', db.nodeLeases.find? id = some l' ∧
      l.Later l')
    (fun _ _ a b ⟨hb, hp, l₁, hl₁, hlater⟩ hc => by
      obtain ⟨l₂, hl₂, hnext⟩ := hc.nodeLease_later hp hl₁
      exact ⟨hc.booking hb, hc.nodeLeaseBooks hb hp, l₂, hl₂, hlater.trans hnext⟩)
    ⟨reachable_booking h, hbooks, l, hl, .refl l⟩ is
  exact hlater

/-- A fifth node serves whole models; the consumer funds it for thirty seconds at ten microcredits
a second. The provider is sampled after four seconds, by a clock that has gone back, and after
another five and a half; then the consumer cancels. -/
def labLease : List (Tx × Request) := [
    (labTx 27 0, .background (.bootstrap 0)),
    (labTx 28 0, .user labAdmin (.grant ⟨1000, 10000, 1, "g"⟩)),
    (labTx 29 0, .user labAdmin (.domain 4 0 1)),
    (labTx 30 0, .user labAdmin (.invite 5 "t5" 0 4 "m" .inference)),
    (labTx 31 0, .background (.register "t5" "k5" 1)),
    (labTx 32 0, .node 5 (.heartbeat 1 1 .ready ["b"] none)),
    (labTx 33 0, .user labConsumer (.offerLease ⟨5, 30, 10, "l"⟩)),
    (labTx 34 1000, .user labAdmin (.acceptLease 33000)),
    (labTx 35 5000, .node 5 (.heartbeat 1 1 .ready ["b"] none)),
    (labTx 36 5000, .background (.reconcileLease 33000)),
    (labTx 37 3000, .background (.reconcileLease 33000)),
    (labTx 38 10500, .node 5 (.heartbeat 1 1 .ready ["b"] none)),
    (labTx 39 10500, .user labConsumer (.cancelLease 33000))]

/-- The contract of the laboratory is paid for nine and a half seconds, and the rest of its budget
has returned to the consumer. -/
theorem node_lease_accounting_lab : ∃ l,
    (labDb (labSetup ++ labLease)).nodeLeases.find? 33000 = some l ∧
      (l.credited = 9500 ∧ l.paid = 95 ∧ l.remaining = 205) ∧
      (labDb (labSetup ++ labLease)).books.balance (.available 1000) = 9905 ∧
      l.Accounted labEnv (labDb (labSetup ++ labLease)).books 33000 := by
  have hfacts : ((labDb (labSetup ++ labLease)).nodeLeases.find? 33000).map (fun l =>
        (l.credited, l.paid, l.remaining)) = some (9500, 95, 205) ∧
      (labDb (labSetup ++ labLease)).books.balance (.available 1000) = 9905 := by
    decide +kernel
  obtain ⟨hcolumns, hbalance⟩ := hfacts
  obtain ⟨l, hl, hcolumns⟩ := Option.map_eq_some_iff.1 hcolumns
  simp only [Prod.mk.injEq] at hcolumns
  exact ⟨l, hl, hcolumns, hbalance,
    (node_lease_accounting (reachable_lab (labSetup ++ labLease)) hl).1⟩

end NetworkAi
