import NetworkAi.Benchmark.Audit
import NetworkAi.Control.Consumptions

set_option relaxedAutoImplicit false
set_option autoImplicit false

/-!
# Settlements and refunds in the reference ledger

A settlement of a pool is a usage hold that is finalized, and a refund an approved reversal that is
posted. Both are requests that the tables of the control API take as well.

## Main definitions

* `NetworkAi.Benchmark.Names` — the names of accounts and operations in the ledger.
* `NetworkAi.Benchmark.Request` — a settlement or a refund.
* `NetworkAi.Benchmark.ledgerStep`, `NetworkAi.Benchmark.poolStep` — what it does, and whether it
  takes effect.

## Main results

* `NetworkAi.Benchmark.refill_recycle` — a refill of priority `v6` is `recycle`.
* `NetworkAi.Benchmark.settle_covered`, `NetworkAi.Benchmark.refund_covered` — what the ledger does
  when the funds cover the request.
-/

namespace NetworkAi.Benchmark

open Relational Checked

/-! ### Requests -/

/-- Names for users and operations that do not clash. -/
structure Names where
  owner : UserId → String
  usage : SessionId → String
  reversal : SessionId → String
  owner_inj : Function.Injective owner
  owner_ne : ∀ u, owner u ≠ working ∧ owner u ≠ Benchmark.reserve ∧ owner u ≠ continuity
  usage_inj : Function.Injective usage
  reversal_inj : Function.Injective reversal
  usage_ne : ∀ i j, usage i ≠ reversal j ∧ usage i ≠ reversal j ++ ":w" ∧
    usage i ≠ reversal j ++ ":r"
  reversal_ne : ∀ i j, reversal i ≠ reversal j ++ ":w" ∧ reversal i ≠ reversal j ++ ":r"

/-- A settlement, with the floor and the targets that it finds, or a request for a refund. -/
inductive Request where
  | settle (id : SessionId) (userId : UserId) (charge floor workingTarget reserveTarget : Int)
  | refund (id : SessionId)
  deriving DecidableEq, Repr

/-- A positive charge, and targets that are amounts. -/
def Request.InRange : Request → Prop
  | .settle _ _ charge floor workingTarget reserveTarget =>
    0 < charge ∧ (0 ≤ floor ∧ floor ≤ maxInteger) ∧
      (0 ≤ workingTarget ∧ workingTarget ≤ maxInteger) ∧
      (0 ≤ reserveTarget ∧ reserveTarget ≤ maxInteger)
  | .refund _ => True

instance : (r : Request) → Decidable r.InRange
  | .settle _ _ _ _ _ _ => inferInstanceAs (Decidable (_ ∧ _ ∧ _ ∧ _))
  | .refund _ => inferInstanceAs (Decidable True)

variable (names : Names)

/-- A usage hold, finalized at once; whether the balance covers it. -/
def Ledger.settle (l : Ledger) (id : SessionId) (userId : UserId)
    (charge floor workingTarget reserveTarget : Int) : Except Raised (Bool × Ledger) := do
  let (held, l) ← l.hold (names.usage id) (names.owner userId) charge .usage
  if held then
    let (_, l) ← l.finalizeUsage (names.usage id) floor workingTarget reserveTarget .v6
    return (true, l)
  else
    return (false, l)

/-- An approved reversal, posted at once; whether it is approved. -/
def Ledger.refund (l : Ledger) (id : SessionId) : Except Raised (Bool × Ledger) := do
  let (approved, l) ← l.approveReversal (names.reversal id) (names.usage id)
  if approved then
    let l ← l.postReversal (names.reversal id)
    return (true, l)
  else
    return (false, l)

/-- The state after a request and whether it took effect; a request that fails takes none. -/
def effect {ε σ : Type} (s : σ) : Except ε (Bool × σ) → σ × Bool
  | .ok (took, s') => (s', took)
  | .error _ => (s, false)

/-- A request to the ledger. -/
def ledgerStep (r : Request) (l : Ledger) : Ledger × Bool :=
  match r with
  | .settle id userId charge floor workingTarget reserveTarget =>
    effect l (l.settle names id userId charge floor workingTarget reserveTarget)
  | .refund id => effect l (l.refund names id)

/-- A request to the tables of a pool. -/
def poolStep (le : AccountId → AccountId → Bool) (pool : PoolId) (r : Request) (t : PoolTables) :
    PoolTables × Bool :=
  match r with
  | .settle id userId charge floor workingTarget reserveTarget =>
    effect t ((fun t' => (true, t')) <$>
      t.settle le pool id userId charge floor workingTarget reserveTarget)
  | .refund id => effect t (t.refund le pool id)

/-! ### The parts of a charge -/

/-- A refill of priority `v6` divides a charge as `recycle` does. -/
theorem refill_recycle (q w0 r0 f wt rt : Int) :
    Ledger.refill q w0 r0 f wt rt .v6 = ((recycle q w0 r0 f wt rt).floor,
      (recycle q w0 r0 f wt rt).reserve, (recycle q w0 r0 f wt rt).working) := by
  have hsub : ∀ a : Int, wt - w0 - a = wt - (w0 + a) := fun a => by omega
  simp only [Ledger.refill, recycle, gap_eq, hsub]

variable {names} {l l' : Ledger} {id : SessionId} {u : UserId}

/-! ### Reading the ledger after an operation -/

/-- An identifier that is in use after a hold was entered is its own, or was in use before. -/
theorem used_of_putHold {key k : String} {d : Hold}
    (h : ({ l with holds := l.holds.put key d } : Ledger).Used k) : k = key ∨ l.Used k := by
  rcases h with h | h | h
  · exact .inr (.inl h)
  · have hfound : ((l.holds.put key d).find? k).isSome := h
    rw [Table.find?_put] at hfound
    split at hfound
    · next hk => exact .inl hk.symm
    · exact .inr (.inr (.inl hfound))
  · exact .inr (.inr (.inr h))

/-- The same after a hold was taken out. -/
theorem used_of_takeHold {key k : String} (h : ((l.dropHold key).close key).Used k) :
    k = key ∨ l.Used k := by
  rcases h with h | h | h
  · rcases List.mem_cons.1 h with rfl | h
    · exact .inl rfl
    · exact .inr (.inl h)
  · have hfound : ((l.holds.without key).find? k).isSome := h
    rw [Table.find?_without] at hfound
    split at hfound
    · cases hfound
    · exact .inr (.inr (.inl hfound))
  · exact .inr (.inr (.inr h))

/-- A balance is a part of the exposure. -/
theorem Sound.balance_le_exposure (h : Sound 0 l) (account : String) :
    l.balance account ≤ l.exposure := by
  have hone : l.balance account ≤ l.free.sum fun _ v => v := by
    unfold Ledger.balance
    cases hfree : l.free.find? account with
    | none => exact h.free_nonneg
    | some v => exact Table.le_sum (g := fun _ v => v) hfree fun k v hr => h.free (k, v) hr
  have hholds := h.holds_nonneg
  have hlocked := h.locked_nonneg
  have hjournal := h.journal_nonneg
  have hsupply := h.supply
  unfold Ledger.exposure
  omega

/-- A balance of a sound ledger is in range. -/
theorem Sound.balance_le (h : Sound 0 l) (account : String) : l.balance account ≤ maxInteger :=
  (h.balance_le_exposure account).trans h.bound

/-- A hold that the balance covers. -/
theorem hold_of_covered {key owner : String} {value : Int} (purpose : Purpose)
    (hnew : ¬ l.Used key) (hvalue : 0 ≤ value ∧ value ≤ maxInteger) (howner : owner ≠ continuity)
    (hcovered : value ≤ l.balance owner) :
    l.hold key owner value purpose = .ok (true, { l.credit owner (-value) with
      holds := l.holds.put key ⟨owner, value, purpose⟩ }) := by
  unfold Ledger.hold
  simp only [bind_ok, new_ok, amount_ok, guard_ok]
  refine ⟨(), hnew, (), hvalue, (), howner, ?_⟩
  rw [if_neg (by omega)]
  rfl

/-! ### Settlements -/

/-- What a settlement that takes effect does. -/
structure Settled (names : Names) (l : Ledger) (id : SessionId) (u : UserId) (charge : Int)
    (a : Recycled) (l' : Ledger) : Prop where
  sound : Sound 0 l'
  balance : ∀ other, l'.balance other = l.balance other +
    (if names.owner u = other then -charge else 0) +
    (if working = other then a.floor + a.working else 0) +
    (if Benchmark.reserve = other then a.reserve else 0)
  records : l'.refillRecords = l.refillRecords.put (names.usage id)
    ⟨names.owner u, a.floor + a.working, a.reserve, a.burned⟩
  exposure : l'.exposure = l.exposure - a.burned
  burned : l'.burned = l.burned + a.burned
  reinstated : l'.reinstated = l.reinstated
  used : ∀ k, l'.Used k → k = names.usage id ∨ l.Used k
  closed : l'.closed = names.usage id :: l.closed

/-- The ledger after a usage hold is finalized with the parts of `a`. -/
def Ledger.finalized (l : Ledger) (key : String) (d : Hold) (a : Recycled) : Ledger :=
  { ((l.dropHold key).credit working (a.floor + a.working)).credit reserve a.reserve with
    S := l.S - a.burned
    burned := l.burned + a.burned
    closed := key :: l.closed
    refillRecords := l.refillRecords.put key ⟨d.owner, a.floor + a.working, a.reserve, a.burned⟩ }

/-- A usage hold is finalized with the parts of `recycle`. -/
theorem finalizeUsage_v6 {key : String} {d : Hold} {f wt rt : Int}
    (hd : l.holds.find? key = some d) (hpurpose : d.purpose = .usage)
    (hf : 0 ≤ f ∧ f ≤ maxInteger) (hwt : 0 ≤ wt ∧ wt ≤ maxInteger)
    (hrt : 0 ≤ rt ∧ rt ≤ maxInteger) :
    ∃ parts, l.finalizeUsage key f wt rt .v6 = .ok (parts, l.finalized key d
      (recycle d.value (l.balance working) (l.balance reserve) f wt rt)) := by
  refine ⟨((recycle d.value (l.balance working) (l.balance reserve) f wt rt).floor +
    (recycle d.value (l.balance working) (l.balance reserve) f wt rt).working,
    (recycle d.value (l.balance working) (l.balance reserve) f wt rt).reserve,
    (recycle d.value (l.balance working) (l.balance reserve) f wt rt).burned), ?_⟩
  unfold Ledger.finalizeUsage
  simp only [bind_ok, require_ok, guard_ok, amount_ok, refill_recycle]
  exact ⟨d, hd, (), hpurpose, (), hf, (), hwt, (), hrt, rfl⟩

/-- A covered settlement takes effect.

**Proof sketch.** The key is new and the consumer has the charge, so that the hold is accepted. It
debits the consumer alone, and so the final usage reads the balances from before it. The parts are
credited, the rest is burned, and the key is closed. -/
theorem settle_covered (hs : Sound 0 l) {charge f wt rt : Int}
    (hrange : (Request.settle id u charge f wt rt).InRange) (hnew : ¬ l.Used (names.usage id))
    (hcovered : charge ≤ l.balance (names.owner u)) :
    ∃ l', l.settle names id u charge f wt rt = .ok (true, l') ∧ Settled names l id u charge
      (recycle charge (l.balance working) (l.balance reserve) f wt rt) l' := by
  obtain ⟨hq, hf, hwt, hrt⟩ := hrange
  obtain ⟨hnw, hnr, hnc⟩ := names.owner_ne u
  have hmax := hs.balance_le (names.owner u)
  let d : Hold := ⟨names.owner u, charge, .usage⟩
  let l₁ : Ledger := { l.credit (names.owner u) (-charge) with
    holds := l.holds.put (names.usage id) d }
  have hhold : l.hold (names.usage id) (names.owner u) charge .usage = .ok (true, l₁) :=
    hold_of_covered .usage hnew ⟨hq.le, by omega⟩ hnc hcovered
  have hw : l₁.balance working = l.balance working := by
    show (l.credit _ _).balance working = _
    rw [balance_credit, if_neg hnw, add_zero]
  have hr : l₁.balance reserve = l.balance reserve := by
    show (l.credit _ _).balance reserve = _
    rw [balance_credit, if_neg hnr, add_zero]
  have hfound : l₁.holds.find? (names.usage id) = some d := Table.find?_put_self
  obtain ⟨parts, hfinal⟩ := finalizeUsage_v6 hfound rfl hf hwt hrt
  rw [hw, hr] at hfinal
  have hsound := (hs.hold hhold).finalizeUsage hfinal
  change l₁.finalizeUsage _ _ _ _ _ = .ok (parts, l₁.finalized _ d (recycle charge _ _ _ _ _))
    at hfinal
  change Sound 0 (l₁.finalized _ d (recycle charge _ _ _ _ _)) at hsound
  generalize recycle charge (l.balance working) (l.balance reserve) f wt rt = a at hfinal hsound ⊢
  refine ⟨l₁.finalized (names.usage id) d a, ?_, ?_⟩
  · unfold Ledger.settle
    rw [bind_ok]
    refine ⟨(true, l₁), hhold, ?_⟩
    dsimp only
    rw [if_pos rfl, bind_ok]
    exact ⟨(parts, _), hfinal, rfl⟩
  · refine
      { sound := hsound, balance := ?_, records := rfl, exposure := ?_, burned := rfl
        reinstated := rfl, used := ?_, closed := rfl }
    · intro other
      show (((l.credit (names.owner u) (-charge)).credit working
        (a.floor + a.working)).credit reserve a.reserve).balance other = _
      rw [balance_credit, balance_credit, balance_credit]
    · show l.S - a.burned + l.L + l.J = l.S + l.L + l.J - a.burned
      omega
    · intro k hk
      have htake : ((l₁.dropHold (names.usage id)).close (names.usage id)).Used k := hk
      rcases used_of_takeHold htake with hk | hk
      · exact .inl hk
      · exact used_of_putHold (l := l.credit (names.owner u) (-charge)) hk

/-- A settlement under an identifier in use, or that is not covered, takes no effect. -/
theorem ledgerStep_settle_refused {charge f wt rt : Int}
    (h : l.Used (names.usage id) ∨ l.balance (names.owner u) < charge) :
    ledgerStep names (.settle id u charge f wt rt) l = (l, false) := by
  show effect l (l.settle names id u charge f wt rt) = (l, false)
  unfold Ledger.settle
  cases hhold : l.hold (names.usage id) (names.owner u) charge .usage with
  | error e => rfl
  | ok held =>
    obtain ⟨b, l₁⟩ := held
    obtain ⟨hnew, -, -, ⟨-, rfl, hsame⟩ | ⟨hcovered, -, -⟩⟩ := hold_ok hhold
    · rw [hsame]
      rfl
    · rcases h with hused | hless
      · exact absurd hused hnew
      · omega

/-! ### Refunds -/

/-- What a refund of a charge with the parts of `r` does when it takes effect. -/
structure Refunded (names : Names) (l : Ledger) (id : SessionId) (r : Refill) (l' : Ledger) :
    Prop where
  sound : Sound 0 l'
  balance : ∀ other, l'.balance other = l.balance other +
    (if working = other then -r.working else 0) +
    (if Benchmark.reserve = other then -r.reserve else 0) +
    (if r.owner = other then r.working + r.reserve + r.burn else 0)
  records : l'.refillRecords = l.refillRecords.without (names.usage id)
  exposure : l'.exposure = l.exposure + r.burn
  burned : l'.burned = l.burned
  reinstated : l'.reinstated = l.reinstated + r.burn
  used : ∀ k, l'.Used k → k = names.reversal id ∨ k = names.reversal id ++ ":w" ∨
    k = names.reversal id ++ ":r" ∨ l.Used k
  closed : ∀ k ∈ l.closed, k ∈ l'.closed

/-- The ledger after a reversal is approved. -/
def Ledger.approved (l : Ledger) (key original : String) (r : Refill) : Ledger :=
  { (l.credit working (-r.working)).credit reserve (-r.reserve) with
    holds := (l.holds.put (key ++ ":w") ⟨working, r.working, .reversal⟩).put (key ++ ":r")
      ⟨reserve, r.reserve, .reversal⟩
    refillRecords := l.refillRecords.without original
    reversals := l.reversals.put key r
    J := l.J + r.burn }

/-- A reversal whose parts are covered is approved. -/
theorem approveReversal_covered (hs : Sound 0 l) {key original : String} {r : Refill}
    (hnew : ¬ l.Used key) (hw : ¬ l.Used (key ++ ":w")) (hr : ¬ l.Used (key ++ ":r"))
    (hfound : l.refillRecords.find? original = some r) (hworking : r.working ≤ l.balance working)
    (hreserve : r.reserve ≤ l.balance reserve) (hbound : l.exposure + r.burn ≤ maxInteger) :
    l.approveReversal key original = .ok (true, l.approved key original r) := by
  have hvalid : r.Valid := hs.refills (original, r) (Table.find?_eq_some.1 hfound)
  have hmaxw := hs.balance_le working
  have hmaxr := hs.balance_le reserve
  let l₁ : Ledger := { l.credit working (-r.working) with
    holds := l.holds.put (key ++ ":w") ⟨working, r.working, .reversal⟩ }
  have hfirst : l.hold (key ++ ":w") working r.working .reversal = .ok (true, l₁) :=
    hold_of_covered .reversal hw ⟨hvalid.working, by omega⟩ (by decide) hworking
  have hbalance : l₁.balance reserve = l.balance reserve := by
    show (l.credit _ _).balance reserve = _
    rw [balance_credit, if_neg (by decide), add_zero]
  have hr₁ : ¬ l₁.Used (key ++ ":r") := by
    intro hused
    rcases used_of_putHold (l := l.credit working (-r.working)) hused with hsame | hused
    · exact suffix_ne hsame.symm
    · exact hr hused
  have hsecond := hold_of_covered (l := l₁) .reversal hr₁
    ⟨hvalid.reserve, by omega⟩ (by decide) (hbalance.symm ▸ hreserve)
  unfold Ledger.approveReversal
  simp only [bind_ok, new_ok, require_ok]
  refine ⟨(), hnew, r, hfound, ?_⟩
  rw [if_neg (by omega), if_neg (by omega)]
  simp only [bind_ok, new_ok, pure_ok]
  exact ⟨(), hw, (), hr, (true, l₁), hfirst, _, hsecond, rfl⟩

/-- The ledger after the reversal is posted. -/
def Ledger.reversed (l : Ledger) (key : String) (r : Refill) : Ledger :=
  { l.credit r.owner (r.working + r.reserve + r.burn) with
    holds := (l.holds.without (key ++ ":w")).without (key ++ ":r")
    reversals := l.reversals.without key
    J := l.J - r.burn
    S := l.S + r.burn
    reinstated := l.reinstated + r.burn
    closed := key :: (key ++ ":r") :: (key ++ ":w") :: l.closed }

/-- An approved reversal whose reservations are there is posted. -/
theorem postReversal_reserved {key : String} {r : Refill} (dw dr : Hold)
    (hfound : l.reversals.find? key = some r) (hw : l.holds.find? (key ++ ":w") = some dw)
    (hr : l.holds.find? (key ++ ":r") = some dr) :
    l.postReversal key = .ok (l.reversed key r) := by
  have hr' : (l.holds.without (key ++ ":w")).find? (key ++ ":r") = some dr := by
    rw [Table.find?_without_ne suffix_ne.symm]
    exact hr
  unfold Ledger.postReversal Ledger.spend
  simp only [bind_ok, require_ok, pure_ok]
  exact ⟨r, hfound, _, ⟨dw, hw, rfl⟩, _, ⟨dr, hr', rfl⟩, rfl⟩

/-- A covered refund takes effect.

**Proof sketch.** The approval reserves both parts and records the reversal; the post finds both
reservations and the record, as the three keys differ. Every key in use is an old one or one of the
three. -/
theorem refund_covered (hs : Sound 0 l) {r : Refill} (hnew : ¬ l.Used (names.reversal id))
    (hw : ¬ l.Used (names.reversal id ++ ":w")) (hr : ¬ l.Used (names.reversal id ++ ":r"))
    (hfound : l.refillRecords.find? (names.usage id) = some r)
    (hworking : r.working ≤ l.balance working) (hreserve : r.reserve ≤ l.balance reserve)
    (hbound : l.exposure + r.burn ≤ maxInteger) :
    ∃ l', l.refund names id = .ok (true, l') ∧ Refunded names l id r l' := by
  have happroved := approveReversal_covered hs hnew hw hr hfound hworking hreserve hbound
  have hposted : (l.approved (names.reversal id) (names.usage id) r).postReversal
      (names.reversal id) = .ok _ :=
    postReversal_reserved ⟨working, r.working, .reversal⟩ ⟨reserve, r.reserve, .reversal⟩
      Table.find?_put_self
      (by
        show ((l.holds.put _ _).put _ _).find? _ = _
        rw [Table.find?_put_ne suffix_ne, Table.find?_put_self])
      Table.find?_put_self
  refine ⟨_, ?_,
    { sound := (hs.approveReversal happroved).postReversal hposted
      balance := ?_, records := rfl, exposure := ?_, burned := rfl, reinstated := rfl
      used := ?_, closed := ?_ }⟩
  · unfold Ledger.refund
    rw [bind_ok]
    refine ⟨(true, _), happroved, ?_⟩
    dsimp only
    rw [if_pos rfl, bind_ok]
    exact ⟨_, hposted, rfl⟩
  · intro other
    show (((l.credit working (-r.working)).credit reserve (-r.reserve)).credit r.owner
      (r.working + r.reserve + r.burn)).balance other = _
    rw [balance_credit, balance_credit, balance_credit]
  · show l.S + r.burn + l.L + (l.J + r.burn - r.burn) = l.S + l.L + l.J + r.burn
    omega
  · rintro k (hk | hk | hk | hk)
    · have hclosed : k ∈ names.reversal id :: (names.reversal id ++ ":r") ::
          (names.reversal id ++ ":w") :: l.closed := hk
      simp only [List.mem_cons] at hclosed
      rcases hclosed with h | h | h | h
      · exact .inl h
      · exact .inr (.inr (.inl h))
      · exact .inr (.inl h)
      · exact .inr (.inr (.inr (.inl h)))
    · have hholds : (((((l.holds.put (names.reversal id ++ ":w") _).put
          (names.reversal id ++ ":r") _).without (names.reversal id ++ ":w")).without
          (names.reversal id ++ ":r")).find? k).isSome := hk
      rw [Table.find?_without, Table.find?_without, Table.find?_put, Table.find?_put] at hholds
      grind [Ledger.Used]
    · exact .inr (.inr (.inr (.inr (.inr (.inl hk)))))
    · have hreversals : (((l.reversals.put (names.reversal id) r).without
          (names.reversal id)).find? k).isSome := hk
      rw [Table.find?_without, Table.find?_put] at hreversals
      grind [Ledger.Used]
  · intro k hk
    exact List.mem_cons_of_mem _ (List.mem_cons_of_mem _ (List.mem_cons_of_mem _ hk))

/-- A refund of a charge that is unknown or was reversed, or whose recycled parts are not covered,
takes no effect. -/
theorem ledgerStep_refund_refused
    (h : ∀ r, l.refillRecords.find? (names.usage id) = some r →
      l.balance working < r.working ∨ l.balance reserve < r.reserve) :
    ledgerStep names (.refund id) l = (l, false) := by
  show effect l (l.refund names id) = (l, false)
  unfold Ledger.refund
  cases happrove : l.approveReversal (names.reversal id) (names.usage id) with
  | error e => rfl
  | ok approved =>
    obtain ⟨b, l₁⟩ := approved
    obtain ⟨-, r, hr, ⟨rfl, hsame, -⟩ | ⟨-, hw, hreserve, -⟩⟩ := approveReversal_ok happrove
    · rw [hsame]
      rfl
    · rcases h r hr with hless | hless <;> omega

end NetworkAi.Benchmark
