import NetworkAi.Benchmark.Ledger

set_option relaxedAutoImplicit false
set_option autoImplicit false

/-!
# The audit of the reference ledger

A method of the ledger moves value between balances, holds and the totals beside them, and in the
middle of a method some value is in neither. The invariant is stated with this value, so that every
method is a sequence of a few moves.

## Main definitions

* `NetworkAi.Benchmark.Reserved` — what becomes of a reservation of an approved reversal.
* `NetworkAi.Benchmark.Sound` — the invariant, with the value that is in flight.

## Main results

* `NetworkAi.Benchmark.Sound.credit`, `NetworkAi.Benchmark.Sound.takeHold`, … — the moves.
* `NetworkAi.Benchmark.Sound.apply` — what an operation preserves.
* `NetworkAi.Benchmark.audit_holds` — the audit holds after every sequence of operations.
-/

namespace NetworkAi.Benchmark

open Relational Checked

/-! ### The invariant -/

/-- A hold that may be in the ledger. -/
def Hold.Valid (h : Hold) : Prop := 0 ≤ h.value ∧ h.owner ≠ continuity

/-- A promise that may be in the ledger. -/
def Promise.Valid (p : Promise) : Prop := 0 ≤ p.value ∧ p.recipient ≠ continuity

/-- The parts of a charge that may be in the ledger. -/
structure Refill.Valid (r : Refill) : Prop where
  working : 0 ≤ r.working
  reserve : 0 ≤ r.reserve
  burn : 0 ≤ r.burn
  owner : r.owner ≠ continuity

/-- A reservation holds its value, or has been released, and its identifier is used up. -/
def Reserved (l : Ledger) (key : String) (value : Int) : Prop :=
  (∃ h, l.holds.find? key = some h ∧ h.value = value) ∨
    (l.holds.find? key = none ∧ key ∈ l.closed)

/-- The invariant, while the value `x` is neither in a balance nor in a hold. The caps count what is
promised as issued. -/
structure Sound (x : Int) (l : Ledger) : Prop where
  free : ∀ r ∈ l.free.rows, 0 ≤ r.2
  holds : ∀ r ∈ l.holds.rows, r.2.Valid
  promises : ∀ r ∈ l.promises.rows, r.2.Valid
  refills : ∀ r ∈ l.refillRecords.rows, r.2.Valid
  reversals : ∀ r ∈ l.reversals.rows, r.2.Valid
  supply : l.S = l.free.sum (fun _ v => v) + l.holds.sum (fun _ h => h.value) + x
  locked : l.L = l.promises.sum fun _ p => p.value
  journal : l.J = l.reversals.sum fun _ r => r.burn
  issued : l.S = l.issued - l.burned + l.reinstated
  bound : l.exposure ≤ maxInteger
  treasury : l.treasuryIssued + l.pending .treasury ≤ l.contributorIssued / 19
  grants : l.grantsIssued + l.pending .grant ≤ l.contributorIssued / 49
  continuity : l.free.find? continuity = none
  reserved : ∀ key r, l.reversals.find? key = some r →
    Reserved l (key ++ ":w") r.working ∧ Reserved l (key ++ ":r") r.reserve

/-- The empty ledger is sound. -/
theorem Sound.init : Sound 0 Ledger.init where
  free := by decide
  holds := nofun
  promises := nofun
  refills := nofun
  reversals := nofun
  supply := by decide
  locked := by decide
  journal := by decide
  issued := by decide
  bound := by decide
  treasury := by decide
  grants := by decide
  continuity := by decide
  reserved := fun _ _ h => by cases h

variable {x v : Int} {l l' : Ledger} {key account : String}

/-! ### Reading the ledger -/

/-- The share of an account in the free amounts is its balance. -/
theorem share_free (l : Ledger) (account : String) :
    l.free.share (fun _ v => v) account = l.balance account := by
  unfold Table.share Ledger.balance
  cases l.free.find? account <;> rfl

/-- A credit adds to the balance of its account. -/
theorem balance_credit (account other : String) (v : Int) :
    (l.credit account v).balance other =
      l.balance other + if account = other then v else 0 := by
  show ((l.free.put account _).find? other).getD 0 = _
  rw [Table.find?_put]
  split
  · next h =>
    subst h
    rfl
  · exact (add_zero _).symm

/-- The two reservations of a reversal have different identifiers. -/
theorem suffix_ne {k k' : String} : k ++ ":w" ≠ k' ++ ":r" := by
  intro h
  have hlists := congrArg String.toList h
  rw [String.toList_append, String.toList_append] at hlists
  have hlast := (List.append_inj' hlists (by decide)).2
  revert hlast
  decide

/-- Keys with one suffix are equal if the suffixed keys are. -/
theorem suffix_inj {k k' suffix : String} (h : k ++ suffix = k' ++ suffix) : k = k' := by
  have hlists := congrArg String.toList h
  rw [String.toList_append, String.toList_append] at hlists
  exact String.toList_inj.1 (List.append_cancel_right hlists)

/-- The balances of a sound ledger are nonnegative. -/
theorem Sound.balance_nonneg (h : Sound x l) (account : String) : 0 ≤ l.balance account := by
  unfold Ledger.balance
  cases hfree : l.free.find? account with
  | none => exact le_rfl
  | some v => exact h.free (account, v) (Table.find?_eq_some.1 hfree)

/-- The free amounts of a sound ledger sum to a nonnegative one. -/
theorem Sound.free_nonneg (h : Sound x l) : 0 ≤ l.free.sum fun _ v => v :=
  Table.sum_nonneg fun k v hr => h.free (k, v) hr

/-- The held amounts of a sound ledger sum to a nonnegative one. -/
theorem Sound.holds_nonneg (h : Sound x l) : 0 ≤ l.holds.sum fun _ h => h.value :=
  Table.sum_nonneg fun k hold hr => (h.holds (k, hold) hr).1

/-- The locked supply of a sound ledger is nonnegative. -/
theorem Sound.locked_nonneg (h : Sound x l) : 0 ≤ l.L := by
  rw [h.locked]
  exact Table.sum_nonneg fun k p hr => (h.promises (k, p) hr).1

/-- The promised supply of a sound ledger is nonnegative. -/
theorem Sound.journal_nonneg (h : Sound x l) : 0 ≤ l.J := by
  rw [h.journal]
  exact Table.sum_nonneg fun k r hr => (h.reversals (k, r) hr).burn

/-- What is promised in a class of a sound ledger is nonnegative. -/
theorem Sound.pending_nonneg (h : Sound x l) (kind : Issuance) : 0 ≤ l.pending kind := by
  refine Table.sum_nonneg fun k p hr => ?_
  split
  · exact (h.promises (k, p) hr).1
  · exact le_rfl

/-- **What the invariant is for**: with nothing in flight the audit holds. -/
theorem Sound.audit (h : Sound 0 l) : l.Audit := by
  have hfree := h.free_nonneg
  have hholds := h.holds_nonneg
  have hlocked := h.locked_nonneg
  have hjournal := h.journal_nonneg
  have hsupply := h.supply
  have hbound : l.S + l.L + l.J ≤ maxInteger := h.bound
  refine
    { free := fun r hr => ⟨h.free r hr, ?_⟩
      holds := fun r hr => (h.holds r hr).1
      supply := by omega
      locked := h.locked
      journal := h.journal
      issued := h.issued
      exposure := ⟨?_, hbound⟩
      treasury := ?_
      grants := ?_
      continuity := h.continuity }
  · -- A balance is at most the supply, which is at most the exposure.
    have hone : r.2 ≤ l.free.sum fun _ v => v :=
      Table.le_sum (Table.find?_eq_some.2 hr) fun k v hr => h.free (k, v) hr
    omega
  · show 0 ≤ l.S + l.L + l.J
    omega
  · have hcap := h.treasury
    have hpending := h.pending_nonneg .treasury
    omega
  · have hcap := h.grants
    have hpending := h.pending_nonneg .grant
    omega

/-! ### The moves -/

/-- Closing another key does not touch a reservation. -/
theorem Reserved.close {k : String} {value : Int} (h : Reserved l key value) :
    Reserved (l.close k) key value := by
  rcases h with h | ⟨hnone, hclosed⟩
  · exact .inl h
  · exact .inr ⟨hnone, List.mem_cons_of_mem _ hclosed⟩

/-- An identifier is used up. -/
theorem Sound.close (h : Sound x l) (key : String) : Sound x (l.close key) :=
  { h with reserved := fun k r hr =>
      ⟨(h.reserved k r hr).1.close, (h.reserved k r hr).2.close⟩ }

/-- Value in flight enters an account, or leaves one that covers it. -/
theorem Sound.credit (h : Sound x l) (account : String) (ha : account ≠ Benchmark.continuity)
    (hv : 0 ≤ l.balance account + v) : Sound (x - v) (l.credit account v) :=
  { h with
    free := by
      intro r hr
      rcases Table.mem_put hr with rfl | hr
      · exact hv
      · exact h.free r hr
    supply := by
      have hs := h.supply
      show l.S = (l.free.put account (l.balance account + v)).sum (fun _ v => v) +
        l.holds.sum (fun _ h => h.value) + (x - v)
      rw [Table.sum_put, share_free]
      omega
    continuity := by
      show (l.free.put account _).find? _ = none
      rw [Table.find?_put_ne ha.symm]
      exact h.continuity }

/-- A hold is taken out, and its identifier used up. -/
theorem Sound.takeHold (h : Sound x l) {d : Hold} (hd : l.holds.find? key = some d) :
    Sound (x + d.value) ((l.dropHold key).close key) :=
  { h with
    holds := fun r hr => h.holds r (Table.mem_without hr)
    supply := by
      have hs := h.supply
      show l.S = l.free.sum (fun _ v => v) + (l.holds.without key).sum (fun _ h => h.value) +
        (x + d.value)
      rw [Table.sum_without hd]
      omega
    reserved := by
      have hkeep : ∀ k value, Reserved l k value →
          Reserved ((l.dropHold key).close key) k value := by
        intro k value hk
        by_cases hkey : k = key
        · subst hkey
          exact .inr ⟨Table.find?_without_self, List.mem_cons_self⟩
        · have hsame : (l.holds.without key).find? k = l.holds.find? k :=
            Table.find?_without_ne hkey
          rcases hk with ⟨h, hh, hv⟩ | ⟨hnone, hclosed⟩
          · exact .inl ⟨h, hsame.trans hh, hv⟩
          · exact .inr ⟨hsame.trans hnone, List.mem_cons_of_mem _ hclosed⟩
      intro k r hr
      exact ⟨hkeep _ _ (h.reserved k r hr).1, hkeep _ _ (h.reserved k r hr).2⟩ }

/-- Value in flight enters a hold under a new identifier.

**Proof sketch.** The key is new, so the sum of the holds grows by the value, which the supply has
in flight. A reservation has another key than the new hold, and is found where it was. -/
theorem Sound.putHold (h : Sound x l) {d : Hold} (hnew : ¬ l.Used key) (hd : d.Valid) :
    Sound (x - d.value) { l with holds := l.holds.put key d } := by
  have hnone : l.holds.find? key = none := by
    by_contra hsome
    exact hnew (.inr (.inl (Option.isSome_iff_ne_none.2 hsome)))
  exact
  { h with
    holds := by
      intro r hr
      rcases Table.mem_put hr with rfl | hr
      · exact hd
      · exact h.holds r hr
    supply := by
      have hs := h.supply
      have hshare : l.holds.share (fun _ h => h.value) key = 0 := by
        rw [Table.share, hnone]
        rfl
      show l.S = l.free.sum (fun _ v => v) + (l.holds.put key d).sum (fun _ h => h.value) +
        (x - d.value)
      rw [Table.sum_put, hshare]
      omega
    reserved := by
      have hkeep : ∀ k value, Reserved l k value →
          Reserved { l with holds := l.holds.put key d } k value := by
        intro k value hk
        have hne : k ≠ key := by
          rintro rfl
          rcases hk with ⟨h, hh, -⟩ | ⟨-, hclosed⟩
          · rw [hnone] at hh
            cases hh
          · exact hnew (.inl hclosed)
        have hsame : (l.holds.put key d).find? k = l.holds.find? k := Table.find?_put_ne hne
        rcases hk with ⟨h, hh, hv⟩ | ⟨hn, hclosed⟩
        · exact .inl ⟨h, hsame.trans hh, hv⟩
        · exact .inr ⟨hsame.trans hn, hclosed⟩
      intro k r hr
      exact ⟨hkeep _ _ (h.reserved k r hr).1, hkeep _ _ (h.reserved k r hr).2⟩ }

/-- A promise enters under a new identifier, if the ceiling and the cap of its class allow it.

**Proof sketch.** The key is new, so each sum over the promises grows by the share of this one. The
cap was checked for its class; the pending sum of the other class does not move. -/
theorem Sound.putPromise (h : Sound x l) {p : Promise} (hnew : ¬ l.Used key) (hp : p.Valid)
    (hbound : l.exposure + p.value ≤ maxInteger) (hcap : l.CapAllows p.value p.kind) :
    Sound x { l with promises := l.promises.put key p, L := l.L + p.value } := by
  have hnone : l.promises.find? key = none := by
    by_contra hsome
    exact hnew (.inr (.inr (.inl (Option.isSome_iff_ne_none.2 hsome))))
  have hsum : ∀ g : String → Promise → Int,
      (l.promises.put key p).sum g = l.promises.sum g + g key p := by
    intro g
    rw [Table.sum_put, Table.share, hnone]
    simp
  have hpending : ∀ kind,
      (l.promises.put key p).sum (fun _ p => if p.kind = kind then p.value else 0) =
        l.pending kind + if p.kind = kind then p.value else 0 := fun kind => hsum _
  exact
  { h with
    promises := by
      intro r hr
      rcases Table.mem_put hr with rfl | hr
      · exact hp
      · exact h.promises r hr
    locked := by
      have hl := h.locked
      show l.L + p.value = (l.promises.put key p).sum fun _ p => p.value
      rw [hsum]
      omega
    bound := by
      have hb : l.S + l.L + l.J + p.value ≤ maxInteger := hbound
      show l.S + (l.L + p.value) + l.J ≤ maxInteger
      omega
    treasury := by
      have ht := h.treasury
      show l.treasuryIssued + (l.promises.put key p).sum _ ≤ l.contributorIssued / 19
      rw [hpending]
      split
      · next hk =>
        rw [hk] at hcap
        have hc : l.treasuryIssued + l.pending .treasury + p.value ≤ l.contributorIssued / 19 := hcap
        omega
      · omega
    grants := by
      have hg := h.grants
      show l.grantsIssued + (l.promises.put key p).sum _ ≤ l.contributorIssued / 49
      rw [hpending]
      split
      · next hk =>
        rw [hk] at hcap
        have hc : l.grantsIssued + l.pending .grant + p.value ≤ l.contributorIssued / 49 := hcap
        omega
      · omega }

/-- What is promised in a class without one promise. -/
theorem pending_without {p : Promise} (hp : l.promises.find? key = some p) (kind : Issuance) :
    (l.promises.without key).sum (fun _ p => if p.kind = kind then p.value else 0) =
      l.pending kind - if p.kind = kind then p.value else 0 :=
  Table.sum_without hp _

/-- A promise is released. -/
theorem Sound.dropPromise (h : Sound x l) {p : Promise} (hp : l.promises.find? key = some p) :
    Sound x { l with promises := l.promises.without key, L := l.L - p.value } := by
  have hvalid : p.Valid := h.promises (key, p) (Table.find?_eq_some.1 hp)
  have hcut : ∀ kind, 0 ≤ if p.kind = kind then p.value else 0 := by
    intro kind
    split
    · exact hvalid.1
    · exact le_rfl
  exact
  { h with
    promises := fun r hr => h.promises r (Table.mem_without hr)
    locked := by
      have hl := h.locked
      show l.L - p.value = (l.promises.without key).sum fun _ p => p.value
      rw [Table.sum_without hp]
      omega
    bound := by
      have hb : l.S + l.L + l.J ≤ maxInteger := h.bound
      have hv := hvalid.1
      show l.S + (l.L - p.value) + l.J ≤ maxInteger
      omega
    treasury := by
      have ht := h.treasury
      have hc := hcut .treasury
      show l.treasuryIssued + (l.promises.without key).sum _ ≤ l.contributorIssued / 19
      rw [pending_without hp]
      omega
    grants := by
      have hg := h.grants
      have hc := hcut .grant
      show l.grantsIssued + (l.promises.without key).sum _ ≤ l.contributorIssued / 49
      rw [pending_without hp]
      omega }

/-- A promise is issued: its value leaves `L` and is in flight, counted in the total of its
class.

**Proof sketch.** By the class of the promise. What leaves its pending sum enters its issued total,
so that the cap of the class holds as before; a contributor's promise raises the bound of both caps.
-/
theorem Sound.redeem (h : Sound x l) {p : Promise} (hp : l.promises.find? key = some p) :
    Sound (x + p.value) (({ l with
      promises := l.promises.without key
      L := l.L - p.value
      S := l.S + p.value
      issued := l.issued + p.value } : Ledger).countIssued p.value p.kind) := by
  have hvalid : p.Valid := h.promises (key, p) (Table.find?_eq_some.1 hp)
  have hv := hvalid.1
  have hdrop := h.dropPromise hp
  have hs := h.supply
  have hi := h.issued
  have hb : l.S + l.L + l.J ≤ maxInteger := h.bound
  have ht := h.treasury
  have hg := h.grants
  have hpt := pending_without hp .treasury
  have hpg := pending_without hp .grant
  have hsupply : l.S + p.value = l.free.sum (fun _ v => v) + l.holds.sum (fun _ h => h.value) +
      (x + p.value) := by omega
  have hissued : l.S + p.value = l.issued + p.value - l.burned + l.reinstated := by omega
  have hbound : l.S + p.value + (l.L - p.value) + l.J ≤ maxInteger := by omega
  cases hk : p.kind with
  | contributor =>
    rw [hk] at hpt hpg
    refine { hdrop with
      supply := hsupply, issued := hissued, bound := hbound, treasury := ?_, grants := ?_ }
    · show l.treasuryIssued + (l.promises.without key).sum _ ≤ (l.contributorIssued + p.value) / 19
      rw [hpt, if_neg (by decide)]
      omega
    · show l.grantsIssued + (l.promises.without key).sum _ ≤ (l.contributorIssued + p.value) / 49
      rw [hpg, if_neg (by decide)]
      omega
  | treasury =>
    rw [hk] at hpt hpg
    refine { hdrop with supply := hsupply, issued := hissued, bound := hbound, treasury := ?_ }
    show l.treasuryIssued + p.value + (l.promises.without key).sum _ ≤ l.contributorIssued / 19
    rw [hpt, if_pos rfl]
    omega
  | grant =>
    rw [hk] at hpt hpg
    refine { hdrop with supply := hsupply, issued := hissued, bound := hbound, grants := ?_ }
    show l.grantsIssued + p.value + (l.promises.without key).sum _ ≤ l.contributorIssued / 49
    rw [hpg, if_pos rfl]
    omega

/-- Value in flight is burned. -/
theorem Sound.burn (h : Sound x l) (hv : 0 ≤ v) :
    Sound (x - v) { l with S := l.S - v, burned := l.burned + v } :=
  { h with
    supply := by
      have hs := h.supply
      show l.S - v = l.free.sum (fun _ v => v) + l.holds.sum (fun _ h => h.value) + (x - v)
      omega
    issued := by
      have hi := h.issued
      show l.S - v = l.issued - (l.burned + v) + l.reinstated
      omega
    bound := by
      have hb : l.S + l.L + l.J ≤ maxInteger := h.bound
      show l.S - v + l.L + l.J ≤ maxInteger
      omega }

/-- A finalized charge is recorded, or the record of one deleted. -/
theorem Sound.putRefill (h : Sound x l) (key : String) {r : Refill} (hr : r.Valid) :
    Sound x { l with refillRecords := l.refillRecords.put key r } :=
  { h with
    refills := by
      intro row hrow
      rcases Table.mem_put hrow with rfl | hrow
      · exact hr
      · exact h.refills row hrow }

/-- Dropping a refill record keeps a ledger sound. -/
theorem Sound.dropRefill (h : Sound x l) (key : String) :
    Sound x { l with refillRecords := l.refillRecords.without key } :=
  { h with refills := fun row hrow => h.refills row (Table.mem_without hrow) }

/-- A reversal enters under an identifier that has no reversal, when its parts are reserved and the
exposure allows the burned one. -/
theorem Sound.putReversal (h : Sound x l) {r : Refill} (hnone : l.reversals.find? key = none)
    (hr : r.Valid) (hbound : l.exposure + r.burn ≤ maxInteger)
    (hw : Reserved l (key ++ ":w") r.working) (hreserve : Reserved l (key ++ ":r") r.reserve) :
    Sound x { l with reversals := l.reversals.put key r, J := l.J + r.burn } :=
  { h with
    reversals := by
      intro row hrow
      rcases Table.mem_put hrow with rfl | hrow
      · exact hr
      · exact h.reversals row hrow
    journal := by
      have hj := h.journal
      show l.J + r.burn = (l.reversals.put key r).sum fun _ r => r.burn
      rw [Table.sum_put, Table.share, hnone]
      simp only [Option.elim_none]
      omega
    bound := by
      have hb : l.S + l.L + l.J + r.burn ≤ maxInteger := hbound
      show l.S + l.L + (l.J + r.burn) ≤ maxInteger
      omega
    reserved := by
      intro k row hrow
      have hfound : (l.reversals.put key r).find? k = some row := hrow
      rw [Table.find?_put] at hfound
      split at hfound
      · next hk =>
        subst hk
        obtain rfl := Option.some.inj hfound
        exact ⟨hw, hreserve⟩
      · exact h.reserved k row hfound }

/-- A reversal is posted: its burned part leaves `J` and is in flight. -/
theorem Sound.takeReversal (h : Sound x l) {r : Refill} (hr : l.reversals.find? key = some r) :
    Sound (x + r.burn) { l with
      reversals := l.reversals.without key
      J := l.J - r.burn
      S := l.S + r.burn
      reinstated := l.reinstated + r.burn } :=
  { h with
    reversals := fun row hrow => h.reversals row (Table.mem_without hrow)
    supply := by
      have hs := h.supply
      show l.S + r.burn = l.free.sum (fun _ v => v) + l.holds.sum (fun _ h => h.value) +
        (x + r.burn)
      omega
    journal := by
      have hj := h.journal
      show l.J - r.burn = (l.reversals.without key).sum fun _ r => r.burn
      rw [Table.sum_without hr]
      omega
    issued := by
      have hi := h.issued
      show l.S + r.burn = l.issued - l.burned + (l.reinstated + r.burn)
      omega
    bound := by
      have hb : l.S + l.L + l.J ≤ maxInteger := h.bound
      show l.S + r.burn + l.L + (l.J - r.burn) ≤ maxInteger
      omega
    reserved := by
      intro k row hrow
      have hfound : (l.reversals.without key).find? k = some row := hrow
      rw [Table.find?_without] at hfound
      split at hfound
      · cases hfound
      · exact h.reserved k row hfound }

/-! ### The operations -/

/-- A key is accepted as new exactly if it was never used. -/
theorem new_ok {u : Unit} : l.new key = .ok u ↔ ¬ l.Used key := guard_ok

/-- An amount is accepted exactly if it is in range. -/
theorem amount_ok {value : Int} {u : Unit} :
    amount value = .ok u ↔ 0 ≤ value ∧ value ≤ maxInteger := guard_ok

/-- Promising keeps a ledger sound. -/
theorem Sound.promise (h : Sound 0 l) {recipient : String} {value ceiling : Int} {kind : Issuance}
    {b : Bool} (hok : l.promise key recipient value ceiling kind = .ok (b, l'))
    (hrecipient : recipient ≠ Benchmark.continuity) : Sound 0 l' := by
  unfold Ledger.promise at hok
  simp only [bind_ok, new_ok, amount_ok] at hok
  obtain ⟨-, hnew, -, hvalue, -, -, hok⟩ := hok
  split at hok
  · cases hok
    exact h
  · next hceiling =>
    split at hok
    · next hcap =>
      cases hok
      exact h.putPromise (p := ⟨recipient, value, kind⟩) hnew ⟨hvalue.1, hrecipient⟩
        (by show l.exposure + value ≤ _; omega) hcap
    · cases hok
      exact h

/-- Releasing a promise keeps a ledger sound. -/
theorem Sound.releasePromise (h : Sound 0 l) (hok : l.releasePromise key = .ok l') :
    Sound 0 l' := by
  unfold Ledger.releasePromise at hok
  simp only [bind_ok, require_ok, pure_ok] at hok
  obtain ⟨p, hp, rfl⟩ := hok
  exact (h.dropPromise hp).close key

/-- Issuing keeps a ledger sound. -/
theorem Sound.issue (h : Sound 0 l) {value : Int} (hok : l.issue key = .ok (value, l')) :
    Sound 0 l' := by
  unfold Ledger.issue at hok
  simp only [bind_ok, require_ok, pure_ok, Prod.mk.injEq] at hok
  obtain ⟨p, hp, rfl, rfl⟩ := hok
  have hvalid : p.Valid := h.promises (key, p) (Table.find?_eq_some.1 hp)
  have hredeemed := h.redeem hp
  have hcredit := hredeemed.credit (v := p.value) p.recipient hvalid.2 (by
    have hbalance := hredeemed.balance_nonneg p.recipient
    have hv := hvalid.1
    omega)
  have hclosed := hcredit.close key
  have hzero : (0 : Int) + p.value - p.value = 0 := by omega
  rw [hzero] at hclosed
  cases hk : p.kind <;> rw [hk] at hclosed <;> exact hclosed

/-- What a hold that does not raise does. -/
theorem hold_ok {owner : String} {value : Int} {purpose : Purpose} {b : Bool}
    (hok : l.hold key owner value purpose = .ok (b, l')) :
    ¬ l.Used key ∧ (0 ≤ value ∧ value ≤ maxInteger) ∧ owner ≠ Benchmark.continuity ∧
      ((l.balance owner < value ∧ b = false ∧ l' = l) ∨
        (value ≤ l.balance owner ∧ b = true ∧
          l' = { l.credit owner (-value) with
            holds := l.holds.put key ⟨owner, value, purpose⟩ })) := by
  unfold Ledger.hold at hok
  simp only [bind_ok, new_ok, amount_ok, guard_ok] at hok
  obtain ⟨-, hnew, -, hvalue, -, howner, hok⟩ := hok
  refine ⟨hnew, hvalue, howner, ?_⟩
  split at hok
  · next hmore =>
    cases hok
    exact .inl ⟨by omega, rfl, rfl⟩
  · next hcovered =>
    cases hok
    exact .inr ⟨by omega, rfl, rfl⟩

/-- Holding keeps a ledger sound. -/
theorem Sound.hold (h : Sound 0 l) {owner : String} {value : Int} {purpose : Purpose} {b : Bool}
    (hok : l.hold key owner value purpose = .ok (b, l')) : Sound 0 l' := by
  obtain ⟨hnew, hvalue, howner, ⟨-, -, rfl⟩ | ⟨hcovered, -, rfl⟩⟩ := hold_ok hok
  · exact h
  · have hcredit := h.credit (v := -value) owner howner (by omega)
    have hput := hcredit.putHold (d := ⟨owner, value, purpose⟩) hnew ⟨hvalue.1, howner⟩
    have hzero : (0 : Int) - -value - value = 0 := by omega
    rw [hzero] at hput
    exact hput

/-- What is taken out of a hold enters an account. -/
theorem Sound.pay (h : Sound 0 l) {d : Hold} (hd : l.holds.find? key = some d)
    (ha : account ≠ Benchmark.continuity) :
    Sound 0 (((l.dropHold key).credit account d.value).close key) := by
  have hvalid : d.Valid := h.holds (key, d) (Table.find?_eq_some.1 hd)
  have htaken := h.takeHold hd
  have hcredit := htaken.credit (v := d.value) account ha (by
    have hbalance := htaken.balance_nonneg account
    have hv := hvalid.1
    omega)
  have hzero : (0 : Int) + d.value - d.value = 0 := by omega
  rw [hzero] at hcredit
  exact hcredit

/-- Releasing a hold keeps a ledger sound. -/
theorem Sound.release (h : Sound 0 l) (hok : l.release key = .ok l') : Sound 0 l' := by
  unfold Ledger.release at hok
  simp only [bind_ok, require_ok, pure_ok] at hok
  obtain ⟨d, hd, rfl⟩ := hok
  exact h.pay hd (h.holds (key, d) (Table.find?_eq_some.1 hd)).2

/-- Paying a ready provider keeps a ledger sound. -/
theorem Sound.payReady (h : Sound 0 l) {recipient : String} {value : Int}
    (hok : l.payReady key recipient = .ok (value, l'))
    (hrecipient : recipient ≠ Benchmark.continuity) : Sound 0 l' := by
  unfold Ledger.payReady at hok
  simp only [bind_ok, require_ok, guard_ok, pure_ok, Prod.mk.injEq] at hok
  obtain ⟨d, hd, -, -, rfl, rfl⟩ := hok
  exact h.pay hd hrecipient

/-- The parts of a charge are not negative, and are no more than the charge. -/
theorem refill_parts {q : Int} (hq : 0 ≤ q) (w0 r0 floor wt rt : Int) (priority : Priority) :
    ∃ a p w, Ledger.refill q w0 r0 floor wt rt priority = (a, p, w) ∧ 0 ≤ a ∧ 0 ≤ p ∧ 0 ≤ w ∧
      a + p + w ≤ q := by
  cases priority with
  | v6 => exact ⟨_, _, _, rfl, by omega, by omega, by omega, by omega⟩
  | reserveFirst => exact ⟨_, _, _, rfl, by omega, by omega, by omega, by omega⟩
  | single => exact ⟨_, _, _, rfl, by omega, by omega, by omega, by omega⟩

/-- A charge keeps a ledger sound. -/
theorem Sound.finalizeUsage (h : Sound 0 l) {floor wt rt : Int} {priority : Priority}
    {parts : Int × Int × Int}
    (hok : l.finalizeUsage key floor wt rt priority = .ok (parts, l')) : Sound 0 l' := by
  unfold Ledger.finalizeUsage at hok
  simp only [bind_ok, require_ok, guard_ok, amount_ok, pure_ok, Prod.mk.injEq] at hok
  obtain ⟨d, hd, -, -, -, -, -, -, -, -, -, rfl⟩ := hok
  have hvalid : d.Valid := h.holds (key, d) (Table.find?_eq_some.1 hd)
  obtain ⟨a, p, w, hparts, ha, hp, hw, hsum⟩ :=
    refill_parts hvalid.1 (l.balance working) (l.balance reserve) floor wt rt priority
  rw [hparts]
  have htaken := h.takeHold hd
  have hworking := htaken.credit (v := a + w) working (by decide) (by
    have hbalance := htaken.balance_nonneg working
    omega)
  have hreserve := hworking.credit (v := p) reserve (by decide) (by
    have hbalance := hworking.balance_nonneg reserve
    omega)
  have hburned := hreserve.burn (v := d.value - a - p - w) (by omega)
  have hrecorded := hburned.putRefill key
    (r := ⟨d.owner, a + w, p, d.value - a - p - w⟩) ⟨by show 0 ≤ a + w; omega, hp, by
      show 0 ≤ d.value - a - p - w
      omega, hvalid.2⟩
  have hzero : (0 : Int) + d.value - (a + w) - p - (d.value - a - p - w) = 0 := by omega
  rw [hzero] at hrecorded
  exact hrecorded

/-- What an approval that does not raise does. -/
theorem approveReversal_ok {original : String} {b : Bool}
    (hok : l.approveReversal key original = .ok (b, l')) :
    ¬ l.Used key ∧ ∃ r, l.refillRecords.find? original = some r ∧
      ((b = false ∧ l' = l ∧ (l.balance working < r.working ∨ l.balance reserve < r.reserve ∨
          maxInteger < l.exposure + r.burn)) ∨
        (b = true ∧ r.working ≤ l.balance working ∧ r.reserve ≤ l.balance reserve ∧
          l.exposure + r.burn ≤ maxInteger ∧ ∃ b₁ b₂ l₁ l₂,
          l.hold (key ++ ":w") working r.working .reversal = .ok (b₁, l₁) ∧
          l₁.hold (key ++ ":r") reserve r.reserve .reversal = .ok (b₂, l₂) ∧
          l' = { l₂ with
            refillRecords := l₂.refillRecords.without original
            reversals := l₂.reversals.put key r
            J := l₂.J + r.burn })) := by
  unfold Ledger.approveReversal at hok
  simp only [bind_ok, new_ok, require_ok] at hok
  obtain ⟨-, hnew, r, hr, hok⟩ := hok
  refine ⟨hnew, r, hr, ?_⟩
  split at hok
  · next hshort =>
    cases hok
    exact .inl ⟨rfl, rfl, hshort.imp id .inl⟩
  · next hcovered =>
    rw [not_or] at hcovered
    split at hok
    · next hmore =>
      cases hok
      exact .inl ⟨rfl, rfl, .inr (.inr (by omega))⟩
    · next hbound =>
      simp only [bind_ok, new_ok, pure_ok, Prod.mk.injEq, Prod.exists] at hok
      obtain ⟨-, -, -, -, b₁, l₁, h₁, b₂, l₂, h₂, rfl, rfl⟩ := hok
      exact .inr ⟨rfl, by omega, by omega, by omega, b₁, b₂, l₁, l₂, h₁, h₂, rfl⟩

/-- Approving a reversal keeps a ledger sound. -/
theorem Sound.approveReversal (h : Sound 0 l) {original : String} {b : Bool}
    (hok : l.approveReversal key original = .ok (b, l')) : Sound 0 l' := by
  obtain ⟨hnew, r, hr, ⟨-, rfl, -⟩ | ⟨-, hw, hreserve, hbound, b₁, b₂, l₁, l₂, h₁, h₂, rfl⟩⟩ :=
    approveReversal_ok hok
  · exact h
  · have hsound₁ := h.hold h₁
    have hsound₂ := hsound₁.hold h₂
    -- Both reservations are covered.
    obtain ⟨-, -, -, ⟨hless, -, -⟩ | ⟨-, -, rfl⟩⟩ := hold_ok h₁
    · omega
    obtain ⟨-, -, -, ⟨hless, -, -⟩ | ⟨-, -, rfl⟩⟩ := hold_ok h₂
    · have hless' : (l.credit working (-r.working)).balance reserve < r.reserve := hless
      rw [balance_credit, if_neg (by decide)] at hless'
      omega
    have hnone : l.reversals.find? key = none := by
      by_contra hsome
      exact hnew (.inr (.inr (.inr (Option.isSome_iff_ne_none.2 hsome))))
    refine (hsound₂.dropRefill original).putReversal hnone
      (h.refills (original, r) (Table.find?_eq_some.1 hr)) hbound ?_ ?_
    · refine .inl ⟨⟨working, r.working, .reversal⟩, ?_, rfl⟩
      show ((l.holds.put (key ++ ":w") _).put (key ++ ":r") _).find? (key ++ ":w") = _
      rw [Table.find?_put_ne suffix_ne, Table.find?_put_self]
    · refine .inl ⟨⟨reserve, r.reserve, .reversal⟩, ?_, rfl⟩
      show ((l.holds.put (key ++ ":w") _).put (key ++ ":r") _).find? (key ++ ":r") = _
      rw [Table.find?_put_self]

/-- A reservation that is there holds its value. -/
theorem Reserved.value {value : Int} (h : Reserved l key value) {d : Hold}
    (hd : l.holds.find? key = some d) : d.value = value := by
  rcases h with ⟨d', hd', hv⟩ | ⟨hnone, -⟩
  · rw [hd] at hd'
    obtain rfl := Option.some.inj hd'
    exact hv
  · rw [hd] at hnone
    cases hnone

/-- Posting a reversal keeps a ledger sound. -/
theorem Sound.postReversal (h : Sound 0 l) (hok : l.postReversal key = .ok l') : Sound 0 l' := by
  unfold Ledger.postReversal Ledger.spend at hok
  simp only [bind_ok, require_ok, pure_ok] at hok
  obtain ⟨r, hr, l₁, ⟨dw, hdw, rfl⟩, l₂, ⟨dr, hdr, rfl⟩, rfl⟩ := hok
  have hvalid : r.Valid := h.reversals (key, r) (Table.find?_eq_some.1 hr)
  obtain ⟨hworking, hreserve⟩ := h.reserved key r hr
  have hvw : dw.value = r.working := hworking.value hdw
  have hvr : dr.value = r.reserve := by
    refine hreserve.value ?_
    have hfound : (l.holds.without (key ++ ":w")).find? (key ++ ":r") = some dr := hdr
    rw [Table.find?_without_ne suffix_ne.symm] at hfound
    exact hfound
  have hposted := h.takeReversal hr
  have hw := hposted.takeHold (d := dw) hdw
  have hr' := hw.takeHold (d := dr) hdr
  have hcredit := hr'.credit (v := r.working + r.reserve + r.burn) r.owner hvalid.owner (by
    have hbalance := hr'.balance_nonneg r.owner
    have h₁ := hvalid.working
    have h₂ := hvalid.reserve
    have h₃ := hvalid.burn
    omega)
  have hclosed := hcredit.close key
  have hzero : (0 : Int) + r.burn + dw.value + dr.value - (r.working + r.reserve + r.burn) = 0 := by
    omega
  rw [hzero] at hclosed
  exact hclosed

/-- **What an operation preserves.** -/
theorem Sound.apply (h : Sound 0 l) {op : Op} (hop : op.Allowed) (hok : l.apply op = .ok l') :
    Sound 0 l' := by
  cases op with
  | promise key recipient value ceiling kind =>
    obtain ⟨⟨b, l₁⟩, h₁, rfl⟩ := map_ok.1 hok
    exact h.promise h₁ hop
  | releasePromise key => exact h.releasePromise hok
  | issue key =>
    obtain ⟨⟨value, l₁⟩, h₁, rfl⟩ := map_ok.1 hok
    exact h.issue h₁
  | hold key owner value purpose =>
    obtain ⟨⟨b, l₁⟩, h₁, rfl⟩ := map_ok.1 hok
    exact h.hold h₁
  | release key => exact h.release hok
  | payReady key recipient =>
    obtain ⟨⟨value, l₁⟩, h₁, rfl⟩ := map_ok.1 hok
    exact h.payReady h₁ hop
  | finalizeUsage key floor wt rt priority =>
    obtain ⟨⟨parts, l₁⟩, h₁, rfl⟩ := map_ok.1 hok
    exact h.finalizeUsage h₁
  | approveReversal key original =>
    obtain ⟨⟨b, l₁⟩, h₁, rfl⟩ := map_ok.1 hok
    exact h.approveReversal h₁
  | postReversal key => exact h.postReversal hok

/-- A sequence of allowed operations keeps a ledger sound. -/
theorem Sound.applyAll (h : Sound 0 l) {ops : List Op} (hops : ∀ op ∈ ops, op.Allowed)
    (hok : l.applyAll ops = .ok l') : Sound 0 l' :=
  foldlM_invariant hok h fun _ op _ hop hs hstep => hs.apply (hops op hop) hstep

/-- **The audit holds after every sequence of operations**, from a new ledger, when none of them
raises and none gives anything to the journal compartment.

**Proof sketch.** A new ledger is sound, every operation that is allowed keeps it sound, and
soundness contains the audit. -/
theorem audit_holds {ops : List Op} (hops : ∀ op ∈ ops, op.Allowed)
    (hok : Ledger.init.applyAll ops = .ok l) : l.Audit :=
  (Sound.init.applyAll hops hok).audit

/-- A charge is reversed twice over: one reversal is posted, the other loses a reservation. -/
def twoReversals : List Op :=
  [.promise "p" "user" 1900 maxInteger .contributor, .issue "p",
    .promise "t" working 100 maxInteger .treasury, .issue "t",
    .hold "a" "user" 300 .usage, .finalizeUsage "a" 200 350 100 .v6,
    .hold "b" "user" 90 .usage, .finalizeUsage "b" 200 350 150 .reserveFirst,
    .approveReversal "x" "a", .postReversal "x", .approveReversal "y" "b", .release "y:r"]

/-- After two reversals of one charge the audit holds. -/
theorem audit_holds_twoReversals :
    ∃ l, Ledger.init.applyAll twoReversals = .ok l ∧ l.reversals.rows.length = 1 ∧ l.Audit := by
  obtain ⟨l, hl⟩ := ok_of_toOption
    (x := Ledger.init.applyAll twoReversals) (by decide +kernel)
  have hone : ((Ledger.init.applyAll twoReversals).toOption.map fun l =>
      l.reversals.rows.length) = some 1 := by decide +kernel
  rw [hl] at hone
  exact ⟨l, hl, Option.some.inj hone, audit_holds (by decide) hl⟩

end NetworkAi.Benchmark
