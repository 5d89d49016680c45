import NetworkAi.Lib.Stateful
import NetworkAi.Lib.Machine
import NetworkAi.Benchmark.Audit

set_option relaxedAutoImplicit false
set_option autoImplicit false

/-!
# Failing calls of the reference ledger

A method of the ledger updates the instance in place, and what it did stays when it raises.  The
methods are given here line by line, with the texts that their checks reject, and the runs include
the calls that fail.  A call that raises or returns `False` leaves the instance as it was, except
that a reversal is posted whose reservations are no longer both there.

## Main definitions

* `NetworkAi.Benchmark.Method` — a method, with the instance it leaves.
* `NetworkAi.Benchmark.Call`, `NetworkAi.Benchmark.Call.run` — the calls with arbitrary texts.
* `NetworkAi.Benchmark.Atomic` — a call that fails changes nothing.
* `NetworkAi.Benchmark.Ledger.Bare` — a pending reversal without one of its reservations.

## Main results

* `NetworkAi.Benchmark.run_settles` — but for posted reversals, a method does what the function of
  the same name does, all at once or not at all.
* `NetworkAi.Benchmark.Ledger.InRange.run` — the amounts stay in range, whatever fails.
* `NetworkAi.Benchmark.ledger_atomicity` — exactly the posts of bare reversals are not atomic.
-/

namespace NetworkAi.Benchmark

open Relational Checked
open Stateful (Prog get modify bind_def)

/-! ### Methods -/

/-- A method: what it returns or raises, and the instance it leaves. -/
abbrev Method (α : Type) := Prog Ledger Raised α

/-- A check or a computation that does not change the instance. -/
def inspect {α : Type} (f : Ledger → Except Raised α) : Method α := fun l => (f l, l)

/-- `kind`. -/
def issuance (kind : String) : Except Raised Issuance :=
  if kind = "contributor" then .ok .contributor
  else if kind = "treasury" then .ok .treasury
  else if kind = "grant" then .ok .grant
  else .error (.valueError "unknown issuance class")

/-- `purpose`, with the owner of the hold. -/
def purposeOf (owner purpose : String) : Except Raised Purpose :=
  if owner = continuity then .error (.valueError "invalid journal compartment or purpose")
  else if purpose = "ready" then .ok .ready
  else if purpose = "usage" then .ok .usage
  else if purpose = "reversal" then .ok .reversal
  else .error (.valueError "invalid journal compartment or purpose")

/-- `priority`. -/
def priorityOf (priority : String) : Except Raised Priority :=
  if priority = "v6" then .ok .v6
  else if priority = "reserve_first" then .ok .reserveFirst
  else if priority = "single" then .ok .single
  else .error (.valueError "unknown refill priority")

namespace Run

/-- `promise`. -/
def promise (key recipient : String) (value ceiling : Int) (kind : String) : Method Bool := do
  inspect fun l => l.new key
  inspect fun _ => amount value
  inspect fun _ => amount ceiling
  let kind ← inspect fun _ => issuance kind
  let l ← get
  if l.exposure + value > min ceiling maxInteger then return false
  else if l.CapAllows value kind then
    modify fun l => { l with promises := l.promises.put key ⟨recipient, value, kind⟩ }
    modify fun l => { l with L := l.L + value }
    return true
  else return false

/-- `self.promises.pop(key)`. -/
def popPromise (key : String) : Method Promise := do
  let p ← inspect fun l => require (l.promises.find? key) (.keyError key)
  modify fun l => { l with promises := l.promises.without key }
  return p

/-- `release_promise`. -/
def releasePromise (key : String) : Method Unit := do
  let p ← popPromise key
  modify fun l => { l with L := l.L - p.value }
  modify fun l => l.close key

/-- `issue`. -/
def issue (key : String) : Method Int := do
  let p ← popPromise key
  modify fun l => { l with L := l.L - p.value }
  modify fun l => { l with S := l.S + p.value }
  modify fun l => { l with issued := l.issued + p.value }
  modify fun l => l.credit p.recipient p.value
  modify fun l => l.countIssued p.value p.kind
  modify fun l => l.close key
  return p.value

/-- `hold`. -/
def hold (key owner : String) (value : Int) (purpose : String) : Method Bool := do
  inspect fun l => l.new key
  inspect fun _ => amount value
  let purpose ← inspect fun _ => purposeOf owner purpose
  let l ← get
  if value > l.balance owner then return false
  else
    modify fun l => l.credit owner (-value)
    modify fun l => { l with holds := l.holds.put key ⟨owner, value, purpose⟩ }
    return true

/-- `self.holds.pop(key)`. -/
def popHold (key : String) : Method Hold := do
  let hold ← inspect fun l => require (l.holds.find? key) (.keyError key)
  modify fun l => l.dropHold key
  return hold

/-- `release`. -/
def release (key : String) : Method Unit := do
  let hold ← popHold key
  modify fun l => l.credit hold.owner hold.value
  modify fun l => l.close key

/-- `pay_ready`. -/
def payReady (key recipient : String) : Method Int := do
  let hold ← inspect fun l => require (l.holds.find? key) (.keyError key)
  inspect fun _ => guard (hold.purpose = .ready ∧ (hold.owner = working ∨ hold.owner = reserve))
    (.valueError "READY must be funded by a treasury READY hold")
  let _ ← popHold key
  modify fun l => l.credit recipient hold.value
  modify fun l => l.close key
  return hold.value

/-- `finalize_usage`. -/
def finalizeUsage (key : String) (floor workingTarget reserveTarget : Int) (priority : String) :
    Method (Int × Int × Int) := do
  let hold ← inspect fun l => require (l.holds.find? key) (.keyError key)
  inspect fun _ => guard (hold.purpose = .usage)
    (.valueError "usage settlement requires a usage hold")
  inspect fun _ => amount floor
  inspect fun _ => amount workingTarget
  inspect fun _ => amount reserveTarget
  let priority ← inspect fun _ => priorityOf priority
  let l ← get
  let (a, p, w) := Ledger.refill hold.value (l.balance working) (l.balance reserve) floor
    workingTarget reserveTarget priority
  let burn := hold.value - a - p - w
  let _ ← popHold key
  modify fun l => l.credit working (a + w)
  modify fun l => l.credit reserve p
  modify fun l => { l with S := l.S - burn }
  modify fun l => { l with burned := l.burned + burn }
  modify fun l => l.close key
  modify fun l => { l with refillRecords := l.refillRecords.put key ⟨hold.owner, a + w, p, burn⟩ }
  return (a + w, p, burn)

/-- `approve_reversal`; what the two calls of `hold` return is not looked at. -/
def approveReversal (key original : String) : Method Bool := do
  inspect fun l => l.new key
  let r ← inspect fun l => require (l.refillRecords.find? original)
    (.valueError "unknown or already reversed finalized charge")
  let l ← get
  if l.balance working < r.working ∨ l.balance reserve < r.reserve then return false
  else if l.exposure + r.burn > maxInteger then return false
  else
    inspect fun l => l.new (key ++ ":w")
    inspect fun l => l.new (key ++ ":r")
    let _ ← hold (key ++ ":w") working r.working "reversal"
    let _ ← hold (key ++ ":r") reserve r.reserve "reversal"
    modify fun l => { l with refillRecords := l.refillRecords.without original }
    modify fun l => { l with reversals := l.reversals.put key r }
    modify fun l => { l with J := l.J + r.burn }
    return true

/-- The body of the loop of `post_reversal`. -/
def spend (key : String) : Method Unit := do
  let _ ← popHold key
  modify fun l => l.close key

/-- `post_reversal`. -/
def postReversal (key : String) : Method Unit := do
  let r ← inspect fun l => require (l.reversals.find? key) (.keyError key)
  modify fun l => { l with reversals := l.reversals.without key }
  spend (key ++ ":w")
  spend (key ++ ":r")
  modify fun l => l.credit r.owner (r.working + r.reserve + r.burn)
  modify fun l => { l with J := l.J - r.burn }
  modify fun l => { l with S := l.S + r.burn }
  modify fun l => { l with reinstated := l.reinstated + r.burn }
  modify fun l => l.close key

end Run

/-! ### Calls -/

/-- The calls of the methods, with any texts. -/
inductive Call where
  | promise (key recipient : String) (value ceiling : Int) (kind : String)
  | releasePromise (key : String)
  | issue (key : String)
  | hold (key owner : String) (value : Int) (purpose : String)
  | release (key : String)
  | payReady (key recipient : String)
  | finalizeUsage (key : String) (floor workingTarget reserveTarget : Int) (priority : String)
  | approveReversal (key original : String)
  | postReversal (key : String)
  deriving DecidableEq, Repr

/-- What a method returns. -/
inductive Answer where
  | none
  | bool (b : Bool)
  | int (n : Int)
  | parts (working reserve burn : Int)
  deriving DecidableEq, Repr

/-- A call and the instance it leaves. -/
def Call.run : Call → Method Answer
  | .promise key recipient value ceiling kind =>
    .bool <$> Run.promise key recipient value ceiling kind
  | .releasePromise key => (fun _ => .none) <$> Run.releasePromise key
  | .issue key => .int <$> Run.issue key
  | .hold key owner value purpose => .bool <$> Run.hold key owner value purpose
  | .release key => (fun _ => .none) <$> Run.release key
  | .payReady key recipient => .int <$> Run.payReady key recipient
  | .finalizeUsage key floor workingTarget reserveTarget priority =>
    (fun parts => .parts parts.1 parts.2.1 parts.2.2) <$>
      Run.finalizeUsage key floor workingTarget reserveTarget priority
  | .approveReversal key original => .bool <$> Run.approveReversal key original
  | .postReversal key => (fun _ => .none) <$> Run.postReversal key

/-- The ledger as a machine: a call may fail, and the next one goes on with what it left. -/
def ledgerMachine : Machine.System Ledger Call where
  init l := l = Ledger.init
  step call l := (call.run l).2

/-! ### Methods and functions -/

section Rules

variable {α β : Type} {l : Ledger}

/-- A method that first inspects the ledger stops where the inspection fails. -/
@[simp] theorem inspect_bind (f : Ledger → Except Raised α) (g : α → Method β) :
    (inspect f >>= g) l = match f l with
      | .ok a => g a l
      | .error e => (.error e, l) := by
  rw [bind_def, inspect]
  cases f l <;> rfl

/-- A method that first reads the ledger goes on with it. -/
@[simp] theorem get_bind (g : Ledger → Method β) : (get >>= g) l = g l l := rfl

/-- A method that first changes the ledger goes on with the changed one. -/
@[simp] theorem modify_bind (f : Ledger → Ledger) (g : Unit → Method β) :
    (modify f >>= g) l = g () (f l) := rfl

/-- A branching of methods is a branching of their runs. -/
@[simp] theorem ite_method (c : Prop) [Decidable c] (x y : Method α) :
    (if c then x else y) l = if c then x l else y l := by
  split <;> rfl

/-- The end of a method that does what a function does, all at once or not at all. -/
def settle (r : Except Raised (α × Ledger)) (l : Ledger) : Except Raised α × Ledger :=
  match r with
  | .ok (a, l') => (.ok a, l')
  | .error e => (.error e, l)

/-- What follows a check that fails is not run, and the ledger stays as it is. -/
@[simp] theorem settle_bind (x : Except Raised β) (g : β → Except Raised (α × Ledger)) :
    settle (x >>= g) l = match x with
      | .ok b => settle (g b) l
      | .error e => (.error e, l) := by
  cases x <;> rfl

/-- A result with its ledger is what the method leaves. -/
@[simp] theorem settle_pure (a : α) (l' : Ledger) :
    settle (pure (a, l')) l = (.ok a, l') := rfl

/-- A branching settles as its branches do. -/
@[simp] theorem settle_ite (c : Prop) [Decidable c] (x y : Except Raised (α × Ledger)) :
    settle (if c then x else y) l = if c then settle x l else settle y l := by
  split <;> rfl

end Rules

variable {l l' : Ledger} {key : String}

/-- The method `promise` of the source does what the model's operation does, or leaves the ledger.
-/
theorem promise_settles (recipient : String) (value ceiling : Int) {kind : String} {k : Issuance}
    (hk : issuance kind = .ok k) :
    Run.promise key recipient value ceiling kind l =
      settle (l.promise key recipient value ceiling k) l := by
  simp only [Run.promise, Ledger.promise, inspect_bind, settle_bind, hk, get_bind, ite_method,
    settle_ite, modify_bind]
  rfl

/-- The method `hold` of the source does what the model's operation does, or leaves the ledger. -/
theorem hold_settles {owner : String} (value : Int) {purpose : String} {q : Purpose}
    (hq : purposeOf owner purpose = .ok q) :
    Run.hold key owner value purpose l = settle (l.hold key owner value q) l := by
  have howner : owner ≠ continuity := by
    rintro rfl
    rw [purposeOf, if_pos rfl] at hq
    cases hq
  have hguard : Checked.guard (owner ≠ continuity)
      (.valueError "invalid journal compartment or purpose" : Raised) = .ok () := if_pos howner
  simp only [Run.hold, Ledger.hold, inspect_bind, settle_bind, hq, hguard, get_bind, ite_method,
    settle_ite, modify_bind]
  rfl

/-- A method that first pops a promise goes on without it, or stops where there is none. -/
theorem popPromise_bind {α : Type} (g : Promise → Method α) :
    (Run.popPromise key >>= g) l = match l.promises.find? key with
      | some p => g p { l with promises := l.promises.without key }
      | none => (.error (.keyError key), l) := by
  rw [bind_def, Run.popPromise, inspect_bind]
  cases l.promises.find? key <;> rfl

/-- A method that first pops a hold goes on without it, or stops where there is none. -/
theorem popHold_bind {α : Type} (g : Hold → Method α) :
    (Run.popHold key >>= g) l = match l.holds.find? key with
      | some h => g h (l.dropHold key)
      | none => (.error (.keyError key), l) := by
  rw [bind_def, Run.popHold, inspect_bind]
  cases l.holds.find? key <;> rfl

/-- The method `release_promise` of the source settles. -/
theorem releasePromise_settles :
    Run.releasePromise key l = settle ((fun l => ((), l)) <$> l.releasePromise key) l := by
  rw [Run.releasePromise, popPromise_bind, Ledger.releasePromise]
  cases l.promises.find? key <;> rfl

/-- The method `issue` of the source settles. -/
theorem issue_settles : Run.issue key l = settle (l.issue key) l := by
  rw [Run.issue, popPromise_bind, Ledger.issue]
  cases l.promises.find? key <;> rfl

/-- The method `release` of the source settles. -/
theorem release_settles :
    Run.release key l = settle ((fun l => ((), l)) <$> l.release key) l := by
  rw [Run.release, popHold_bind, Ledger.release]
  cases l.holds.find? key <;> rfl

/-- The method `pay_ready` of the source settles. -/
theorem payReady_settles (recipient : String) :
    Run.payReady key recipient l = settle (l.payReady key recipient) l := by
  rw [Run.payReady, Ledger.payReady, inspect_bind, settle_bind]
  cases hh : l.holds.find? key with
  | none => rfl
  | some h =>
    simp only [require, inspect_bind, settle_bind, popHold_bind, hh]
    rfl

/-- The method `finalize_usage` of the source settles, for a priority that it knows. -/
theorem finalizeUsage_settles (floor wt rt : Int) {priority : String} {p : Priority}
    (hp : priorityOf priority = .ok p) :
    Run.finalizeUsage key floor wt rt priority l = settle (l.finalizeUsage key floor wt rt p) l := by
  rw [Run.finalizeUsage, Ledger.finalizeUsage, inspect_bind, settle_bind]
  cases hh : l.holds.find? key with
  | none => rfl
  | some h =>
    simp only [require, inspect_bind, settle_bind, popHold_bind, hh, hp, get_bind]
    rfl

/-! ### Amounts in range -/

/-- The amounts of holds and of finalized charges can be held again. -/
structure Ledger.InRange (l : Ledger) : Prop where
  holds : ∀ r ∈ l.holds.rows, 0 ≤ r.2.value ∧ r.2.value ≤ maxInteger
  refills : ∀ r ∈ l.refillRecords.rows,
    (0 ≤ r.2.working ∧ r.2.working ≤ maxInteger) ∧ 0 ≤ r.2.reserve ∧ r.2.reserve ≤ maxInteger

/-! ### Approvals -/

/-- The ledger with one reservation of a reversal more. -/
def Ledger.reserved (l : Ledger) (key owner : String) (value : Int) : Ledger :=
  { l.credit owner (-value) with holds := l.holds.put key ⟨owner, value, .reversal⟩ }

/-- A reservation leaves the other balances alone. -/
theorem balance_reserved (l : Ledger) (key : String) {owner account : String} (value : Int)
    (hne : owner ≠ account) : (l.reserved key owner value).balance account = l.balance account := by
  show (l.credit owner (-value)).balance account = _
  rw [balance_credit, if_neg hne, Int.add_zero]

/-- A reservation uses no other key. -/
theorem used_reserved {other : String} (owner : String) (value : Int) (hne : other ≠ key) :
    (l.reserved key owner value).Used other ↔ l.Used other := by
  have hother : (l.reserved key owner value).holds.find? other = l.holds.find? other :=
    Table.find?_put_ne hne
  rw [Ledger.Used, hother]
  exact Iff.rfl

/-- A reservation that passes every check. -/
theorem hold_fresh {owner : String} {value : Int} (hnew : ¬ l.Used key)
    (hvalue : 0 ≤ value ∧ value ≤ maxInteger) (howner : owner ≠ continuity)
    (hbalance : value ≤ l.balance owner) :
    l.hold key owner value .reversal = .ok (true, l.reserved key owner value) := by
  have hcheck : l.new key = .ok () := if_pos hnew
  have hamount : amount value = .ok () := if_pos hvalue
  have hguard : Checked.guard (owner ≠ continuity)
      (.valueError "invalid journal compartment or purpose" : Raised) = .ok () := if_pos howner
  rw [Ledger.hold, hcheck, hamount, hguard]
  exact if_neg (by omega)

/-- The same before the rest of a block. -/
theorem hold_bind {α : Type} {owner : String} {value : Int} (g : Bool → Method α)
    (hnew : ¬ l.Used key) (hvalue : 0 ≤ value ∧ value ≤ maxInteger) (howner : owner ≠ continuity)
    (hbalance : value ≤ l.balance owner) :
    (Run.hold key owner value "reversal" >>= g) l = g true (l.reserved key owner value) := by
  have hpurpose : purposeOf owner "reversal" = .ok .reversal := by
    rw [purposeOf, if_neg howner, if_neg (by decide), if_neg (by decide), if_pos rfl]
  rw [bind_def, hold_settles value hpurpose, hold_fresh hnew hvalue howner hbalance]
  rfl

/-- In a ledger within its range the method `approve_reversal` of the source settles.

**Proof sketch.** The method inspects everything before it writes, so both sides stop alike at the
first failed check. What is left are the two reservations. The second one passes the checks that
were made before the first: another key is in use (`used_reserved`), and another owner has been
debited (`balance_reserved`). So neither of them can raise, and both sides end in the same ledger.
-/
theorem approveReversal_settles (h : l.InRange) (original : String) :
    Run.approveReversal key original l = settle (l.approveReversal key original) l := by
  rw [Run.approveReversal, Ledger.approveReversal, inspect_bind, settle_bind]
  cases hnew : l.new key with
  | error e => rfl
  | ok _ =>
    simp only [inspect_bind, settle_bind]
    cases hr : l.refillRecords.find? original with
    | none => rfl
    | some r =>
      obtain ⟨hw, hr'⟩ := h.refills (original, r) (Table.find?_eq_some.1 hr)
      simp only [require, get_bind, ite_method, settle_ite, inspect_bind, settle_bind]
      split
      · rfl
      rename_i hcovered
      split
      · rfl
      cases hkw : l.new (key ++ ":w") with
      | error e => rfl
      | ok _ =>
        cases hkr : l.new (key ++ ":r") with
        | error e => rfl
        | ok _ =>
          rw [not_or] at hcovered
          have hunused := new_ok.mp hkw
          have hworking : working ≠ continuity := by decide
          have hcovers : r.working ≤ l.balance working := by omega
          -- the second reservation passes the same checks after the first one
          have hunused' : ¬ (l.reserved (key ++ ":w") working r.working).Used (key ++ ":r") := by
            rw [used_reserved _ _ suffix_ne.symm]
            exact new_ok.mp hkr
          have hreserve : reserve ≠ continuity := by decide
          have hcovers' :
              r.reserve ≤ (l.reserved (key ++ ":w") working r.working).balance reserve := by
            rw [balance_reserved l _ _ (by decide)]
            omega
          rw [hold_bind _ hunused hw hworking hcovers, hold_bind _ hunused' hr' hreserve hcovers',
            hold_fresh hunused hw hworking hcovers]
          simp only [hold_fresh hunused' hr' hreserve hcovers']
          rfl

/-! ### Posted reversals -/

/-- The body of the loop, before the rest of a block. -/
theorem spend_bind {α : Type} (g : Unit → Method α) :
    (Run.spend key >>= g) l = match l.holds.find? key with
      | some _ => g () ((l.dropHold key).close key)
      | none => (.error (.keyError key), l) := by
  rw [bind_def, Run.spend, popHold_bind]
  cases l.holds.find? key <;> rfl

/-- A pending reversal one of whose reservations is not there any more. -/
def Ledger.Bare (l : Ledger) (key : String) : Prop :=
  (l.reversals.find? key).isSome ∧
    (l.holds.find? (key ++ ":w") = none ∨ l.holds.find? (key ++ ":r") = none)

instance (l : Ledger) (key : String) : Decidable (l.Bare key) :=
  inferInstanceAs (Decidable (_ ∧ _))

/-- The reversal is gone before its reservations are looked at. -/
theorem postReversal_bare (h : l.Bare key) :
    ∃ e l', Run.postReversal key l = (.error e, l') ∧ l'.reversals.find? key = none ∧
      l'.refillRecords = l.refillRecords ∧ ∀ r ∈ l'.holds.rows, r ∈ l.holds.rows := by
  obtain ⟨hpending, hholds⟩ := h
  obtain ⟨r, hr⟩ := Option.isSome_iff_exists.1 hpending
  rw [Run.postReversal, inspect_bind, hr]
  simp only [require, modify_bind, spend_bind]
  cases hw : l.holds.find? (key ++ ":w") with
  | none => exact ⟨_, _, rfl, Table.find?_without_self, rfl, fun _ hr => hr⟩
  | some w =>
    have hgone : (Ledger.close (Ledger.dropHold { l with reversals := l.reversals.without key }
        (key ++ ":w")) (key ++ ":w")).holds.find? (key ++ ":r") = none := by
      refine (Table.find?_without_ne suffix_ne.symm).trans ?_
      exact hholds.resolve_left (by rw [hw]; exact Option.some_ne_none w)
    simp only [hgone]
    exact ⟨_, _, rfl, Table.find?_without_self, rfl, fun _ hr => Table.mem_without hr⟩

/-- Spending a hold that is there drops it and closes its key. -/
theorem spend_eq {d : Hold} (h : l.holds.find? key = some d) :
    l.spend key = .ok ((l.dropHold key).close key) := by
  rw [Ledger.spend, h]
  rfl

/-- With both reservations, or without the reversal, the call is all or nothing. -/
theorem postReversal_settles (h : ¬ l.Bare key) :
    Run.postReversal key l = settle ((fun l => ((), l)) <$> l.postReversal key) l := by
  rw [Run.postReversal, inspect_bind, Ledger.postReversal]
  cases hr : l.reversals.find? key with
  | none => rfl
  | some r =>
    rw [Ledger.Bare, hr, not_and, not_or] at h
    obtain ⟨hworking, hreserve⟩ := h rfl
    obtain ⟨w, hw⟩ := Option.ne_none_iff_exists'.1 hworking
    obtain ⟨d, hd⟩ := Option.ne_none_iff_exists'.1 hreserve
    -- the first reservation is spent before the second is looked at
    have hw' : (Ledger.holds { l with reversals := l.reversals.without key }).find?
        (key ++ ":w") = some w := hw
    have hd' : (Ledger.close (Ledger.dropHold { l with reversals := l.reversals.without key }
        (key ++ ":w")) (key ++ ":w")).holds.find? (key ++ ":r") = some d := by
      rw [← hd]
      exact Table.find?_without_ne suffix_ne.symm
    simp only [require, modify_bind, spend_bind, hw, hd']
    show _ = settle ((fun l => ((), l)) <$> (Ledger.spend _ _ >>= fun l => l.spend _ >>= _)) l
    rw [spend_eq hw']
    show _ = settle ((fun l => ((), l)) <$> (Ledger.spend _ _ >>= _)) l
    rw [spend_eq hd']
    rfl

/-! ### Calls and operations -/

/-- A call that raises, or returns `False`. -/
def Failed : Except Raised Answer → Prop
  | .ok a => a = .bool false
  | .error _ => True

instance : (r : Except Raised Answer) → Decidable (Failed r)
  | .ok _ => inferInstanceAs (Decidable (_ = _))
  | .error _ => inferInstanceAs (Decidable True)

/-- A call that fails leaves the instance as it was. -/
def Atomic (l : Ledger) (call : Call) : Prop := Failed (call.run l).1 → (call.run l).2 = l

/-- The post of a pending reversal one of whose reservations is not there any more. -/
def Call.Breaks (l : Ledger) : Call → Prop
  | .postReversal key => l.Bare key
  | _ => False

instance (l : Ledger) : (call : Call) → Decidable (call.Breaks l)
  | .postReversal key => inferInstanceAs (Decidable (l.Bare key))
  | .promise _ _ _ _ _ | .releasePromise _ | .issue _ | .hold _ _ _ _ | .release _ | .payReady _ _
  | .finalizeUsage _ _ _ _ _ | .approveReversal _ _ => inferInstanceAs (Decidable False)

/-- A call raises and leaves the instance as it was, or it is an operation, which changes nothing
where it returns `False`. -/
def Settles (l : Ledger) (call : Call) : Prop :=
  (∃ e, call.run l = (.error e, l)) ∨
    ∃ a l' op, call.run l = (.ok a, l') ∧ l.apply op = .ok l' ∧ (a = .bool false → l' = l)

section Settling

variable {α : Type} {x : Method α} {r : Except Raised (α × Ledger)} {call : Call} {f : α → Answer}

/-- A method that does what a function does, for an operation with that function. -/
theorem Settles.of_eq (op : Op) (hcall : call.run l = (f <$> x) l) (hx : x l = settle r l)
    (hop : l.apply op = Prod.snd <$> r)
    (hfalse : ∀ a l', r = .ok (a, l') → f a = .bool false → l' = l) : Settles l call := by
  rw [Settles, hcall, Stateful.map_def, hx]
  cases hr : r with
  | error e => exact .inl ⟨e, rfl⟩
  | ok p => exact .inr ⟨f p.1, p.2, op, rfl, hop.trans (by rw [hr]; rfl), hfalse p.1 p.2 hr⟩

/-- The same for a method that returns something else than `False`. -/
theorem Settles.of_ne (op : Op) (hcall : call.run l = (f <$> x) l) (hx : x l = settle r l)
    (hop : l.apply op = Prod.snd <$> r) (hf : ∀ a, f a ≠ .bool false) : Settles l call :=
  .of_eq op hcall hx hop fun a _ _ h => absurd h (hf a)

/-- A method that rejects its input. -/
theorem Settles.of_error (hcall : call.run l = (f <$> x) l) (hx : ∃ e, x l = (.error e, l)) :
    Settles l call := by
  obtain ⟨e, hx⟩ := hx
  exact .inl ⟨e, by rw [hcall, Stateful.map_def, hx]⟩

end Settling

/-- A promise that is turned down leaves the ledger alone. -/
theorem promise_false {recipient : String} {value ceiling : Int} {kind : Issuance}
    (hok : l.promise key recipient value ceiling kind = .ok (false, l')) : l' = l := by
  unfold Ledger.promise at hok
  simp only [bind_ok, new_ok, amount_ok] at hok
  obtain ⟨-, -, -, -, -, -, hok⟩ := hok
  split at hok
  · cases hok
    rfl
  · split at hok
    · cases hok
    · cases hok
      rfl

/-- A promise of an unknown class is refused and leaves the ledger alone. -/
theorem promise_rejects {recipient kind : String} {value ceiling : Int} {e : Raised}
    (hk : issuance kind = .error e) :
    ∃ e', Run.promise key recipient value ceiling kind l = (.error e', l) := by
  simp only [Run.promise, inspect_bind, hk]
  split
  · split
    · split
      · exact ⟨_, rfl⟩
      · exact ⟨_, rfl⟩
    · exact ⟨_, rfl⟩
  · exact ⟨_, rfl⟩

/-- A hold for an unknown purpose is refused and leaves the ledger alone. -/
theorem hold_rejects {owner purpose : String} {value : Int} {e : Raised}
    (hq : purposeOf owner purpose = .error e) :
    ∃ e', Run.hold key owner value purpose l = (.error e', l) := by
  simp only [Run.hold, inspect_bind, hq]
  split
  · split
    · exact ⟨_, rfl⟩
    · exact ⟨_, rfl⟩
  · exact ⟨_, rfl⟩

/-- A charge with an unknown priority is refused and leaves the ledger alone. -/
theorem finalizeUsage_rejects {floor wt rt : Int} {priority : String} {e : Raised}
    (hp : priorityOf priority = .error e) :
    ∃ e', Run.finalizeUsage key floor wt rt priority l = (.error e', l) := by
  simp only [Run.finalizeUsage, inspect_bind, hp]
  repeat' split
  all_goals exact ⟨_, rfl⟩

/-- **Calls are operations.** But for the posts of bare reversals, a call raises at once or does
what the operation does.

**Proof sketch.** One case per method. A class, a purpose or a priority that is none raises before
anything is written. Otherwise the method is settled by its own lemma, and a call that answers
`False` has left the ledger as it was. -/
theorem run_settles (h : l.InRange) {call : Call} (hbare : ¬ call.Breaks l) : Settles l call := by
  cases call with
  | promise key recipient value ceiling kind =>
    cases hk : issuance kind with
    | error e => exact .of_error rfl (promise_rejects hk)
    | ok k =>
      refine .of_eq (.promise key recipient value ceiling k) rfl
        (promise_settles recipient value ceiling hk) rfl fun b l' hok hb => ?_
      obtain rfl : b = false := Answer.bool.inj hb
      exact promise_false hok
  | releasePromise key =>
    refine .of_ne (.releasePromise key) rfl releasePromise_settles ?_ (fun _ => nofun)
    rw [Ledger.apply]
    cases l.releasePromise key <;> rfl
  | issue key => exact .of_ne (.issue key) rfl issue_settles rfl fun _ => nofun
  | hold key owner value purpose =>
    cases hq : purposeOf owner purpose with
    | error e => exact .of_error rfl (hold_rejects hq)
    | ok q =>
      refine .of_eq (.hold key owner value q) rfl (hold_settles value hq) rfl fun b l' hok hb => ?_
      obtain rfl : b = false := Answer.bool.inj hb
      obtain ⟨-, -, -, ⟨-, -, rfl⟩ | ⟨-, habs, -⟩⟩ := hold_ok hok
      · rfl
      · cases habs
  | release key =>
    refine .of_ne (.release key) rfl release_settles ?_ (fun _ => nofun)
    rw [Ledger.apply]
    cases l.release key <;> rfl
  | payReady key recipient =>
    exact .of_ne (.payReady key recipient) rfl (payReady_settles recipient) rfl fun _ => nofun
  | finalizeUsage key floor wt rt priority =>
    cases hp : priorityOf priority with
    | error e => exact .of_error rfl (finalizeUsage_rejects hp)
    | ok p =>
      exact .of_ne (.finalizeUsage key floor wt rt p) rfl (finalizeUsage_settles floor wt rt hp) rfl
        fun _ => nofun
  | approveReversal key original =>
    refine .of_eq (.approveReversal key original) rfl (approveReversal_settles h original) rfl
      fun b l' hok hb => ?_
    obtain rfl : b = false := Answer.bool.inj hb
    obtain ⟨-, r, -, ⟨-, rfl, -⟩ | ⟨habs, -⟩⟩ := approveReversal_ok hok
    · rfl
    · cases habs
  | postReversal key =>
    refine .of_ne (.postReversal key) rfl (postReversal_settles hbare) ?_ (fun _ => nofun)
    rw [Ledger.apply]
    cases l.postReversal key <;> rfl

/-! ### The range along runs -/

/-- The empty ledger is within its range. -/
theorem Ledger.InRange.init : Ledger.init.InRange where
  holds := by nofun
  refills := by nofun

/-- Dropping a hold keeps the amounts in range. -/
theorem Ledger.InRange.dropHold (h : l.InRange) (key : String) : (l.dropHold key).InRange :=
  ⟨fun r hr => h.holds r (Table.mem_without hr), h.refills⟩

/-- A hold of an amount in range keeps the amounts in range. -/
theorem Ledger.InRange.putHold (h : l.InRange) (key : String) {d : Hold}
    (hd : 0 ≤ d.value ∧ d.value ≤ maxInteger) :
    Ledger.InRange { l with holds := l.holds.put key d } where
  holds := by
    intro r hr
    rcases Table.mem_put hr with rfl | hr
    · exact hd
    · exact h.holds r hr
  refills := h.refills

/-- A refill record with parts in range keeps the amounts in range. -/
theorem Ledger.InRange.putRefill (h : l.InRange) (key : String) {d : Refill}
    (hd : (0 ≤ d.working ∧ d.working ≤ maxInteger) ∧ 0 ≤ d.reserve ∧ d.reserve ≤ maxInteger) :
    Ledger.InRange { l with refillRecords := l.refillRecords.put key d } where
  holds := h.holds
  refills := by
    intro r hr
    rcases Table.mem_put hr with rfl | hr
    · exact hd
    · exact h.refills r hr

/-- Holding keeps the amounts in range. -/
theorem Ledger.InRange.hold (h : l.InRange) {owner : String} {value : Int} {purpose : Purpose}
    {b : Bool} (hok : l.hold key owner value purpose = .ok (b, l')) : l'.InRange := by
  obtain ⟨-, hvalue, -, ⟨-, -, rfl⟩ | ⟨-, -, rfl⟩⟩ := hold_ok hok
  · exact h
  · have hput := h.putHold key (d := ⟨owner, value, purpose⟩) hvalue
    exact ⟨hput.holds, hput.refills⟩

/-- A charge keeps the amounts in range. -/
theorem Ledger.InRange.finalizeUsage (h : l.InRange) {floor wt rt : Int} {priority : Priority}
    {parts : Int × Int × Int}
    (hok : l.finalizeUsage key floor wt rt priority = .ok (parts, l')) : l'.InRange := by
  unfold Ledger.finalizeUsage at hok
  simp only [bind_ok, require_ok, guard_ok, amount_ok, pure_ok, Prod.mk.injEq] at hok
  obtain ⟨d, hd, -, -, -, -, -, -, -, -, -, rfl⟩ := hok
  have hvalue := h.holds (key, d) (Table.find?_eq_some.1 hd)
  obtain ⟨a, p, w, hparts, ha, hp, hw, hsum⟩ :=
    refill_parts (q := d.value) hvalue.1 (l.balance working) (l.balance reserve) floor wt rt priority
  rw [hparts]
  have hrecorded := (h.dropHold key).putRefill key
    (d := ⟨d.owner, a + w, p, d.value - a - p - w⟩) (by
      have hmax : d.value ≤ maxInteger := hvalue.2
      have hzero : 0 ≤ d.value := hvalue.1
      dsimp only
      omega)
  exact ⟨hrecorded.holds, hrecorded.refills⟩

/-- Approving a reversal keeps the amounts in range. -/
theorem Ledger.InRange.approveReversal (h : l.InRange) {original : String} {b : Bool}
    (hok : l.approveReversal key original = .ok (b, l')) : l'.InRange := by
  obtain ⟨-, r, -, ⟨-, rfl, -⟩ | ⟨-, -, -, -, b₁, b₂, l₁, l₂, h₁, h₂, rfl⟩⟩ := approveReversal_ok hok
  · exact h
  · have hheld := (h.hold h₁).hold h₂
    exact ⟨hheld.holds, fun r hr => hheld.refills r (Table.mem_without hr)⟩

/-- Promising keeps the amounts in range. -/
theorem Ledger.InRange.promise (h : l.InRange) {recipient : String} {value ceiling : Int}
    {kind : Issuance} {b : Bool} (hok : l.promise key recipient value ceiling kind = .ok (b, l')) :
    l'.InRange := by
  unfold Ledger.promise at hok
  simp only [bind_ok, new_ok, amount_ok] at hok
  obtain ⟨-, -, -, -, -, -, hok⟩ := hok
  split at hok
  · cases hok
    exact h
  · split at hok
    · cases hok
      exact ⟨h.holds, h.refills⟩
    · cases hok
      exact h

/-- Releasing a promise keeps the amounts in range. -/
theorem Ledger.InRange.releasePromise (h : l.InRange) (hok : l.releasePromise key = .ok l') :
    l'.InRange := by
  unfold Ledger.releasePromise at hok
  simp only [bind_ok, require_ok, pure_ok] at hok
  obtain ⟨p, -, rfl⟩ := hok
  exact ⟨h.holds, h.refills⟩

/-- Issuing keeps the amounts in range. -/
theorem Ledger.InRange.issue (h : l.InRange) {value : Int} (hok : l.issue key = .ok (value, l')) :
    l'.InRange := by
  unfold Ledger.issue at hok
  simp only [bind_ok, require_ok, pure_ok, Prod.mk.injEq] at hok
  obtain ⟨p, -, -, rfl⟩ := hok
  cases p.kind <;> exact ⟨h.holds, h.refills⟩

/-- Releasing a hold keeps the amounts in range. -/
theorem Ledger.InRange.release (h : l.InRange) (hok : l.release key = .ok l') : l'.InRange := by
  unfold Ledger.release at hok
  simp only [bind_ok, require_ok, pure_ok] at hok
  obtain ⟨d, -, rfl⟩ := hok
  have hdropped := h.dropHold key
  exact ⟨hdropped.holds, hdropped.refills⟩

/-- Paying a ready provider keeps the amounts in range. -/
theorem Ledger.InRange.payReady (h : l.InRange) {recipient : String} {value : Int}
    (hok : l.payReady key recipient = .ok (value, l')) : l'.InRange := by
  unfold Ledger.payReady at hok
  simp only [bind_ok, require_ok, guard_ok, pure_ok, Prod.mk.injEq] at hok
  obtain ⟨d, -, -, -, -, rfl⟩ := hok
  have hdropped := h.dropHold key
  exact ⟨hdropped.holds, hdropped.refills⟩

/-- Posting a reversal keeps the amounts in range. -/
theorem Ledger.InRange.postReversal (h : l.InRange) (hok : l.postReversal key = .ok l') :
    l'.InRange := by
  unfold Ledger.postReversal Ledger.spend at hok
  simp only [bind_ok, require_ok, pure_ok] at hok
  obtain ⟨r, -, l₁, ⟨dw, -, rfl⟩, l₂, ⟨dr, -, rfl⟩, rfl⟩ := hok
  have hdropped := (h.dropHold (key ++ ":w")).dropHold (key ++ ":r")
  exact ⟨hdropped.holds, hdropped.refills⟩

/-- Every operation keeps the amounts in range. -/
theorem Ledger.InRange.apply (h : l.InRange) {op : Op} (hok : l.apply op = .ok l') :
    l'.InRange := by
  cases op with
  | promise key recipient value ceiling kind =>
    obtain ⟨⟨b, l₁⟩, h₁, rfl⟩ := map_ok.1 hok
    exact h.promise h₁
  | releasePromise key => exact h.releasePromise hok
  | issue key =>
    obtain ⟨⟨value, l₁⟩, h₁, rfl⟩ := map_ok.1 hok
    exact h.issue h₁
  | hold key owner value purpose =>
    obtain ⟨⟨b, l₁⟩, h₁, rfl⟩ := map_ok.1 hok
    exact h.hold h₁
  | release key => exact h.release hok
  | payReady key recipient =>
    obtain ⟨⟨value, l₁⟩, h₁, rfl⟩ := map_ok.1 hok
    exact h.payReady h₁
  | finalizeUsage key floor wt rt priority =>
    obtain ⟨⟨parts, l₁⟩, h₁, rfl⟩ := map_ok.1 hok
    exact h.finalizeUsage h₁
  | approveReversal key original =>
    obtain ⟨⟨b, l₁⟩, h₁, rfl⟩ := map_ok.1 hok
    exact h.approveReversal h₁
  | postReversal key => exact h.postReversal hok

/-- A call keeps the range, also one that fails half way. -/
theorem Ledger.InRange.run (h : l.InRange) (call : Call) : (call.run l).2.InRange := by
  by_cases hbare : call.Breaks l
  · cases call with
    | postReversal key =>
      obtain ⟨e, l', hrun, -, hrefills, hholds⟩ := postReversal_bare hbare
      rw [Call.run, Stateful.map_def, hrun]
      exact ⟨fun r hr => h.holds r (hholds r hr), by rw [hrefills]; exact h.refills⟩
    | _ => exact hbare.elim
  · rcases run_settles h hbare with ⟨e, hrun⟩ | ⟨a, l', op, hrun, hop, -⟩
    · rw [hrun]
      exact h
    · rw [hrun]
      exact h.apply hop

/-- The amounts of every reachable ledger are in range. -/
theorem inRange_reachable (h : Machine.Reachable ledgerMachine l) : l.InRange :=
  h.invariant (fun _ hl => hl ▸ .init) fun _ call _ hl => hl.run call

/-! ### Atomicity -/

/-- **Atomicity.** After any calls, failed ones included, a call that fails leaves the ledger as it
was, unless it posts a reversal one of whose reservations is not there any more.

**Proof sketch.** If a reversal is posted without its reservations, the record is popped before the
error, so that the ledger has changed (`postReversal_bare`). Any other call raises at once or does
what its operation does (`run_settles`), and a reachable ledger is within its range, which the
reversals' lemmas ask for. -/
theorem ledger_atomicity (h : Machine.Reachable ledgerMachine l) (call : Call) :
    Atomic l call ↔ ¬ call.Breaks l := by
  constructor
  · intro hatomic hbare
    cases call with
    | postReversal key =>
      obtain ⟨e, l', hrun, hgone, -, -⟩ := postReversal_bare hbare
      have hcall : (Call.postReversal key).run l = (.error e, l') := by
        rw [Call.run, Stateful.map_def, hrun]
      rw [Atomic, hcall] at hatomic
      obtain rfl : l' = l := hatomic trivial
      have hpending := hbare.1
      rw [hgone] at hpending
      cases hpending
    | _ => exact hbare.elim
  · intro hbare hfailed
    rcases run_settles (inRange_reachable h) hbare with ⟨e, hrun⟩ | ⟨a, l', op, hrun, -, hfalse⟩
    · rw [hrun]
    · rw [hrun] at hfailed ⊢
      exact hfalse hfailed

/-- A reversal is approved and one of its reservations is released. -/
def releasedReservation : List Call :=
  [.promise "p" "user" 1000 maxInteger "contributor", .issue "p", .hold "h" "user" 300 "usage",
    .finalizeUsage "h" 100 150 100 "v6", .approveReversal "r" "h", .release "r:w"]

/-- After a reservation is released, issuing is atomic, and posting the reversal is not. -/
theorem ledger_atomicity_released :
    Atomic (ledgerMachine.run Ledger.init releasedReservation) (.issue "q") ∧
      ¬ Atomic (ledgerMachine.run Ledger.init releasedReservation) (.postReversal "r") := by
  have hr : Machine.Reachable ledgerMachine (ledgerMachine.run Ledger.init releasedReservation) :=
    Machine.reachable_run (.init rfl) _
  refine ⟨(ledger_atomicity hr _).mpr (by decide +kernel), fun hatomic => ?_⟩
  exact (ledger_atomicity hr _).mp hatomic (by decide +kernel)

/-- The post of the reversal raises and drops the reversal, whose burned part stays in `J`. -/
theorem postReversal_not_atomic :
    ∃ l, Machine.Reachable ledgerMachine l ∧ (l.J = l.reversals.sum fun _ r => r.burn) ∧
      (Call.run (.postReversal "r") l).1 = .error (.keyError "r:w") ∧
      (Call.run (.postReversal "r") l).2.reversals ≠ l.reversals ∧
      ¬ Atomic l (.postReversal "r") ∧ ¬ (Call.run (.postReversal "r") l).2.Audit := by
  have hrun : (Call.run (.postReversal "r")
      (ledgerMachine.run Ledger.init releasedReservation)).1 = .error (.keyError "r:w") := by
    decide +kernel
  have hkept : (Call.run (.postReversal "r")
      (ledgerMachine.run Ledger.init releasedReservation)).2.reversals ≠
        (ledgerMachine.run Ledger.init releasedReservation).reversals := by
    intro heq
    have hrows := congrArg (fun t => t.rows.length) heq
    revert hrows
    decide +kernel
  refine ⟨ledgerMachine.run Ledger.init releasedReservation, Machine.reachable_run (.init rfl) _,
    by decide +kernel, hrun, hkept, fun hatomic => ?_, fun haudit => ?_⟩
  · refine hkept (congrArg Ledger.reversals (hatomic ?_))
    rw [hrun]
    trivial
  · have hjournal := haudit.journal
    revert hjournal
    decide +kernel

end NetworkAi.Benchmark
