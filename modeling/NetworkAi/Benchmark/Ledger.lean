import NetworkAi.Lib.Checked
import NetworkAi.Lib.Dict

set_option relaxedAutoImplicit false
set_option autoImplicit false

/-!
# The reference ledger

The class `Ledger` of the benchmark: balances, holds, promised issuance, finalized charges and
approved reversals, with the totals that are carried beside them, and the assertions of `audit`.

## Main definitions

* `NetworkAi.Benchmark.Ledger` — the fields of an instance.
* `NetworkAi.Benchmark.Ledger.promise`, …, `NetworkAi.Benchmark.Ledger.postReversal` — the methods.
* `NetworkAi.Benchmark.Op`, `NetworkAi.Benchmark.Ledger.apply` — the methods as operations.
* `NetworkAi.Benchmark.Ledger.Audit` — the assertions of `audit`.

## Implementation notes

Issuance classes, purposes and priorities are enumerations, so that the checks which reject other
strings have no counterpart. A method that raises ends with an error, without the instance it
leaves: only `postReversal` has changed it by then, and no operation of a run raises.
-/

namespace NetworkAi.Benchmark

open Relational Checked

/-! ### The data -/

/-- `MAX_INTEGER`. -/
def maxInteger : Int := 9223372036854775807

/-- `WORKING`. -/
def working : String := "COOP_WORKING"

/-- `RESERVE`. -/
def reserve : String := "COOP_CORE_RESERVE"

/-- The journal compartment that holds no balance. -/
def continuity : String := "COOP_CONTINUITY"

/-- What a method raises. -/
inductive Raised where
  | valueError (text : String)
  | keyError (key : String)
  deriving DecidableEq, Repr

/-- `amount`. -/
def amount (value : Int) : Except Raised Unit :=
  guard (0 ≤ value ∧ value ≤ maxInteger)
    (.valueError "amount must be a nonnegative signed-64-bit integer")

/-- The classes of issuance. -/
inductive Issuance where
  | contributor | treasury | grant
  deriving DecidableEq, Repr

/-- The purposes of a hold. -/
inductive Purpose where
  | ready | usage | reversal
  deriving DecidableEq, Repr

/-- The priorities of a refill. -/
inductive Priority where
  | v6 | reserveFirst | single
  deriving DecidableEq, Repr

/-- `Hold`: an amount of an owner that is locked for a purpose. -/
structure Hold where
  owner : String
  value : Int
  purpose : Purpose
  deriving DecidableEq, Repr

/-- An entry of `promises`. -/
structure Promise where
  recipient : String
  value : Int
  kind : Issuance
  deriving DecidableEq, Repr

/-- An entry of `refill_records` and of `reversals`: the owner of a charge, and its parts. -/
structure Refill where
  owner : String
  working : Int
  reserve : Int
  burn : Int
  deriving DecidableEq, Repr

/-- `Ledger`: the supply and the accounts of the benchmark's economy, with its open promises, holds
and reversals. -/
structure Ledger where
  free : Table String Int
  holds : Table String Hold
  promises : Table String Promise
  reversals : Table String Refill
  closed : List String
  S : Int
  L : Int
  J : Int
  issued : Int
  burned : Int
  reinstated : Int
  contributorIssued : Int
  treasuryIssued : Int
  grantsIssued : Int
  refillRecords : Table String Refill

/-- `__init__`. -/
def Ledger.init : Ledger where
  free := (Table.empty.put working 0).put reserve 0
  holds := .empty
  promises := .empty
  reversals := .empty
  closed := []
  S := 0
  L := 0
  J := 0
  issued := 0
  burned := 0
  reinstated := 0
  contributorIssued := 0
  treasuryIssued := 0
  grantsIssued := 0
  refillRecords := .empty

namespace Ledger

/-- `exposure`: the supply that exists or is promised. -/
def exposure (l : Ledger) : Int := l.S + l.L + l.J

/-- `balance`: the free amount of an account. -/
def balance (l : Ledger) (account : String) : Int := (l.free.find? account).getD 0

/-! ### The methods -/

/-- An operation identifier that is in use, or was. -/
def Used (l : Ledger) (key : String) : Prop :=
  key ∈ l.closed ∨ (l.holds.find? key).isSome ∨ (l.promises.find? key).isSome ∨
    (l.reversals.find? key).isSome

instance (l : Ledger) (key : String) : Decidable (l.Used key) :=
  inferInstanceAs (Decidable (_ ∨ _))

/-- `_new`. -/
def new (l : Ledger) (key : String) : Except Raised Unit :=
  guard (¬ l.Used key) (.valueError "operation identifier already used")

/-- `self.free[account] = self.balance(account) + value`. -/
def credit (l : Ledger) (account : String) (value : Int) : Ledger :=
  { l with free := l.free.put account (l.balance account + value) }

/-- `self.closed.add(key)`. -/
def close (l : Ledger) (key : String) : Ledger := { l with closed := key :: l.closed }

/-- `self.holds.pop(key)` of a hold that is there. -/
def dropHold (l : Ledger) (key : String) : Ledger := { l with holds := l.holds.without key }

/-- The promises of a class. -/
def pending (l : Ledger) (kind : Issuance) : Int :=
  l.promises.sum fun _ p => if p.kind = kind then p.value else 0

/-- Whether a promise keeps the cap of its class. -/
def CapAllows (l : Ledger) (value : Int) : Issuance → Prop
  | .contributor => True
  | .treasury => l.treasuryIssued + l.pending .treasury + value ≤ l.contributorIssued / 19
  | .grant => l.grantsIssued + l.pending .grant + value ≤ l.contributorIssued / 49

instance (l : Ledger) (value : Int) : (kind : Issuance) → Decidable (l.CapAllows value kind)
  | .contributor => inferInstanceAs (Decidable True)
  | .treasury => inferInstanceAs (Decidable (_ ≤ _))
  | .grant => inferInstanceAs (Decidable (_ ≤ _))

/-- `promise`: reserve room for a later issue, if the exposure and the cap of the class allow it. -/
def promise (l : Ledger) (key recipient : String) (value ceiling : Int) (kind : Issuance) :
    Except Raised (Bool × Ledger) := do
  l.new key
  amount value
  amount ceiling
  if l.exposure + value > min ceiling maxInteger then
    return (false, l)
  else if l.CapAllows value kind then
    return (true, { l with
      promises := l.promises.put key ⟨recipient, value, kind⟩
      L := l.L + value })
  else
    return (false, l)

/-- `release_promise`. -/
def releasePromise (l : Ledger) (key : String) : Except Raised Ledger := do
  let p ← require (l.promises.find? key) (.keyError key)
  return { l with promises := l.promises.without key, L := l.L - p.value }.close key

/-- The total of the class grows. -/
def countIssued (l : Ledger) (value : Int) : Issuance → Ledger
  | .contributor => { l with contributorIssued := l.contributorIssued + value }
  | .treasury => { l with treasuryIssued := l.treasuryIssued + value }
  | .grant => { l with grantsIssued := l.grantsIssued + value }

/-- `issue`: turn a promise into supply. -/
def issue (l : Ledger) (key : String) : Except Raised (Int × Ledger) := do
  let p ← require (l.promises.find? key) (.keyError key)
  let l := { l with
    promises := l.promises.without key
    L := l.L - p.value
    S := l.S + p.value
    issued := l.issued + p.value }
  return (p.value, ((l.credit p.recipient p.value).countIssued p.value p.kind).close key)

/-- `hold`: lock an amount of an owner, if the owner has it. -/
def hold (l : Ledger) (key owner : String) (value : Int) (purpose : Purpose) :
    Except Raised (Bool × Ledger) := do
  l.new key
  amount value
  guard (owner ≠ continuity) (.valueError "invalid journal compartment or purpose")
  if value > l.balance owner then
    return (false, l)
  else
    let l := l.credit owner (-value)
    return (true, { l with holds := l.holds.put key ⟨owner, value, purpose⟩ })

/-- `release`: give a hold back to its owner. -/
def release (l : Ledger) (key : String) : Except Raised Ledger := do
  let hold ← require (l.holds.find? key) (.keyError key)
  return ((l.dropHold key).credit hold.owner hold.value).close key

/-- `pay_ready`. -/
def payReady (l : Ledger) (key recipient : String) : Except Raised (Int × Ledger) := do
  let hold ← require (l.holds.find? key) (.keyError key)
  guard (hold.purpose = .ready ∧ (hold.owner = working ∨ hold.owner = reserve))
    (.valueError "READY must be funded by a treasury READY hold")
  return (hold.value, ((l.dropHold key).credit recipient hold.value).close key)

/-- What a charge `q` refills by its priority, from the balances `w0` and `r0`: the floor, the
reserve and the working target. -/
def refill (q w0 r0 floor workingTarget reserveTarget : Int) : Priority → Int × Int × Int
  | .v6 =>
    let a := min q (max 0 (floor - w0))
    let p := min (q - a) (max 0 (reserveTarget - r0))
    (a, p, min (q - a - p) (max 0 (workingTarget - w0 - a)))
  | .reserveFirst =>
    let p := min q (max 0 (reserveTarget - r0))
    (0, p, min (q - p) (max 0 (workingTarget - w0)))
  | .single => (0, 0, min q (max 0 (workingTarget - w0)))

/-- `finalize_usage`. -/
def finalizeUsage (l : Ledger) (key : String) (floor workingTarget reserveTarget : Int)
    (priority : Priority) : Except Raised ((Int × Int × Int) × Ledger) := do
  let hold ← require (l.holds.find? key) (.keyError key)
  guard (hold.purpose = .usage) (.valueError "usage settlement requires a usage hold")
  amount floor
  amount workingTarget
  amount reserveTarget
  let (a, p, w) := refill hold.value (l.balance working) (l.balance reserve) floor workingTarget
    reserveTarget priority
  let burn := hold.value - a - p - w
  let l := ((l.dropHold key).credit working (a + w)).credit reserve p
  let l := { l with S := l.S - burn, burned := l.burned + burn }.close key
  return ((a + w, p, burn),
    { l with refillRecords := l.refillRecords.put key ⟨hold.owner, a + w, p, burn⟩ })

/-- `approve_reversal`: the recycled parts of a charge are reserved, its burned part enters `J`. -/
def approveReversal (l : Ledger) (key original : String) : Except Raised (Bool × Ledger) := do
  l.new key
  let r ← require (l.refillRecords.find? original)
    (.valueError "unknown or already reversed finalized charge")
  if l.balance working < r.working ∨ l.balance reserve < r.reserve then
    return (false, l)
  else if l.exposure + r.burn > maxInteger then
    return (false, l)
  else
    l.new (key ++ ":w")
    l.new (key ++ ":r")
    let (_, l) ← l.hold (key ++ ":w") working r.working .reversal
    let (_, l) ← l.hold (key ++ ":r") reserve r.reserve .reversal
    return (true, { l with
      refillRecords := l.refillRecords.without original
      reversals := l.reversals.put key r
      J := l.J + r.burn })

/-- One of the two reservations of a reversal is spent. -/
def spend (l : Ledger) (key : String) : Except Raised Ledger := do
  let _ ← require (l.holds.find? key) (.keyError key)
  return (l.dropHold key).close key

/-- `post_reversal`. -/
def postReversal (l : Ledger) (key : String) : Except Raised Ledger := do
  let r ← require (l.reversals.find? key) (.keyError key)
  let l := { l with reversals := l.reversals.without key }
  let l ← l.spend (key ++ ":w")
  let l ← l.spend (key ++ ":r")
  let l := l.credit r.owner (r.working + r.reserve + r.burn)
  return { l with
    J := l.J - r.burn
    S := l.S + r.burn
    reinstated := l.reinstated + r.burn }.close key

/-! ### The audit -/

/-- `audit`. -/
structure Audit (l : Ledger) : Prop where
  free : ∀ r ∈ l.free.rows, 0 ≤ r.2 ∧ r.2 ≤ maxInteger
  holds : ∀ r ∈ l.holds.rows, 0 ≤ r.2.value
  supply : l.S = l.free.sum (fun _ v => v) + l.holds.sum fun _ h => h.value
  locked : l.L = l.promises.sum fun _ p => p.value
  journal : l.J = l.reversals.sum fun _ r => r.burn
  issued : l.S = l.issued - l.burned + l.reinstated
  exposure : 0 ≤ l.exposure ∧ l.exposure ≤ maxInteger
  treasury : l.treasuryIssued ≤ l.contributorIssued / 19
  grants : l.grantsIssued ≤ l.contributorIssued / 49
  continuity : l.free.find? continuity = none

end Ledger

/-! ### Operations -/

/-- The calls of the methods. -/
inductive Op where
  | promise (key recipient : String) (value ceiling : Int) (kind : Issuance)
  | releasePromise (key : String)
  | issue (key : String)
  | hold (key owner : String) (value : Int) (purpose : Purpose)
  | release (key : String)
  | payReady (key recipient : String)
  | finalizeUsage (key : String) (floor workingTarget reserveTarget : Int) (priority : Priority)
  | approveReversal (key original : String)
  | postReversal (key : String)
  deriving DecidableEq, Repr

/-- The ledger after a call. -/
def Ledger.apply (l : Ledger) : Op → Except Raised Ledger
  | .promise key recipient value ceiling kind =>
    Prod.snd <$> l.promise key recipient value ceiling kind
  | .releasePromise key => l.releasePromise key
  | .issue key => Prod.snd <$> l.issue key
  | .hold key owner value purpose => Prod.snd <$> l.hold key owner value purpose
  | .release key => l.release key
  | .payReady key recipient => Prod.snd <$> l.payReady key recipient
  | .finalizeUsage key floor workingTarget reserveTarget priority =>
    Prod.snd <$> l.finalizeUsage key floor workingTarget reserveTarget priority
  | .approveReversal key original => Prod.snd <$> l.approveReversal key original
  | .postReversal key => l.postReversal key

/-- A call gives nothing to the journal compartment. -/
def Op.Allowed : Op → Prop
  | .promise _ recipient _ _ _ => recipient ≠ continuity
  | .payReady _ recipient => recipient ≠ continuity
  | _ => True

instance : (op : Op) → Decidable op.Allowed
  | .promise _ recipient _ _ _ => inferInstanceAs (Decidable (recipient ≠ continuity))
  | .payReady _ recipient => inferInstanceAs (Decidable (recipient ≠ continuity))
  | .releasePromise _ | .issue _ | .hold _ _ _ _ | .release _ | .finalizeUsage _ _ _ _ _
  | .approveReversal _ _ | .postReversal _ => inferInstanceAs (Decidable True)

/-- Calls one after another, none of which raises. -/
def Ledger.applyAll (l : Ledger) (ops : List Op) : Except Raised Ledger := ops.foldlM Ledger.apply l

end NetworkAi.Benchmark
