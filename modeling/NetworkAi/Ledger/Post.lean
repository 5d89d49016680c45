import Mathlib.Data.List.Sort
import NetworkAi.Failure
import NetworkAi.Lib.Table

set_option relaxedAutoImplicit false
set_option autoImplicit false

/-!
# The double-entry ledger

`post` of `ledger.ts` together with the tables and triggers of `001_private_lab.sql` it writes
through: `ledger_accounts` with a stored balance, the append-only `journal` and `journal_lines`,
the trigger `apply_journal_line` that projects a line onto its account, and the deferred
constraint `require_balanced_journal` that runs at commit.

## Main definitions

* `NetworkAi.Ledger` — the three tables, over any business keys, accounts and journal data.
* `NetworkAi.Ledger.linesOf` — the lines of a posting: one per account, merged, nonzero, sorted.
* `NetworkAi.Ledger.post` — the posting; `Ledger.commit` — the deferred check.

## Implementation notes

The order of the lines is the collation's (`localeCompare`), a parameter `le` here: it decides
the order of the lines and which of two errors is met first, and no result depends on it.
`lock_ledger_accounts` takes row locks and changes nothing, so it has no counterpart. A journal's
`kind`, `metadata` and `created_at` are one value `info`.
-/

namespace NetworkAi

open Relational

/-- The largest amount the contracts accept: `2 ^ 63 - 1`. -/
def maxAmount : Int := 9223372036854775807

/-- The values a `bigint` column can store. -/
def fitsBigint (n : Int) : Prop := -9223372036854775808 ≤ n ∧ n ≤ 9223372036854775807

instance (n : Int) : Decidable (fitsBigint n) := inferInstanceAs (Decidable (_ ∧ _))

/-- The kinds of ledger accounts. -/
inductive AccountKind where
  | available | held | labIssuer | working | leaseEscrow
  | coopWorking | coopCoreReserve | coopBurn
  deriving DecidableEq, Repr

/-- A row of `ledger_accounts`. -/
structure Account where
  kind : AccountKind
  balance : Int
  deriving DecidableEq, Repr

/-- The table constraint `balance >= 0 OR kind = 'LAB_ISSUER'`, and the column's type. -/
def Account.Valid (a : Account) : Prop :=
  (0 ≤ a.balance ∨ a.kind = .labIssuer) ∧ fitsBigint a.balance

instance Account.decidableValid (a : Account) : Decidable a.Valid :=
  inferInstanceAs (Decidable (_ ∧ _))

/-- The identifier of a journal entry. -/
abbrev JournalId := Nat

/-- A row of `journal`. -/
structure JournalRow (K I : Type) where
  businessKey : K
  info : I
  writerXid : Nat
  deriving DecidableEq, Repr

/-- A row of `journal_lines`. -/
structure JournalLine (A : Type) where
  journalId : JournalId
  accountId : A
  amount : Int
  deriving DecidableEq, Repr

/-- The ledger's tables. -/
structure Ledger (K A I : Type) where
  accounts : Table A Account
  journal : Table JournalId (JournalRow K I)
  lines : List (JournalLine A)

namespace Ledger

variable {K A I : Type} [DecidableEq K] [DecidableEq A]

/-! ### Reading the ledger -/

/-- The stored balance of an account; an account that does not exist holds nothing. -/
def balance (L : Ledger K A I) (a : A) : Int :=
  match L.accounts.find? a with
  | some row => row.balance
  | none => 0

/-- `SELECT id FROM journal WHERE business_key = key`. -/
def findKey (L : Ledger K A I) (key : K) : Option JournalId :=
  (L.journal.rows.find? fun r => r.2.businessKey = key).map Prod.fst

/-- The lines of one journal entry. -/
def linesOfJournal (L : Ledger K A I) (id : JournalId) : List (JournalLine A) :=
  L.lines.filter fun l => l.journalId = id

/-- The sum of an account's lines. -/
def lineSum (L : Ledger K A I) (a : A) : Int :=
  (L.lines.map fun l => if l.accountId = a then l.amount else 0).sum

/-- `SELECT sum(balance) FROM ledger_accounts`. -/
def totalBalance (L : Ledger K A I) : Int := L.accounts.sum fun _ row => row.balance

/-! ### The entries of a posting -/

/-- Add an entry to the merged entries: to its account's value, or as a new account. -/
def addEntry (e : A × Int) : List (A × Int) → List (A × Int)
  | [] => [e]
  | (a, v) :: l => if a = e.1 then (a, v + e.2) :: l else (a, v) :: addEntry e l

/-- The map `combined` of `post`: the entries merged by account, in order of first mention. -/
def combine (entries : List (A × Int)) : List (A × Int) :=
  entries.foldl (fun m e => addEntry e m) []

/-- The lines of a posting: the merged entries that are not zero, sorted by account. -/
def linesOf (le : A → A → Bool) (entries : List (A × Int)) : List (A × Int) :=
  ((combine entries).filter fun e => e.2 ≠ 0).insertionSort fun x y => le x.1 y.1

/-- What a list of entries moves on one account. -/
def entrySum (a : A) (entries : List (A × Int)) : Int :=
  (entries.map fun e => if e.1 = a then e.2 else 0).sum

/-! ### Writing the ledger -/

/-- Open an account with balance zero: the insertions of `createAccounts` (`ON CONFLICT DO
NOTHING`) and of the escrow and pool accounts. -/
def openAccount (L : Ledger K A I) (a : A) (kind : AccountKind) : Ledger K A I :=
  if h : L.accounts.find? a = none then
    { L with accounts := L.accounts.insert a ⟨kind, 0⟩ h }
  else L

/-- Open an account that must not exist yet. -/
def openFresh (L : Ledger K A I) (a : A) (kind : AccountKind) :
    Except Failure (Ledger K A I) := do
  constraint (L.accounts.find? a = none) "ledger_accounts_pkey"
  return L.openAccount a kind

/-- Insert a row into `journal`. -/
def insertJournal (L : Ledger K A I) (id : JournalId) (row : JournalRow K I) :
    Except Failure (Ledger K A I) := do
  constraint (L.findKey row.businessKey = none) "journal_business_key_key"
  let journal ← reference (L.journal.insert? id row) "journal_pkey"
  return { L with journal }

/-- Insert a row into `journal_lines`: its keys and checks, then the trigger
`apply_journal_line`, which adds the amount to the account's stored balance. -/
def applyJournalLine (xid : Nat) (L : Ledger K A I) (line : JournalLine A) :
    Except Failure (Ledger K A I) := do
  constraint (line.amount ≠ 0 ∧ fitsBigint line.amount) "journal_lines_amount_check"
  constraint (∀ l ∈ L.lines, l.journalId = line.journalId → l.accountId ≠ line.accountId)
    "journal_lines_pkey"
  let row ← reference (L.journal.find? line.journalId) "journal_lines_journal_id_fkey"
  constraint (row.writerXid = xid) "cannot append to committed journal"
  let account ← reference (L.accounts.find? line.accountId) "ledger account missing"
  let account := { account with balance := account.balance + line.amount }
  constraint account.Valid "ledger_accounts_check"
  return { L with
    accounts := L.accounts.set line.accountId account
    lines := L.lines ++ [line] }

/-- The check `post` makes on one line before it writes any. -/
def checkLine (L : Ledger K A I) (line : A × Int) : Except Failure Unit := do
  let account ← needRow (L.accounts.find? line.1) 500 "ledger_account_missing"
    "Conta contábil não encontrada."
  need (account.kind = .labIssuer ∨ 0 ≤ account.balance + line.2) 402 "insufficient_credits"
    "Saldo de laboratório insuficiente para reservar esta sessão."

/-- `post`: move the entries under a business key, once. A key that is already in the journal
returns its entry and moves nothing. `id` is the fresh identifier, `xid` the transaction. -/
def post (le : A → A → Bool) (xid : Nat) (L : Ledger K A I) (id : JournalId) (key : K) (info : I)
    (entries : List (A × Int)) : Except Failure (JournalId × Ledger K A I) :=
  match L.findKey key with
  | some existing => return (existing, L)
  | none => do
    let lines := linesOf le entries
    need (2 ≤ lines.length ∧ (lines.map Prod.snd).sum = 0) 500 "ledger_invalid"
      "Lançamento inválido."
    need (∀ line ∈ lines, line.2 ≤ maxAmount ∧ -maxAmount ≤ line.2) 400 "amount_overflow"
      "Valor fora do limite."
    lines.forM (checkLine L)
    let L ← insertJournal L id { businessKey := key, info, writerXid := xid }
    let L ← lines.foldlM (fun L line => applyJournalLine xid L ⟨id, line.1, line.2⟩) L
    return (id, L)

/-- The condition of the deferred trigger `require_balanced_journal`. -/
def Balanced (L : Ledger K A I) (id : JournalId) : Prop :=
  2 ≤ (L.linesOfJournal id).length ∧ ((L.linesOfJournal id).map (·.amount)).sum = 0

instance (L : Ledger K A I) (id : JournalId) : Decidable (L.Balanced id) :=
  inferInstanceAs (Decidable (_ ∧ _))

/-- The deferred check at `COMMIT`: every journal entry the transaction wrote is balanced. -/
def commit (xid : Nat) (L : Ledger K A I) : Except Failure Unit :=
  constraint (∀ r ∈ L.journal.rows, r.2.writerXid = xid → L.Balanced r.1) "unbalanced journal"

end Ledger

end NetworkAi
