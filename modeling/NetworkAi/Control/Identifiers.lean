import Mathlib.Data.Nat.Pairing
import NetworkAi.Document.Js
import NetworkAi.Ledger.Post

set_option relaxedAutoImplicit false
set_option autoImplicit false

/-!
# Identifiers, clocks and keys

The names the tables of the control API use for each other, the ledger's accounts and business
keys, and what one transaction reads from outside the database: its clocks and the random
identifiers it draws.

## Main definitions

* `NetworkAi.Tx` — the readings of one transaction.
* `NetworkAi.AccountId`, `NetworkAi.BusinessKey` — the texts that name accounts and postings.
* `NetworkAi.Env` — the hash function, the collation and the reading of date-time texts.

## Implementation notes

Instants of the database are microseconds, those of JavaScript milliseconds. No hypothesis
relates the readings of the three clocks to each other. An account's identifier is a text made
of a fixed word and a UUID; the constructors of `AccountId` are these forms.
-/

namespace NetworkAi

/-! ### Identifiers -/

/-- A user. -/
abbrev UserId := Nat

/-- A resource domain: the machine whose slots one or more nodes share. -/
abbrev DomainId := Nat

/-- A node. -/
abbrev NodeId := Nat

/-- An execution route. -/
abbrev RouteId := Nat

/-- A quote. -/
abbrev QuoteId := Nat

/-- A session. -/
abbrev SessionId := Nat

/-- A contract with one node or an availability window. -/
abbrev LeaseId := Nat

/-- A cooperative pool. -/
abbrev PoolId := Nat

/-- An economic party. -/
abbrev PartyId := Nat

/-- An affiliation of a user with a party. -/
abbrev AffiliationId := Nat

/-- A declared operating support. -/
abbrev SupportId := Nat

/-- A renewal authorization. -/
abbrev AuthorizationId := Nat

/-- A mandate of a provider. -/
abbrev MandateId := Nat

/-! ### Clocks -/

/-- An instant of the database: microseconds since the epoch. -/
abbrev Micros := Int

/-- The milliseconds of an instant, as JavaScript reads it. -/
def toMs (t : Micros) : Int := t / 1000

/-- An instant of JavaScript in the database. -/
def ofMs (t : Int) : Micros := t * 1000

/-- An interval of whole seconds. -/
def seconds (n : Int) : Micros := n * 1000000

/-- What one transaction reads from outside the database. -/
structure Tx where
  /-- `now()`: the start of the transaction. -/
  now : Micros
  /-- The successive readings of `Date.now()`. -/
  date : Nat → Int
  /-- The successive readings of `clock_timestamp()`. -/
  wall : Nat → Micros
  /-- The successive results of `randomUUID()`. -/
  uuid : Nat → Nat

/-- The readings of a nested call, disjoint from those of the calls under other numbers. -/
def Tx.call (tx : Tx) (n : Nat) : Tx where
  now := tx.now
  date k := tx.date (Nat.pair (n + 1) k)
  wall k := tx.wall (Nat.pair (n + 1) k)
  uuid k := tx.uuid (Nat.pair (n + 1) k)

/-- `floor(extract(epoch FROM clock_timestamp())*1000)`. -/
def Tx.clock (tx : Tx) (k : Nat) : Int := toMs (tx.wall k)

/-! ### Accounts and business keys -/

/-- The identifiers of ledger accounts. -/
inductive AccountId where
  /-- `lab:issuer` -/
  | issuer
  /-- `lab:working` -/
  | labWorking
  /-- `availableAccount(user)` -/
  | available (user : UserId)
  /-- `heldAccount(user)` -/
  | held (user : UserId)
  /-- `lease:id:escrow` -/
  | leaseEscrow (lease : LeaseId)
  /-- `route-lease:id:escrow` -/
  | routeEscrow (lease : LeaseId)
  /-- `coop:id:working` -/
  | coopWorking (pool : PoolId)
  /-- `coop:id:reserve` -/
  | coopReserve (pool : PoolId)
  /-- `coop:id:burn` -/
  | coopBurn (pool : PoolId)
  deriving DecidableEq, Repr

/-- The business keys of the journal. -/
inductive BusinessKey where
  | hold (session : SessionId)
  | settle (session : SessionId)
  | grant (idempotencyKey : Nat)
  | leaseFund (lease : LeaseId)
  | leasePay (lease : LeaseId) (credited : Int)
  | leaseRefund (lease : LeaseId)
  | routeFund (lease : LeaseId)
  | routePay (lease : LeaseId) (paid : Int)
  | routeRefund (lease : LeaseId)
  | coopFunding (funding : Nat)
  | coopRefund (session : SessionId)
  /-- `bootstrap:private-lab` -/
  | bootstrap
  deriving DecidableEq, Repr

/-- The kinds of journal entries. -/
inductive PostKind where
  | reserve | settle | refund | labGrant
  | availabilityReserve | availabilityPayment | availabilityRefund
  | routeAvailabilityReserve | routeAvailabilityPayment | routeAvailabilityRefund
  | cooperativeFunding | cooperativeConsumptionRefund
  deriving DecidableEq, Repr

/-- The request of `Market.grant`, kept as the metadata of its journal entry. -/
structure GrantRequest where
  userId : UserId
  amount : Int
  idempotencyKey : Nat
  reason : String
  deriving DecidableEq, Repr

/-- The request as a value. -/
def GrantRequest.toJs (d : GrantRequest) : Js :=
  .obj [("user_id", .uuid d.userId), ("amount_microtu", .amount d.amount),
    ("idempotency_key", .uuid d.idempotencyKey), ("reason", .str d.reason)]

/-- The data of a journal entry that an operation reads back. -/
structure PostInfo where
  kind : PostKind
  createdAt : Micros
  grant : Option GrantRequest
  deriving DecidableEq, Repr

/-- The ledger of the control API. -/
abbrev Books := Ledger BusinessKey AccountId PostInfo

/-! ### The environment -/

/-- What the operations use of the platform. -/
structure Env where
  /-- `hash`: SHA-256 of a text, in hexadecimal. -/
  hash : List Char → String
  /-- `localeCompare` on the identifiers of accounts. -/
  accountLe : AccountId → AccountId → Bool
  /-- The instant that a date-time text of a request denotes. -/
  instant : String → Micros

/-- `hash(canonical(value))`: the digest of a value. -/
def Env.digest (env : Env) (value : Js) : String := env.hash (canonical value)

end NetworkAi
