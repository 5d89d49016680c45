import NetworkAi.Control.Database

set_option relaxedAutoImplicit false
set_option autoImplicit false

/-!
# Accounts, quotes and grants

`Auth.createUser` with the user's ledger accounts, and the operations of `market.ts` that write
quotes and credits: a quote freezes the price of a full context for a minute, a grant moves
laboratory credits from the issuer to a user.

## Main definitions

* `NetworkAi.createUser`, `NetworkAi.quote`, `NetworkAi.grant` — the operations.
-/

namespace NetworkAi

open Relational

/-- `createAccounts`. -/
def createAccounts (books : Books) (user : UserId) : Books :=
  (books.openAccount (.available user) .available).openAccount (.held user) .held

/-- `Auth.createUser`: the account with its ledger accounts. -/
def createUser (tx : Tx) (db : Db) (user : Actor) (role : Role) : Except Failure Db := do
  let id := tx.uuid 0
  let registry ← db.registry.createUser user id role
  return { db with registry, books := createAccounts db.books id }

/-- `quoteSchema`. -/
structure QuoteRequest where
  model : String
  maxOutputTokens : Nat
  cooperativePoolId : Option PoolId
  deriving DecidableEq, Repr

/-- The pool a quote refers to, while it serves the model and has operating support. -/
def quotePool (tx : Tx) (db : Db) (id : PoolId) (model : String) : Option Pool :=
  (db.pools.find? id).filter fun p =>
    p.paused = false ∧ tx.now < p.supportUntil ∧ ∃ g ∈ p.groups, g.modelId = model

/-- `Market.quote`, with the identifier of the new quote. -/
def quote (tx : Tx) (db : Db) (user : Actor) (d : QuoteRequest) :
    Except Failure (QuoteId × Db) := do
  parse (1 ≤ d.maxOutputTokens ∧ d.maxOutputTokens ≤ 8192)
  let row ← needRow (db.registry.models.find? d.model) 404 "model_unavailable"
    "Modelo não habilitado para o laboratório."
  need (row.state = .localPreview) 404 "model_unavailable"
    "Modelo não habilitado para o laboratório."
  need (d.maxOutputTokens ≤ row.manifest.maxOutputTokens) 400 "output_limit"
    "Saída acima do limite deste modelo."
  let maximum ← quoteMaximum row.manifest d.maxOutputTokens
  let pool := d.cooperativePoolId.bind fun id => quotePool tx db id d.model
  need (d.cooperativePoolId = none ∨ pool ≠ none) 409 "pool_unavailable"
    "Este plano não oferece o modelo ou está sem apoio operacional."
  let id := tx.uuid 0
  let quotes ← reference (db.quotes.insert? id
    { userId := user.id, modelId := d.model, manifest := row.manifest
      manifestSha256 := row.manifestSha256, maxOutputTokens := d.maxOutputTokens, maximum
      expiresAt := tx.now + seconds 60
      cooperativePoolId := pool.bind fun _ => d.cooperativePoolId
      cooperativePolicySha256 := pool.map (·.policySha256) }) "quotes_pkey"
  return (id, { db with quotes })

/-- `Market.grant`, with the identifier of the journal entry. -/
def grant (env : Env) (tx : Tx) (db : Db) (user : Actor) (d : GrantRequest) :
    Except Failure (JournalId × Db) := do
  user.admin
  parse (isAmount d.amount)
  need (0 < d.amount ∧ d.amount ≤ 1000000000) 400 "grant_limit"
    "A concessão de teste deve ficar entre 0 e 1.000 LAB_TU."
  let previous := (db.books.findKey (.grant d.idempotencyKey)).bind db.books.journal.find?
  need (∀ row ∈ previous, row.info.grant.map (canonical ·.toJs) = some (canonical d.toJs)) 409
    "idempotency_conflict" "Identificador já utilizado com outros dados."
  db.post env (tx.uuid 0) (.grant d.idempotencyKey)
    { kind := .labGrant, createdAt := tx.now, grant := some d }
    [(.issuer, -d.amount), (.available d.userId, d.amount)]

end NetworkAi
