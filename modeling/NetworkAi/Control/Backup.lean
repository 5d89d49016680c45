import NetworkAi.Control.Coordinator

set_option relaxedAutoImplicit false
set_option autoImplicit false

/-!
# The verification of a backup

A backup is restored into a fresh database and compared with the live one; then a fixed list of
queries looks for rows that contradict one another, across the ledger, the contracts, the
settlements and the renewals. Each query returns the keys of the rows that it finds, and the backup
is refused unless every query returns none.

## Main definitions

* `NetworkAi.Backup.mismatch`, `NetworkAi.Backup.escrowMismatch`, … — the queries, under the names
  that they have in the source.
* `NetworkAi.Backup.mismatches` — the verification: the names of the queries that found a row.

## Implementation notes

A join is read from the side of the row whose key is returned; where the joined row is missing, a
`JOIN` returns nothing and a `LEFT JOIN` compares with `NULL`, which `IS DISTINCT FROM` takes for
different and every other comparison for unknown. The restore itself, the counts of the two
databases and the writes that the runtime's role is denied are PostgreSQL's, and have no
counterpart.
-/

namespace NetworkAi.Backup

open Relational

variable (db : Db)

/-! ### The ledger -/

/-- `mismatch`: the accounts whose balance is not the sum of their lines. -/
def mismatch : List AccountId :=
  (db.books.accounts.rows.filter fun a => a.2.balance ≠ db.books.lineSum a.1).map Prod.fst

/-- An escrow account does not hold what its contract has left. -/
def escrowDiffers (account : AccountId) (left : Int) : Bool :=
  match db.books.accounts.find? account with
  | some a => a.balance ≠ left
  | none => false

/-! ### The contracts -/

/-- `escrowMismatch`: the contracts of nodes. -/
def escrowMismatch : List LeaseId :=
  (db.nodeLeases.rows.filter fun l => escrowDiffers db (.leaseEscrow l.1)
    (if l.2.state.isOpen then l.2.budget - l.2.paid else 0)).map Prod.fst

/-- `coverageEscrow`: the windows of routes. -/
def coverageEscrow : List LeaseId :=
  (db.routeLeases.rows.filter fun l => escrowDiffers db (.routeEscrow l.1)
    (if l.2.state.funded then l.2.budget - l.2.paid else 0)).map Prod.fst

/-- `coverageProjection`: the windows whose members do not add up to them. -/
def coverageProjection : List LeaseId :=
  (db.routeLeases.rows.filter fun l => l.2.members ≠ [] ∧
    ((l.2.members.map (·.maximum)).sum ≠ l.2.budget ∨
      (l.2.members.map (·.paid)).sum ≠ l.2.paid)).map Prod.fst

/-- `coverageClaims`: the claims of contracts that do not run. -/
def coverageClaims : List DomainId :=
  (db.claims.rows.filter fun c => match c.2 with
    | .routeLease id => ((db.routeLeases.find? id).map fun l => !l.state.running).getD false
    | .nodeLease id => ((db.nodeLeases.find? id).map fun l => decide (l.state ≠ .active)).getD
        false).map Prod.fst

/-- `expected` of `missingClaims`: the claims that the contracts that run should have. -/
def expectedClaims : List (DomainId × ClaimOwner) :=
  (db.nodeLeases.rows.filter fun l => l.2.state = .active).map
    (fun l => (l.2.resourceDomainId, .nodeLease l.1)) ++
  (db.routeLeases.rows.filter fun l => l.2.state.running).flatMap fun l =>
    (l.2.members.map fun m => (m.resourceDomainId, .routeLease l.1)).dedup

/-- `missingClaims`: the claims that are missing, and those that nothing expects. -/
def missingClaims : List (DomainId × ClaimOwner) :=
  ((expectedClaims db).filter fun c => c ∉ db.claims.rows) ++
    db.claims.rows.filter fun c => c ∉ expectedClaims db

/-! ### Settled consumption -/

/-- `routeProjection`: the sessions on routes whose participants do not add up to the charge. -/
def routeProjection : List SessionId :=
  (db.sessions.rows.filter fun s => s.2.routeId.isSome ∧ s.2.participants ≠ [] ∧
    (s.2.participants.map (·.paid)).sum ≠
      if s.2.billingState = .settled ∧ s.2.cooperativePoolId = none then
        s.2.charged - s.2.charged * 2000 / 10000
      else 0).map Prod.fst

/-- A settlement of a pool contradicts its session, its pool or its window, or is not posted. -/
def settlementDiffers (id : SessionId) (cs : Settlement) : Bool :=
  match db.sessions.find? id, db.pools.find? cs.poolId, db.windows.find? cs.coverageLeaseId with
  | some s, some cp, some cw =>
    cs.charge ≠ s.charged ∨ (∃ pool ∈ s.cooperativePoolId, cs.poolId ≠ pool) ∨
      cs.poolId ≠ cw.poolId ∨ cs.policySha256 ≠ cp.policySha256 ∨
      cs.charge ≠ cs.working + cs.reserve + cs.burned ∨ db.books.findKey (.settle id) = none
  | _, _, _ => false

/-- `cooperativeMismatches`. -/
def cooperativeMismatches : List SessionId :=
  (db.settlements.rows.filter fun cs => settlementDiffers db cs.1 cs.2).map Prod.fst

/-! ### Renewals -/

/-- What the runs of an authorization have committed out of a source. -/
def committedBy (id : AuthorizationId) (source : FundSource) : Int :=
  ((db.runs.rows.filter fun r => r.2.authorizationId = id ∧ r.2.source = source).map
    (·.2.committed)).sum

/-- `renewalProjection`: the authorizations that have not counted their runs. -/
def renewalProjection : List AuthorizationId :=
  (db.authorizations.rows.filter fun a =>
    (db.runs.rows.filter fun r => r.2.authorizationId = a.1).length ≠ a.2.windowsUsed ∨
      committedBy db a.1 .working ≠ a.2.workingCommitted ∨
      committedBy db a.1 .reserve ≠ a.2.reserveCommitted).map Prod.fst

/-- `mandateProjection`: the mandates that have not counted their usages. -/
def mandateProjection : List MandateId :=
  (db.mandates.rows.filter fun m =>
    (db.usages.rows.filter fun u => u.2.mandateId = m.1).length ≠ m.2.windowsUsed).map Prod.fst

/-- A run contradicts its authorization, its window or its lease, or a provider has no usage. -/
def runDiffers (lease : LeaseId) (rr : RenewalRun) : Bool :=
  match db.authorizations.find? rr.authorizationId, db.windows.find? lease,
    db.routeLeases.find? lease with
  | some a, some cw, some l =>
    a.poolId ≠ cw.poolId ∨ a.groupKey ≠ cw.groupKey ∨ a.kind ≠ cw.kind ∨
      rr.source ≠ cw.source ∨ rr.committed ≠ l.budget ∨
      (∃ ends ∈ l.endsMs, epochMs a.expiresAt < ends) ∨
      l.renewal.map (·.authorizationId) ≠ some rr.authorizationId ∨
      l.renewal.map (·.authorizationTermsSha256) ≠ some a.termsSha256 ∨
      ∃ am ∈ l.members, db.usages.find? (lease, am.providerId) = none
  | _, _, _ => false

/-- `renewalBindings`. -/
def renewalBindings : List LeaseId :=
  (db.runs.rows.filter fun rr => runDiffers db rr.1 rr.2).map Prod.fst

/-- A usage contradicts its mandate, or the acceptance that it was given for. -/
def usageDiffers (lease : LeaseId) (provider : UserId) (u : MandateUsage) : Bool :=
  match db.mandates.find? u.mandateId, db.routeLeases.find? lease with
  | some m, some l =>
    let acceptances := l.acceptances.filter fun ac => ac.providerId = provider
    provider ≠ m.providerId ∨ u.termsSha256 ≠ m.termsSha256 ∨ m.routeId ≠ l.routeId ∨
      m.routeSha256 ≠ l.routeSha256 ∨ acceptances = [] ∨
      (∃ ac ∈ acceptances, ac.mandateId ≠ some u.mandateId ∨ ac.termsSha256 ≠ l.termsSha256) ∨
      (∃ ends ∈ l.endsMs, epochMs m.expiresAt < ends) ∨
      some m.kind ≠ (db.windows.find? lease).map (·.kind) ∨
      ∀ am ∈ l.members, am.providerId ≠ provider
  | _, _ => false

/-- `mandateBindings`. -/
def mandateBindings : List (LeaseId × UserId) :=
  (db.usages.rows.filter fun u => usageDiffers db u.1.1 u.1.2 u.2).map Prod.fst

/-! ### Expansions -/

/-- The authorization that a window was renewed under. -/
def authorizationOf (lease : LeaseId) : Option Authorization :=
  (db.runs.find? lease).bind fun rr => db.authorizations.find? rr.authorizationId

/-- The operating support of the authorization that a window was renewed under. -/
def supportOf (lease : LeaseId) : Option OperatingSupport :=
  ((authorizationOf db lease).bind (·.operatingSupportId)).bind db.supports.find?

/-- An expansion contradicts its demand, the evidence of its terms or its operating support. -/
def expansionDiffers (env : Env) (lease : LeaseId) (w : CoopWindow) (l : RouteLease) : Bool :=
  match db.demands.find? lease, supportOf db lease with
  | some ed, some os =>
    let ea := db.affiliations.find? ed.affiliationId
    w.source ≠ .working ∨
      l.terms.cooperative.bind (·.expansion) ≠ some ed.evidence ∨
      (l.terms.cooperative.bind (·.expansion)).map (fun e => env.digest e.toJs) ≠
        some ed.evidenceSha256 ∨
      ea.map (·.partyId) ≠ some ed.consumerPartyId ∨
      ea.map (·.userId) ≠ (db.sessions.find? ed.sessionId).map (·.userId) ∨
      ed.evidence.sessionId ≠ ed.sessionId ∨
      some ed.evidence.affiliationId ≠ ea.map (fun _ => ed.affiliationId) ∨
      os.poolId ≠ w.poolId ∨
      some os.policySha256 ≠ (authorizationOf db lease).map (·.policySha256) ∨
      ed.evidence.view.support.map (·.termsSha256) ≠ some os.termsSha256
  | _, _ => true

/-- A window contradicts the kind of coverage of its terms, or the records of its expansion. -/
def coverageDiffers (env : Env) (lease : LeaseId) (w : CoopWindow) : Bool :=
  match db.routeLeases.find? lease with
  | some l =>
    w.kind ≠ (l.terms.cooperative.map (·.kind)).getD .essential ∨
      (w.kind = .essential ∧ (db.demands.find? lease).isSome) ∨
      (w.kind = .expansion ∧ expansionDiffers db env lease w l)
  | none => false

/-- `expansionBindings`. -/
def expansionBindings (env : Env) : List LeaseId :=
  (db.windows.rows.filter fun w => coverageDiffers db env w.1 w.2).map Prod.fst

/-! ### The verification -/

/-- The queries by their names in the report, each with whether it found a row. -/
def findings (env : Env) : List (String × Bool) :=
  [("balance_sum", decide (db.books.accounts.rows = [] ∨ db.books.totalBalance ≠ 0)),
    ("projection_mismatches", decide (mismatch db ≠ [])),
    ("availability_escrow_mismatches", decide (escrowMismatch db ≠ [])),
    ("route_payout_mismatches", decide (routeProjection db ≠ [])),
    ("complete_route_readiness_escrow_mismatches", decide (coverageEscrow db ≠ [])),
    ("complete_route_readiness_payout_mismatches", decide (coverageProjection db ≠ [])),
    ("inactive_readiness_domain_claims", decide (coverageClaims db ≠ [])),
    ("missing_or_extra_readiness_domain_claims", decide (missingClaims db ≠ [])),
    ("cooperative_settlement_mismatches", decide (cooperativeMismatches db ≠ [])),
    ("renewal_authority_projection_mismatches", decide (renewalProjection db ≠ [])),
    ("provider_mandate_projection_mismatches", decide (mandateProjection db ≠ [])),
    ("renewal_contract_binding_mismatches", decide (renewalBindings db ≠ [])),
    ("provider_mandate_binding_mismatches", decide (mandateBindings db ≠ [])),
    ("expansion_demand_support_and_coverage_binding_mismatches",
      decide (expansionBindings db env ≠ []))]

/-- The names of the queries that found a row: the backup is refused unless there is none. -/
def mismatches (env : Env) : List String :=
  ((findings db env).filter fun q => q.2).map Prod.fst

end NetworkAi.Backup
