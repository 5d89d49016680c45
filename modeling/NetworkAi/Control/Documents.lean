import NetworkAi.Contracts
import NetworkAi.Control.Registry

set_option relaxedAutoImplicit false
set_option autoImplicit false

/-!
# The documents of the cooperative economy

The terms that parties accept by their hash: of funding plans, of readiness windows with their
cooperative, renewal and expansion parts, of renewal authorizations, of provider mandates and of
operating support. Each is a record of the values its author computes with, and `toJs` is the
JavaScript object the source builds from them, member by member.

## Main definitions

* `NetworkAi.CoopPolicy`, `NetworkAi.LeaseTerms`, `NetworkAi.CoopContext`,
  `NetworkAi.AuthorizationTerms`, `NetworkAi.MandateTerms`, `NetworkAi.SupportTerms`.
* `NetworkAi.ExpansionEvidence` — the evidence of an expansion, with the gates it was judged by.

## Implementation notes

Amounts are decimal strings in every document; durations, ordinals and shares are numbers. An
instant that comes from a request is the request's text. The instant `expires_at` of an operating
support is read from a `timestamptz` column and enters the expansion evidence as the `Date` object
that the database driver returns.
-/

namespace NetworkAi

/-! ### Enumerations -/

/-- The two sources of a pool's funds. -/
inductive FundSource where
  | working | reserve
  deriving DecidableEq, Repr

/-- The text of a source. -/
def FundSource.text : FundSource → String
  | .working => "WORKING"
  | .reserve => "RESERVE"

/-- Essential coverage, or a demand-backed expansion of it. -/
inductive CoverageKind where
  | essential | expansion
  deriving DecidableEq, Repr

/-- The text of a kind. -/
def CoverageKind.text : CoverageKind → String
  | .essential => "ESSENTIAL"
  | .expansion => "EXPANSION"

/-- The purposes of a route readiness window. -/
inductive LeasePurpose where
  | requested | scheduled | experiment
  deriving DecidableEq, Repr

/-- The text of a purpose. -/
def LeasePurpose.text : LeasePurpose → String
  | .requested => "REQUESTED"
  | .scheduled => "SCHEDULED"
  | .experiment => "EXPERIMENT"

/-! ### Funding plans -/

/-- A row of `cooperative_routes`. -/
structure CoopRoute where
  routeId : RouteId
  routeSha256 : String
  deriving DecidableEq, Repr

/-- A row of `cooperative_groups` with its routes. -/
structure CoopGroup where
  key : String
  modelId : String
  rate : Int
  durationSeconds : Nat
  routes : List CoopRoute
  deriving DecidableEq, Repr

/-- The price of one window of a group. -/
def CoopGroup.cost (g : CoopGroup) : Int := g.rate * g.durationSeconds

/-- The policy document of a plan. -/
structure CoopPolicy where
  poolId : PoolId
  groups : List CoopGroup
  expansion : String
  deriving DecidableEq, Repr

/-- The value of `expansion` that permits expansion windows. -/
def expansionPermission : String := "PRIVATE_DEMAND_BACKED_SEPARATE_AUTHORIZATION"

/-- A group as a value. -/
def CoopGroup.toJs (g : CoopGroup) : Js :=
  .obj [("key", .str g.key), ("model_id", .str g.modelId),
    ("rate_microtu_per_second", .amount g.rate), ("duration_seconds", .nat g.durationSeconds),
    ("routes", .arr (g.routes.map fun r =>
      .obj [("route_id", .uuid r.routeId), ("route_sha256", .str r.routeSha256)]))]

/-- The policy of `Cooperative.create`. -/
def CoopPolicy.toJs (p : CoopPolicy) : Js :=
  .obj [("version", .str "private-cooperative-floor-first-v2"), ("pool_id", .uuid p.poolId),
    ("groups", .arr (p.groups.map (·.toJs))), ("floor_seconds", .nat 21600),
    ("working_seconds", .nat 86400), ("reserve_seconds", .nat 259200),
    ("recovery_seconds", .nat 86400), ("compensation", .str "READINESS_ONLY"),
    ("recycling", .str "FLOOR_RESERVE_WORKING_BURN"),
    ("funding", .str "COMMITTED_LAB_CREDITS_NO_REDEMPTION"), ("expansion", .str p.expansion),
    ("issuance", .str "NONE"), ("governance", .str "SINGLE_PRIVATE_COORDINATOR")]

/-! ### Expansion evidence -/

/-- The gates of `expansionFacts`, in the order of the source. -/
structure Gates where
  policyPermission : Bool
  normalRecovery : Bool
  workingFloor : Bool
  protectedReserve : Bool
  operatingSupport : Bool
  essentialCoverage : Bool
  essentialContractSlots : Bool
  recurringFlow : Bool
  fundedPressure : Bool
  additionalCompleteRoute : Bool
  deriving DecidableEq, Repr

/-- `Object.entries(gates)`. -/
def Gates.entries (g : Gates) : List (String × Bool) :=
  [("policy_permission", g.policyPermission), ("normal_recovery", g.normalRecovery),
    ("working_floor", g.workingFloor), ("protected_reserve", g.protectedReserve),
    ("operating_support", g.operatingSupport), ("essential_coverage", g.essentialCoverage),
    ("essential_contract_slots", g.essentialContractSlots),
    ("recurring_flow", g.recurringFlow), ("funded_pressure", g.fundedPressure),
    ("additional_complete_route", g.additionalCompleteRoute)]

/-- The names of the gates that are closed. -/
def Gates.blockedBy (g : Gates) : List String :=
  (g.entries.filter fun e => !e.2).map Prod.fst

/-- The operating support an expansion rests on, as it enters the evidence. -/
structure SupportEvidence where
  id : SupportId
  termsSha256 : String
  expiresAt : Micros
  deriving DecidableEq, Repr

/-- The figures of `expansionFacts` without the demand and the candidates: the view of
`publicExpansion`. -/
structure ExpansionView where
  evaluatedAt : Int
  gates : Gates
  windowBudget : Int
  freeWorking : Int
  essentialFloor : Int
  freeReserve : Int
  reserveTarget : Int
  netRecycled : Int
  normalCost : Int
  eligibleFundedParties : Nat
  spareCoveredSlots : Nat
  additionalCompleteRoutes : Nat
  essentialGroupsCovered : Nat
  essentialGroupsRequired : Nat
  reservedSponsorContractSlots : Nat
  support : Option SupportEvidence
  deriving DecidableEq, Repr

/-- The members of the view. -/
def ExpansionView.members (v : ExpansionView) : List (String × Js) :=
  [("policy", .str "private-demand-backed-expansion-v1"),
    ("qualification_scope", .str "PRIVATE_DECLARED_PARTIES"),
    ("evaluated_at", .str (isoText v.evaluatedAt)),
    ("approved", .bool (v.gates.blockedBy = [])),
    ("blocked_by", .arr (v.gates.blockedBy.map .str)),
    ("gates", .obj (v.gates.entries.map fun e => (e.1, .bool e.2))),
    ("window_budget_microtu", .amount v.windowBudget),
    ("free_working_microtu", .amount v.freeWorking),
    ("essential_floor_microtu", .amount v.essentialFloor),
    ("free_reserve_microtu", .amount v.freeReserve),
    ("reserve_target_microtu", .amount v.reserveTarget),
    ("net_recycled_microtu", .amount v.netRecycled),
    ("normal_cost_microtu", .amount v.normalCost),
    ("eligible_funded_parties", .nat v.eligibleFundedParties),
    ("spare_covered_slots", .nat v.spareCoveredSlots),
    ("additional_complete_routes", .nat v.additionalCompleteRoutes),
    ("essential_groups_covered", .nat v.essentialGroupsCovered),
    ("essential_groups_required", .nat v.essentialGroupsRequired),
    ("reserved_sponsor_contract_slots", .nat v.reservedSponsorContractSlots),
    ("support", match v.support with
      | some s => .obj [("id", .uuid s.id), ("terms_sha256", .str s.termsSha256),
          ("expires_at", .date (toMs s.expiresAt))]
      | none => .null)]

/-- The evidence of an expansion: the view with the demand it was granted for. -/
structure ExpansionEvidence where
  view : ExpansionView
  sessionId : SessionId
  partyId : PartyId
  affiliationId : AffiliationId
  hold : Int
  deriving DecidableEq, Repr

/-- The evidence as a value. -/
def ExpansionEvidence.toJs (e : ExpansionEvidence) : Js :=
  .obj (e.view.members ++ [("selected_demand", .obj [("session_id", .uuid e.sessionId),
    ("party_id", .uuid e.partyId), ("affiliation_id", .uuid e.affiliationId),
    ("hold_microtu", .amount e.hold)])])

/-! ### Readiness windows -/

/-- One mandate a renewal cites. -/
structure MandateGrant where
  id : MandateId
  providerId : UserId
  termsSha256 : String
  deriving DecidableEq, Repr

/-- The renewal a window belongs to. -/
structure RenewalTerms where
  authorizationId : AuthorizationId
  authorizationTermsSha256 : String
  sequence : Nat
  providerMandates : List MandateGrant
  deriving DecidableEq, Repr

/-- A renewal as a value. -/
def RenewalTerms.toJs (r : RenewalTerms) : Js :=
  .obj [("authorization_id", .uuid r.authorizationId),
    ("authorization_terms_sha256", .str r.authorizationTermsSha256), ("sequence", .nat r.sequence),
    ("provider_mandates", .arr (r.providerMandates.map fun m =>
      .obj [("id", .uuid m.id), ("provider_id", .uuid m.providerId),
        ("terms_sha256", .str m.termsSha256)]))]

/-- The cooperative part of a window's terms. -/
structure CoopContext where
  poolId : PoolId
  groupKey : String
  policySha256 : String
  source : FundSource
  incidentId : Option Nat
  requestSha256 : String
  supportUntil : Int
  renewal : Option RenewalTerms
  expansion : Option ExpansionEvidence
  deriving DecidableEq, Repr

/-- `coverage_kind` of the terms, which only an expansion has. -/
def CoopContext.kind (c : CoopContext) : CoverageKind :=
  if c.expansion.isSome then .expansion else .essential

/-- The context of `Cooperative.offerTransaction`. -/
def CoopContext.toJs (env : Env) (c : CoopContext) : Js :=
  .obj ([("pool_id", .uuid c.poolId), ("group_key", .str c.groupKey),
    ("policy_sha256", .str c.policySha256), ("funding_source", .str c.source.text),
    ("incident_id", .uuidOrNull c.incidentId), ("request_sha256", .str c.requestSha256),
    ("support_until", .str (isoText c.supportUntil)), ("compensation", .str "READINESS_ONLY")] ++
    Js.optional "renewal" (c.renewal.map (·.toJs)) ++
    match c.expansion with
    | some e => [("coverage_kind", .str "EXPANSION"), ("expansion", e.toJs),
        ("expansion_sha256", .str (env.digest e.toJs))]
    | none => [])

/-- The terms of a route readiness window. -/
structure LeaseTerms where
  leaseId : LeaseId
  sponsorId : UserId
  routeId : RouteId
  routeSha256 : String
  manifestSha256 : String
  durationSeconds : Nat
  rate : Int
  budget : Int
  purpose : LeasePurpose
  reason : String
  cooperative : Option CoopContext
  members : List (RouteMember × Int)
  deriving DecidableEq, Repr

/-- A member of a window as a value: the route's member with its maximum payment. -/
def leaseMemberJs (m : RouteMember × Int) : Js :=
  .obj [("node_id", .uuid m.1.nodeId), ("provider_id", .uuid m.1.providerId),
    ("resource_domain_id", .uuid m.1.resourceDomainId), ("ordinal", .nat m.1.ordinal),
    ("role", .str m.1.role.text), ("share_bps", .nat m.1.shareBps),
    ("maximum_microtu", .amount m.2)]

/-- `compensation` of the terms. -/
def LeaseTerms.compensation (t : LeaseTerms) : String :=
  if t.cooperative.isSome then "READINESS_ONLY" else "ADDITIONAL_TO_INFERENCE"

/-- The terms of `RouteAvailability.offerTransaction`. -/
def LeaseTerms.toJs (env : Env) (t : LeaseTerms) : Js :=
  .obj ([("policy", .str "funded-complete-route-v1"), ("lease_id", .uuid t.leaseId),
    ("sponsor_id", .uuid t.sponsorId), ("route_id", .uuid t.routeId),
    ("route_sha256", .str t.routeSha256), ("manifest_sha256", .str t.manifestSha256),
    ("duration_seconds", .nat t.durationSeconds), ("rate_microtu_per_second", .amount t.rate),
    ("budget_microtu", .amount t.budget), ("purpose", .str t.purpose.text),
    ("reason", .str t.reason), ("compensation", .str t.compensation)] ++
    Js.optional "cooperative" (t.cooperative.map (·.toJs env)) ++
    [("cancellation", .str "PRESERVE_OTHER_ACCEPTED_COMPONENTS_UNTIL_END"),
      ("members", .arr (t.members.map leaseMemberJs))])

/-! ### Renewal authority -/

/-- The policy name of an authority's terms. -/
def renewalPolicy : CoverageKind → String
  | .essential => "bounded-essential-renewal-v1"
  | .expansion => "bounded-demand-expansion-v1"

/-- The terms of a renewal authorization. -/
structure AuthorizationTerms where
  kind : CoverageKind
  operatingSupportId : Option SupportId
  authorizationId : AuthorizationId
  poolId : PoolId
  policySha256 : String
  groupKey : String
  durationSeconds : Nat
  windowBudget : Int
  maximumWindows : Nat
  maximumWorking : Int
  maximumReserve : Int
  expiresAt : String
  reason : String
  deriving DecidableEq, Repr

/-- The terms of `Renewals.authorize`. -/
def AuthorizationTerms.toJs (t : AuthorizationTerms) : Js :=
  .obj ([("policy", .str (renewalPolicy t.kind))] ++
    (if t.kind = .expansion then
      [("coverage_kind", .str t.kind.text),
        ("operating_support_id", .uuidOrNull t.operatingSupportId)]
    else []) ++
    [("authorization_id", .uuid t.authorizationId), ("pool_id", .uuid t.poolId),
      ("policy_sha256", .str t.policySha256), ("group_key", .str t.groupKey),
      ("duration_seconds", .nat t.durationSeconds),
      ("window_budget_microtu", .amount t.windowBudget),
      ("maximum_windows", .nat t.maximumWindows),
      ("maximum_working_microtu", .amount t.maximumWorking),
      ("maximum_reserve_microtu", .amount t.maximumReserve), ("expires_at", .str t.expiresAt),
      ("budget_basis", .str "GROSS_COMMITMENTS_REFUNDS_DO_NOT_RESTORE_LIMITS"),
      ("compensation", .str "READINESS_ONLY"), ("reason", .str t.reason)])

/-- The terms of a provider mandate. -/
structure MandateTerms where
  kind : CoverageKind
  mandateId : MandateId
  poolId : PoolId
  policySha256 : String
  providerId : UserId
  routeId : RouteId
  routeSha256 : String
  durationSeconds : Nat
  windowBudget : Int
  maximumWindows : Nat
  expiresAt : String
  components : List (RouteMember × Int)
  reason : String
  deriving DecidableEq, Repr

/-- The terms of `Renewals.mandate`. -/
def MandateTerms.toJs (t : MandateTerms) : Js :=
  .obj ([("policy", .str (renewalPolicy t.kind))] ++
    (if t.kind = .expansion then [("coverage_kind", .str t.kind.text)] else []) ++
    [("mandate_id", .uuid t.mandateId), ("pool_id", .uuid t.poolId),
      ("policy_sha256", .str t.policySha256), ("provider_id", .uuid t.providerId),
      ("route_id", .uuid t.routeId), ("route_sha256", .str t.routeSha256),
      ("duration_seconds", .nat t.durationSeconds),
      ("window_budget_microtu", .amount t.windowBudget),
      ("maximum_windows", .nat t.maximumWindows),
      ("maximum_window_seconds", .nat (t.maximumWindows * t.durationSeconds)),
      ("expires_at", .str t.expiresAt), ("compensation", .str "READINESS_ONLY"),
      ("components", .arr (t.components.map leaseMemberJs)),
      ("revocation", .str "FUTURE_WINDOWS_ONLY_ACCEPTED_OBLIGATIONS_PRESERVED"),
      ("reason", .str t.reason)])

/-- The terms of an operating support. -/
structure SupportTerms where
  id : SupportId
  poolId : PoolId
  actorId : UserId
  evidenceSha256 : String
  sourceReference : String
  idempotencyKey : Nat
  policySha256 : String
  scope : String
  expiresAt : String
  deriving DecidableEq, Repr

/-- The terms of `Economics.support`. -/
def SupportTerms.toJs (t : SupportTerms) : Js :=
  .obj [("policy", .str "private-in-kind-support-v1"), ("id", .uuid t.id),
    ("pool_id", .uuid t.poolId), ("actor_id", .uuid t.actorId),
    ("evidence_sha256", .str t.evidenceSha256), ("source_reference", .str t.sourceReference),
    ("idempotency_key", .uuid t.idempotencyKey), ("policy_sha256", .str t.policySha256),
    ("scope", .str t.scope), ("expires_at", .str t.expiresAt),
    ("consent", .str "PRIVATE_IN_KIND_SUPPORT_NO_VERIFIED_CASH_CLAIM")]

end NetworkAi
