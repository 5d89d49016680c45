import NetworkAi.Invariants.Coverage
import NetworkAi.Invariants.EffectOnce
import NetworkAi.Invariants.Expansion
import NetworkAi.Invariants.PoolConservation

set_option relaxedAutoImplicit false
set_option autoImplicit false

/-!
# What the records of renewals are bound to

A run, a usage and a demand cite rows of other tables, and repeat some of their columns. They are
written in one transaction and never again; the rows that they cite go on. What was checked when
they were written stays true, because it rests on the columns that nothing writes any more.

## Main definitions

* `NetworkAi.Cites` — the rows that records cite, after a change.
* `NetworkAi.RunBound`, `NetworkAi.UsageBound`, `NetworkAi.SettlementBound` — a record agrees with
  the rows that it cites.
* `NetworkAi.Bindings` — all records do.

## Main results

* `NetworkAi.Change.cites` — a change leaves alone what records cite.
* `NetworkAi.reachable_bindings` — the records of every reachable database are bound.
-/

namespace NetworkAi

open Relational

variable {env : Env} {req : Request} {tx : Tx} {db db' : Db} {id : LeaseId}

/-! ### Rows as they were given -/

/-- An authorization without what its renewals, attempts and end write. -/
def Authorization.given (a : Authorization) : Authorization :=
  { a with
    windowsUsed := 0, workingCommitted := 0, reserveCommitted := 0, state := .active
    revokedAt := none, lastStatus := .waiting, lastAttemptAt := none }

/-- A mandate without what its usages and its end write. -/
def Mandate.given (m : Mandate) : Mandate :=
  { m with windowsUsed := 0, state := .active, revokedAt := none }

/-- A support without its revocation. -/
def OperatingSupport.given (s : OperatingSupport) : OperatingSupport := { s with revokedAt := none }

/-- An affiliation without its revocation. -/
def Affiliation.given (a : Affiliation) : Affiliation := { a with revokedAt := none }

/-- What two authorizations have in common that were given as one. -/
theorem Authorization.given_eq {a a' : Authorization} (h : a'.given = a.given) :
    a'.poolId = a.poolId ∧ a'.groupKey = a.groupKey ∧ a'.kind = a.kind ∧
      a'.expiresAt = a.expiresAt ∧ a'.policySha256 = a.policySha256 ∧
      a'.termsSha256 = a.termsSha256 ∧ a'.operatingSupportId = a.operatingSupportId := by
  simp only [given, Authorization.mk.injEq] at h
  obtain ⟨hpool, hgroup, -, hpolicy, -, -, -, -, -, -, -, hsha, hexpires, -, -, -, -, -, -, hkind,
    hsupport⟩ := h
  exact ⟨hpool, hgroup, hkind, hexpires, hpolicy, hsha, hsupport⟩

/-- What two mandates have in common that were given as one. -/
theorem Mandate.given_eq {m m' : Mandate} (h : m'.given = m.given) :
    (m'.poolId = m.poolId ∧ m'.policySha256 = m.policySha256) ∧
      m'.providerId = m.providerId ∧ m'.routeId = m.routeId ∧ m'.routeSha256 = m.routeSha256 ∧
      m'.termsSha256 = m.termsSha256 ∧ m'.expiresAt = m.expiresAt ∧ m'.kind = m.kind := by
  simp only [given, Mandate.mk.injEq] at h
  obtain ⟨hpool, hprovider, hroute, hrouteSha, hpolicy, -, -, -, hsha, hexpires, -, -, -, -,
    hkind⟩ := h
  exact ⟨⟨hpool, hpolicy⟩, hprovider, hroute, hrouteSha, hsha, hexpires, hkind⟩

/-- What two supports have in common that were declared as one. -/
theorem OperatingSupport.given_eq {s s' : OperatingSupport} (h : s'.given = s.given) :
    s'.poolId = s.poolId ∧ s'.policySha256 = s.policySha256 ∧ s'.termsSha256 = s.termsSha256 := by
  simp only [given, OperatingSupport.mk.injEq] at h
  exact ⟨h.1, h.2.1, h.2.2.2.2.2.2.2.2.2⟩

/-- What two affiliations have in common that were declared as one. -/
theorem Affiliation.given_eq {a a' : Affiliation} (h : a'.given = a.given) :
    a'.userId = a.userId ∧ a'.partyId = a.partyId := by
  simp only [given, Affiliation.mk.injEq] at h
  exact ⟨h.1, h.2.1⟩

/-- A window after a change, as far as records cite it: it keeps its terms, and its acceptances
once it has started; no provider accepts twice. -/
structure RouteLease.Cited (l l' : RouteLease) : Prop where
  keeps : l.Keeps l'
  acceptances : l.state ≠ .offered → l'.acceptances = l.acceptances
  keys : Acceptances l.acceptances l'.acceptances

/-- **What records cite**, after a change. -/
structure Cites (db db' : Db) : Prop where
  authorization : ∀ id a, db.authorizations.find? id = some a →
    ∃ a', db'.authorizations.find? id = some a' ∧ a'.given = a.given
  mandate : ∀ id m, db.mandates.find? id = some m →
    ∃ m', db'.mandates.find? id = some m' ∧ m'.given = m.given
  support : ∀ id s, db.supports.find? id = some s →
    ∃ s', db'.supports.find? id = some s' ∧ s'.given = s.given
  affiliation : ∀ id a, db.affiliations.find? id = some a →
    ∃ a', db'.affiliations.find? id = some a' ∧ a'.given = a.given
  session : ∀ id s, db.sessions.find? id = some s →
    ∃ s', db'.sessions.find? id = some s' ∧ s'.userId = s.userId
  window : ∀ id w, db.windows.find? id = some w → db'.windows.find? id = some w
  lease : ∀ id l, db.routeLeases.find? id = some l →
    ∃ l', db'.routeLeases.find? id = some l' ∧ l.Cited l'
  run : ∀ id r, db.runs.find? id = some r → db'.runs.find? id = some r

/-- An authorization keeps what it was given for. -/
theorem Change.authorizations_given (h : Change env req tx db db') :
    db.authorizations.Grows (SameOrigin Authorization.given) (fun _ _ => True)
      db'.authorizations := by
  rcases h with h | h
  · cases h with
    | authorized hid => exact .insert (.refl _) hid trivial
    | authorizationsClosed h =>
      exact ⟨fun k a ha => (h.1 k a ha).imp fun a' hr => ⟨hr.1, by rw [hr.2.row]; rfl⟩,
        fun _ _ _ _ => trivial⟩
    | _ => exact .refl (.refl _) _
  · cases h with
    | authority ha => exact .set (.refl _) ha (by unfold Authorization.consume; rfl)
    | _ => exact .refl (.refl _) _

/-- A mandate keeps what it was given for. -/
theorem Change.mandates_given (h : Change env req tx db db') :
    db.mandates.Grows (SameOrigin Mandate.given) (fun _ _ => True) db'.mandates := by
  rcases h with h | h
  · cases h with
    | mandated hid => exact .insert (.refl _) hid trivial
    | mandatesClosed h =>
      exact ⟨fun k m hm => (h.1 k m hm).imp fun m' hr => ⟨hr.1, by rw [hr.2.row]; rfl⟩,
        fun _ _ _ _ => trivial⟩
    | _ => exact .refl (.refl _) _
  · cases h with
    | mandate hm => exact .set (.refl _) hm rfl
    | _ => exact .refl (.refl _) _

/-- The acceptances of a window after a change. -/
theorem Change.acceptances (h : Change env req tx db db') {l : RouteLease}
    (hl : db.routeLeases.find? id = some l) :
    ∃ l', db'.routeLeases.find? id = some l' ∧
      (l.state ≠ .offered → l'.acceptances = l.acceptances) ∧
      Acceptances l.acceptances l'.acceptances := by
  have hgrows : db.routeLeases.Grows (fun l l' : RouteLease =>
      (l.state ≠ .offered → l'.acceptances = l.acceptances) ∧
        Acceptances l.acceptances l'.acceptances) (fun _ _ => True) db'.routeLeases := by
    have hrefl : ∀ l : RouteLease, (l.state ≠ .offered → l.acceptances = l.acceptances) ∧
        Acceptances l.acceptances l.acceptances := fun l => ⟨fun _ => rfl, fun h => h⟩
    rcases h with h | h
    · cases h with
      | routeOffered h | windowOffered h => exact .insert hrefl h.id trivial
      | routeAccepted hrow hstate _ hkeys =>
        exact .set hrefl hrow ⟨fun hne => absurd hstate hne, hkeys⟩
      | routeActivated hrow hstate _ _ _ _ _ hkeys =>
        exact .set hrefl hrow ⟨fun hne => absurd hstate hne, hkeys⟩
      | routeSampled hrow _ _ _ _ _ _ hsampled =>
        exact .set hrefl hrow (by rw [hsampled]; exact hrefl _)
      | routeDrained hrow | routeClosed hrow => exact .set hrefl hrow (hrefl _)
      | _ => exact .refl hrefl _
    · cases h <;> exact .refl hrefl _
  exact hgrows.old hl

/-- **A change leaves alone what records cite.** -/
theorem Change.cites (h : Change env req tx db db') : Cites db db' where
  authorization id a ha := h.authorizations_given.old ha
  mandate id m hm := h.mandates_given.old hm
  support id s hs := by
    have hgrows : db.supports.Grows (SameOrigin OperatingSupport.given) (fun _ _ => True)
        db'.supports := by
      rcases h with h | h
      · cases h with
        | economy _ _ _ hrows =>
          exact ⟨fun k s hs => (hrows.2.2.old hs).imp fun s' hr => ⟨hr.1, by rw [hr.2.row]; rfl⟩,
            fun _ _ _ _ => trivial⟩
        | _ => exact .refl (.refl _) _
      · cases h <;> exact .refl (.refl _) _
    exact hgrows.old hs
  affiliation id a ha := by
    obtain ⟨a', ha', hr⟩ := h.affiliations.old ha
    exact ⟨a', ha', by rw [hr.row]; rfl⟩
  session id s hs := by
    obtain ⟨s', hs', hkeeps⟩ := h.sessions.old hs
    exact ⟨s', hs', hkeeps.user⟩
  window id w hw := by
    obtain ⟨w', hw', rfl⟩ := h.windows.old hw
    exact hw'
  lease id l hl := by
    obtain ⟨l', hl', hkeeps⟩ := h.routeLeases.old hl
    obtain ⟨l₁, hl₁, hsame, hkeys⟩ := h.acceptances hl
    rw [hl', Option.some.injEq] at hl₁
    subst hl₁
    exact ⟨l', hl', hkeeps, hsame, hkeys⟩
  run id r hr := by
    obtain ⟨r', hr', rfl⟩ := h.records.1.old hr
    exact hr'

/-! ### Bound records -/

/-- What it says that the terms of a lease cite a run of an authorization. -/
theorem citesAuthorization_cases {l : RouteLease} {a : Authorization} {run : RenewalRun}
    (h : citesAuthorization l a run = true) :
    ∃ r, l.renewal = some r ∧ r.authorizationId = run.authorizationId ∧
      r.sequence = run.sequence ∧ r.authorizationTermsSha256 = a.termsSha256 := by
  unfold citesAuthorization at h
  split at h
  · rename_i r hr
    simp only [Bool.decide_and, Bool.and_eq_true, decide_eq_true_eq] at h
    exact ⟨r, hr, h⟩
  · cases h

/-- **A run agrees** with its authorization, its window and the terms of its lease; for an
expansion, these cite the operating support of the authorization. -/
structure RunBound (db : Db) (id : LeaseId) (run : RenewalRun) (a : Authorization)
    (w : CoopWindow) (l : RouteLease) : Prop where
  authorization : db.authorizations.find? run.authorizationId = some a
  window : db.windows.find? id = some w
  lease : db.routeLeases.find? id = some l
  started : l.state ≠ .offered
  plan : a.poolId = w.poolId ∧ a.groupKey = w.groupKey ∧ a.kind = w.kind
  money : run.source = w.source ∧ run.committed = l.budget
  ends : ∀ ends ∈ l.endsMs, ends ≤ epochMs a.expiresAt
  policy : l.terms.cooperative.map (·.policySha256) = some a.policySha256
  cited : citesAuthorization l a run = true
  support : w.kind = .expansion → ∃ k s cited, a.operatingSupportId = some k ∧
    db.supports.find? k = some s ∧ s.poolId = a.poolId ∧ s.policySha256 = a.policySha256 ∧
    (l.terms.cooperative.bind (·.expansion)).bind (·.view.support) = some cited ∧
    cited.termsSha256 = s.termsSha256

/-- **A usage agrees** with its mandate, and with the acceptance that the mandate gave. -/
structure UsageBound (db : Db) (id : LeaseId) (provider : UserId) (usage : MandateUsage)
    (m : Mandate) (l : RouteLease) : Prop where
  mandate : db.mandates.find? usage.mandateId = some m
  lease : db.routeLeases.find? id = some l
  started : l.state ≠ .offered
  terms : m.providerId = provider ∧ m.termsSha256 = usage.termsSha256
  route : m.routeId = l.routeId ∧ m.routeSha256 = l.routeSha256
  ends : ∀ ends ∈ l.endsMs, ends ≤ epochMs m.expiresAt
  pool : l.terms.cooperative.map (·.poolId) = some m.poolId
  policy : l.terms.cooperative.map (·.policySha256) = some m.policySha256
  cited : citesMandate l m usage.mandateId = true
  member : provider ∈ l.providers
  kind : (db.windows.find? id).map (·.kind) = some m.kind
  acceptance : ∃ ac ∈ l.acceptances, ac.providerId = provider ∧
    ac.mandateId = some usage.mandateId ∧ ac.termsSha256 = l.termsSha256

/-- A run stays bound. -/
theorem RunBound.cites {run : RenewalRun} {a : Authorization} {w : CoopWindow} {l : RouteLease}
    (h : RunBound db id run a w l) (hc : Cites db db') : ∃ a w l, RunBound db' id run a w l := by
  obtain ⟨a', ha', hgiven⟩ := hc.authorization _ a h.authorization
  obtain ⟨hpool, hgroup, hkind, hexpires, hpolicy, hsha, hsupport⟩ := Authorization.given_eq hgiven
  obtain ⟨l', hl', hcited⟩ := hc.lease _ l h.lease
  have hstarted := hcited.keeps.started h.started
  have hterms : l'.terms = l.terms := hcited.keeps.terms
  refine ⟨a', w, l', ha', hc.window _ w h.window, hl', hstarted.1, ?_, ?_, ?_, ?_, ?_,
    fun hw => ?_⟩
  · rw [hpool, hgroup, hkind]
    exact h.plan
  · exact ⟨h.money.1, h.money.2.trans hcited.keeps.budget.symm⟩
  · rw [hstarted.2.2, hexpires]
    exact h.ends
  · rw [hterms, hpolicy]
    exact h.policy
  · have hcited := h.cited
    unfold citesAuthorization RouteLease.renewal at hcited ⊢
    rw [hterms, hsha]
    exact hcited
  · obtain ⟨k, s, cited, hk, hs, hspool, hspolicy, hview, hssha⟩ := h.support hw
    obtain ⟨s', hs', hsame⟩ := hc.support k s hs
    obtain ⟨hpool', hpolicy', hsha'⟩ := OperatingSupport.given_eq hsame
    refine ⟨k, s', cited, hsupport.trans hk, hs', ?_, ?_, ?_, hssha.trans hsha'.symm⟩
    · rw [hpool', hspool, hpool]
    · rw [hpolicy', hspolicy, hpolicy]
    · rw [hterms]
      exact hview

/-- A usage stays bound. -/
theorem UsageBound.cites {provider : UserId} {usage : MandateUsage} {m : Mandate} {l : RouteLease}
    (h : UsageBound db id provider usage m l) (hc : Cites db db') :
    ∃ m l, UsageBound db' id provider usage m l := by
  obtain ⟨m', hm', hgiven⟩ := hc.mandate _ m h.mandate
  obtain ⟨⟨hpool, hpolicy⟩, hprovider, hroute, hrouteSha, hsha, hexpires, hsame⟩ :=
    Mandate.given_eq hgiven
  obtain ⟨l', hl', hcited⟩ := hc.lease _ l h.lease
  have hstarted := hcited.keeps.started h.started
  obtain ⟨w, hw, hkind⟩ := Option.map_eq_some_iff.1 h.kind
  have hterms : l'.terms = l.terms := hcited.keeps.terms
  refine ⟨m', l', hm', hl', hstarted.1, ?_, ?_, ?_, ?_, ?_, ?_, ?_, ?_, ?_⟩
  · rw [hprovider, hsha]
    exact h.terms
  · rw [hroute, hrouteSha, hcited.keeps.route, hcited.keeps.routeSha]
    exact h.route
  · rw [hstarted.2.2, hexpires]
    exact h.ends
  · rw [hterms, hpool]
    exact h.pool
  · rw [hterms, hpolicy]
    exact h.policy
  · have hgrants := h.cited
    unfold citesMandate RouteLease.renewal at hgrants ⊢
    rw [hterms, hprovider, hsha]
    exact hgrants
  · rw [hcited.keeps.providers]
    exact h.member
  · rw [hc.window _ w hw, Option.map_some, hkind, hsame]
  · rw [hcited.acceptances h.started, hcited.keeps.sha]
    exact h.acceptance

/-- A demand stays the one of the terms of its window. -/
theorem ExpansionDemand.Fits.cites {e : ExpansionDemand} (h : e.Fits db id)
    (hc : Cites db db') : e.Fits db' id := by
  obtain ⟨r, hr⟩ := Option.isSome_iff_exists.1 h.run
  obtain ⟨w, hw, hkind⟩ := Option.map_eq_some_iff.1 h.window
  obtain ⟨c, hcoop, hterms⟩ := Option.bind_eq_some_iff.1 h.terms
  obtain ⟨l, hl, hl'⟩ := Option.bind_eq_some_iff.1 hcoop
  obtain ⟨l', hfound, hcited⟩ := hc.lease _ l hl
  obtain ⟨s, a, hs, ha, huser, hparty⟩ := h.consumer
  obtain ⟨s', hs', hsame⟩ := hc.session _ s hs
  obtain ⟨a', ha', hgiven⟩ := hc.affiliation _ a ha
  obtain ⟨huser', hparty'⟩ := Affiliation.given_eq hgiven
  refine ⟨by rw [hc.run _ r hr]; rfl, by rw [hc.window _ w hw, Option.map_some, hkind], ?_,
    h.named, s', a', hs', ha', ?_, ?_⟩
  · rw [hfound, Option.bind_some, hcited.keeps.terms, hl', Option.bind_some]
    exact hterms
  · rw [huser', hsame]
    exact huser
  · exact hparty'.trans hparty

/-! ### New records -/

/-- A new run is bound to what its trigger checked. -/
theorem Change.new_run (h : Change env req tx db db') {run : RenewalRun}
    (hrun : db'.runs.find? id = some run) (hnone : db.runs.find? id = none) :
    ∃ a w l, RunBound db id run a w l := by
  have hold : db.runs.find? id = some run → ∃ a w l, RunBound db id run a w l := by
    intro hold
    rw [hnone] at hold
    cases hold
  rcases h with h | h
  · rw [h.authority.1] at hrun
    exact hold hrun
  cases h with
  | @authority t lease run' a l w ha hl hw hcovers _ hid hkind hsupport =>
    rcases Table.find?_insert_cases (h := hid) hrun with ⟨rfl, rfl⟩ | ⟨-, hrun⟩
    · simp only [authorityCovers, Bool.decide_and, Bool.and_eq_true, decide_eq_true_eq] at hcovers
      obtain ⟨-, -, hstate, -, hends, -, hpool, hgroup, hsource, hcommitted, hcites,
        hpolicy⟩ := hcovers
      refine ⟨a, w, l, ha, hw, hl, by rw [hstate]; decide, ⟨hpool, hgroup, hkind⟩,
        ⟨hsource, hcommitted⟩, ?_, hpolicy, hcites, fun hexpansion => ?_⟩
      · obtain ⟨ends, hsome, hle⟩ := hends
        intro ends' hsome'
        rw [Option.mem_def, Option.mem_def.1 hsome, Option.some.injEq] at hsome'
        exact hsome' ▸ hle
      · have hcovered := hsupport hexpansion
        unfold supportCovers at hcovered
        split at hcovered
        · rename_i k cited hk hcited
          split at hcovered
          · rename_i os hos
            simp only [Bool.decide_and, Bool.and_eq_true, decide_eq_true_eq] at hcovered
            exact ⟨k, os, cited, hk, hos, hcovered.1, hcovered.2.1, hcited,
              hcovered.2.2.2.2.2.2⟩
          · cases hcovered
        · cases hcovered
    · exact hold hrun
  | _ => exact hold hrun

/-- Every run is bound. -/
def RunsBound (db : Db) : Prop :=
  ∀ id run, db.runs.find? id = some run → ∃ a w l, RunBound db id run a w l

/-- A new usage is bound to what its trigger checked, for a window that has started. -/
theorem Change.new_usage (h : Change env req tx db db') (hruns : RunsBound db) {provider : UserId}
    {usage : MandateUsage} (husage : db'.usages.find? (id, provider) = some usage)
    (hnone : db.usages.find? (id, provider) = none) :
    ∃ m l, UsageBound db id provider usage m l := by
  have hold : db.usages.find? (id, provider) = some usage →
      ∃ m l, UsageBound db id provider usage m l := by
    intro hold
    rw [hnone] at hold
    cases hold
  rcases h with h | h
  · rw [h.authority.2.1] at husage
    exact hold husage
  cases h with
  | @mandate t lease provider' usage' m l hm hl hrun hcovers _ hid hkind =>
    rcases Table.find?_insert_cases (h := hid) husage with ⟨hkey, rfl⟩ | ⟨-, husage⟩
    · simp only [Prod.mk.injEq] at hkey
      obtain ⟨rfl, rfl⟩ := hkey
      obtain ⟨run, hrun⟩ := Option.isSome_iff_exists.1 hrun
      obtain ⟨a, w, l₁, hbound⟩ := hruns id run hrun
      obtain rfl : l = l₁ := Option.some.inj (hl.symm.trans hbound.lease)
      simp only [mandateCovers, Bool.decide_and, Bool.and_eq_true, decide_eq_true_eq] at hcovers
      obtain ⟨-, -, ⟨ends, hends, hle⟩, hprovider, hsha, hroute, hrouteSha, hpool, hpolicy,
        ⟨p, hp, hpart⟩, hcites, ac, hac, hacProvider, hacMandate, hacSha⟩ := hcovers
      refine ⟨m, l, hm, hl, hbound.started, ⟨hprovider, hsha⟩, ⟨hroute, hrouteSha⟩, ?_, hpool,
        hpolicy, hcites, ?_, hkind, ac, hac, hacProvider.trans hprovider, hacMandate, hacSha⟩
      · intro ends' hends'
        obtain rfl : ends = ends' := Option.some.inj ((Option.mem_def.1 hends).symm.trans hends')
        exact hle
      · rw [← hprovider, ← hpart]
        exact List.mem_map_of_mem hp
    · exact hold husage
  | _ => exact hold husage

/-- A new demand is that of the terms of its window. -/
theorem Change.new_demand (h : Change env req tx db db') {e : ExpansionDemand}
    (he : db'.demands.find? id = some e) (hnone : db.demands.find? id = none) : e.Fits db id := by
  have hold : db.demands.find? id = some e → e.Fits db id := by
    intro hold
    rw [hnone] at hold
    cases hold
  rcases h with h | h
  · rw [h.authority.2.2] at he
    exact hold he
  cases h with
  | demand hid _ _ hfits =>
    rcases Table.find?_insert_cases (h := hid) he with ⟨rfl, rfl⟩ | ⟨-, he⟩
    · exact hfits
    · exact hold he
  | _ => exact hold he

/-! ### Settlements -/

/-- **A settlement agrees** with its pool and with the window that covered its session. -/
structure SettlementBound (db : Db) (r : Settlement) : Prop where
  pool : ∃ p, db.pools.find? r.poolId = some p ∧ p.policySha256 = r.policySha256
  window : ∃ w, db.windows.find? r.coverageLeaseId = some w ∧ w.poolId = r.poolId

/-- The window that covers a session is one of its pool. -/
def SessionsCovered (db : Db) : Prop :=
  ∀ id s lease, db.sessions.find? id = some s → s.coverageLeaseId = some lease →
    ∃ w, db.windows.find? lease = some w ∧ s.cooperativePoolId = some w.poolId

/-- A change keeps the sessions of a pool covered. -/
theorem Change.sessionsCovered (h : Change env req tx db db') (hc : SessionsCovered db) :
    SessionsCovered db' := by
  intro id s' lease hs' hlease
  rcases h.session_cases hs' with ⟨-, t, user, d, quote, -, rfl⟩ | ⟨s, hs, hstep⟩
  · cases hlease
  rcases hstep.cover with hsame | ⟨t, o, hadmission⟩
  · obtain ⟨w, hw, hpool⟩ := hc id s lease hs (hsame.lease ▸ hlease)
    exact ⟨w, h.cites.window lease w hw, hsame.pool.trans hpool⟩
  · obtain ⟨l, finish, hcovered⟩ := hadmission.covered tx.now hlease
    obtain ⟨w, hw, hpool⟩ := hcovered.window
    exact ⟨w, h.cites.window lease w hw, hpool⟩

/-- A change keeps what a settlement is bound to. -/
theorem SettlementBound.change {r : Settlement} (h : SettlementBound db r)
    (hc : Change env req tx db db') : SettlementBound db' r := by
  obtain ⟨p, hp, hpolicy⟩ := h.pool
  obtain ⟨p', hp', hsame⟩ := hc.pools.old hp
  obtain ⟨w, hw, hpool⟩ := h.window
  exact ⟨⟨p', hp', hsame.sha.trans hpolicy⟩, w, hc.cites.window _ w hw, hpool⟩

/-- A new settlement is that of a session that its window covered. -/
theorem Change.new_settlement_bound (h : Change env req tx db db') (hc : SessionsCovered db)
    {session : SessionId} {r : Settlement} (hr : db'.settlements.find? session = some r)
    (hnone : db.settlements.find? session = none) : SettlementBound db r := by
  have hold : db.settlements.find? session = some r → SettlementBound db r := by
    intro hold
    rw [hnone] at hold
    cases hold
  rcases h with h | h
  · cases h with
    | @sessionFinalized t id' s₀ s s' state charge error billing entries settlements books hs
        hreport _ _ _ _ hsplit _ _ hrecorded =>
      cases hsplit with
      | free | route | node => exact hold hr
      | @recycled r' _ hpool hlease _ _ _ hfresh =>
        rcases Table.find?_insert_cases (h := hfresh) hr with ⟨rfl, rfl⟩ | ⟨-, hfound⟩
        · have hrec := hrecorded r Table.find?_insert_self hnone
          obtain ⟨p, hp, hpolicy⟩ := Option.map_eq_some_iff.1 hrec.policy
          rw [hreport.row] at hpool hlease
          obtain ⟨w, hw, hwpool⟩ := hc _ s₀ r.coverageLeaseId hs hlease
          have hsame : s₀.cooperativePoolId = some r.poolId := hpool
          rw [hsame, Option.some.injEq] at hwpool
          exact ⟨⟨p, hp, hpolicy⟩, w, hw, hwpool.symm⟩
        · exact hold hfound
    | _ => exact hold hr
  · cases h <;> exact hold hr

/-! ### Every record -/

/-- **The records are bound**: to the rows that they cite, and every window of a pool to the pool
and the kind of coverage of its terms. No provider has accepted a window twice. -/
structure Bindings (db : Db) : Prop where
  runs : RunsBound db
  usages : ∀ id provider usage, db.usages.find? (id, provider) = some usage →
    ∃ m l, UsageBound db id provider usage m l
  demands : ∀ id e, db.demands.find? id = some e → e.Fits db id
  windows : ∀ id w, db.windows.find? id = some w → ∃ l c, db.routeLeases.find? id = some l ∧
    l.terms.cooperative = some c ∧ c.poolId = w.poolId ∧ c.kind = w.kind
  keys : ∀ id l, db.routeLeases.find? id = some l → (l.acceptances.map (·.providerId)).Nodup
  sessions : SessionsCovered db
  settlements : ∀ id r, db.settlements.find? id = some r → SettlementBound db r

/-- **A change keeps the records bound.**

**Proof sketch.** A record that was there cites rows that are never deleted and keep what is cited
of them (`Change.cites`). A new one is bound by the checks of the change that recorded it. -/
theorem Change.bindings (h : Change env req tx db db') (hb : Bindings db) : Bindings db' where
  runs id run hrun := by
    cases hold : db.runs.find? id with
    | none =>
      obtain ⟨a, w, l, hbound⟩ := h.new_run hrun hold
      exact hbound.cites h.cites
    | some run' =>
      obtain rfl : run' = run := Option.some.inj ((h.cites.run id run' hold).symm.trans hrun)
      obtain ⟨a, w, l, hbound⟩ := hb.runs id run' hold
      exact hbound.cites h.cites
  usages id provider usage husage := by
    rcases h.records.2.1.cases husage with ⟨usage, hold, rfl⟩ | ⟨hnone, -⟩
    · obtain ⟨m, l, hbound⟩ := hb.usages id provider usage hold
      exact hbound.cites h.cites
    · obtain ⟨m, l, hbound⟩ := h.new_usage hb.runs husage hnone
      exact hbound.cites h.cites
  demands id e he := by
    rcases h.records.2.2.cases he with ⟨e, hold, rfl⟩ | ⟨hnone, -⟩
    · exact (hb.demands id e hold).cites h.cites
    · exact (h.new_demand he hnone).cites h.cites
  windows id w hw := by
    rcases h.windows.cases hw with ⟨w, hold, rfl⟩ |
      ⟨-, t, d, route, terms, books, p, c, -, hmatch, rfl, hl, -⟩
    · obtain ⟨l, c, hl, hc, hkind⟩ := hb.windows id w hold
      obtain ⟨l', hl', hkeeps⟩ := h.routeLeases.old hl
      exact ⟨l', c, hl', by rw [hkeeps.terms, hc], hkind⟩
    · exact ⟨_, c, hl, hmatch.context, hmatch.poolId, hmatch.kind.symm⟩
  keys id l' hl' := by
    rcases h.routeLeases.cases hl' with ⟨l, hl, -⟩ | ⟨-, hnew⟩
    · obtain ⟨l₁, hl₁, hcited⟩ := h.cites.lease id l hl
      obtain rfl : l₁ = l' := Option.some.inj (hl₁.symm.trans hl')
      exact hcited.keys (hb.keys id l hl)
    · obtain ⟨t, d, route, terms, books, -, -, rfl⟩ := hnew
      simp [newRouteLease]
  sessions := h.sessionsCovered hb.sessions
  settlements id r hr := by
    rcases h.frozen.2.2.1.cases hr with ⟨r, hold, rfl⟩ | ⟨hnone, -⟩
    · exact (hb.settlements id r hold).change h
    · exact (h.new_settlement_bound hb.sessions hr hnone).change h

/-- Every reachable database has all its bindings. -/
theorem reachable_bindings (h : Machine.Reachable (controlSystem env) db) : Bindings db :=
  reachable_of_changes (P := Bindings)
    (fun _ => ⟨fun _ _ h => (by cases h), fun _ _ _ h => (by cases h), fun _ _ h => (by cases h),
      fun _ _ h => (by cases h), fun _ _ h => (by cases h), fun _ _ _ h => (by cases h),
      fun _ _ h => (by cases h)⟩)
    (fun _ _ _ _ hb hc => hc.bindings hb) h

/-- Every demand has the hash of its evidence. -/
theorem reachable_evidence (h : Machine.Reachable (controlSystem env) db) :
    ∀ id e, db.demands.find? id = some e → e.evidenceSha256 = env.digest e.evidence.toJs := by
  refine reachable_of_changes (P := fun db => ∀ id e, db.demands.find? id = some e →
    e.evidenceSha256 = env.digest e.evidence.toJs) (fun _ _ _ h => (by cases h)) ?_ h
  intro _ _ _ _ ih hc id e he
  rcases hc.records.2.2.cases he with ⟨e, hold, rfl⟩ | ⟨-, hnew⟩
  · exact ih id e hold
  · exact hnew

/-- Every expansion is paid out of working funds. -/
theorem reachable_expansionSource (h : Machine.Reachable (controlSystem env) db) :
    ∀ id w, db.windows.find? id = some w → w.kind = .expansion → w.source = .working := by
  refine h.invariant (P := fun db => ∀ id w, db.windows.find? id = some w → w.kind = .expansion →
    w.source = .working) ?_ ?_
  · rintro db ⟨admin, rfl⟩ id w hw
    cases hw
  · intro db i hreach ih id w hw hkind
    cases hold : db.windows.find? id with
    | none =>
      obtain ⟨p, l, e, s, a, hsafe⟩ := step_safeExpansion hreach hold hw hkind
      exact hsafe.source
    | some w₁ =>
      have hstays : ((controlSystem env).step i db).windows.find? id = some w₁ :=
        (step_changes i db).preserves (P := fun db' => db'.windows.find? id = some w₁)
          (fun a b hc hw₁ => hc.cites.window id w₁ hw₁) hold
      obtain rfl : w₁ = w := Option.some.inj (hstays.symm.trans hw)
      exact ih id w₁ hold hkind

end NetworkAi
