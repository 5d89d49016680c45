import NetworkAi.Invariants.Bindings
import NetworkAi.Invariants.SpareSlots

set_option relaxedAutoImplicit false
set_option autoImplicit false

/-!
# The authority of renewals

A renewal consumes an authorization of the pool's manager and one mandate of each provider of its
route. Both count the windows that they opened, within limits that never grow back: an
authorization also counts what its windows committed out of each source of the pool, and is closed
once neither limit covers one more window of its fixed cost. The window that was opened is one of
the pool, group and kind of the authorization, and every provider has accepted it once, through a
mandate that covers it.

## Main definitions

* `NetworkAi.runsOf`, `NetworkAi.committedFrom`, `NetworkAi.usagesOf` — the records of what was
  consumed.
* `NetworkAi.Authorization.Counts`, `NetworkAi.Mandate.Counts` — an authority has counted its
  records, within its limits.
* `NetworkAi.Authorization.Spare` — one more window fits.
* `NetworkAi.Costs` — the fixed cost of a window of a group.
* `NetworkAi.Mandate.Covers` — a mandate covers a window of a pool on a route.
* `NetworkAi.AcceptedThrough` — a provider accepted a window through one usage of its mandate.
* `NetworkAi.Renewal` — a renewed window, with the usages of its mandates.

## Main results

* `NetworkAi.Change.authorization_cases`, `NetworkAi.Change.mandate_cases` — what a change does to
  the authorities and to their records.
* `NetworkAi.Change.renewalBooks` — a change keeps the counts.
* `NetworkAi.reachable_complete` — a renewed window has a usage for each of its members.
* `NetworkAi.renewal_authority` — the authority of renewals, in every reachable database.
-/

namespace NetworkAi

open Relational

variable {env : Env} {req : Request} {tx : Tx} {db db' : Db}

/-! ### Records -/

/-- The renewals that an authorization opened. -/
def runsOf (db : Db) (id : AuthorizationId) : List (LeaseId × RenewalRun) :=
  db.runs.rows.filter fun r => r.2.authorizationId = id

/-- What the renewals of an authorization have committed out of a source. -/
def committedFrom (db : Db) (id : AuthorizationId) (S : FundSource) : Int :=
  (((runsOf db id).filter fun r => r.2.source = S).map (·.2.committed)).sum

/-- The usages of a mandate. -/
def usagesOf (db : Db) (id : MandateId) : List ((LeaseId × UserId) × MandateUsage) :=
  db.usages.rows.filter fun u => u.2.mandateId = id

/-- The usages of a window for a provider. -/
def usagesFor (db : Db) (lease : LeaseId) (provider : UserId) :
    List ((LeaseId × UserId) × MandateUsage) :=
  db.usages.rows.filter fun u => u.1 = (lease, provider)

/-- **An authorization has counted** its renewals and what they committed, within its limits. -/
structure Authorization.Counts (db : Db) (id : AuthorizationId) (a : Authorization) : Prop where
  windows : a.windowsUsed = (runsOf db id).length
  working : a.workingCommitted = committedFrom db id .working
  reserve : a.reserveCommitted = committedFrom db id .reserve
  valid : a.Valid

/-- **One more window fits** into the count of an authorization and into one of its limits. -/
def Authorization.Spare (a : Authorization) : Prop :=
  a.windowsUsed < a.maximumWindows ∧
    (a.terms.windowBudget ≤ a.maximumWorking - a.workingCommitted ∨
      a.terms.windowBudget ≤ a.maximumReserve - a.reserveCommitted)

/-- **A mandate has counted** its usages, within its limit. -/
structure Mandate.Counts (db : Db) (id : MandateId) (m : Mandate) : Prop where
  windows : m.windowsUsed = (usagesOf db id).length
  limit : m.windowsUsed ≤ m.maximumWindows

/-- An authorization after more steps: what it has committed never shrinks. -/
structure Authorization.Continues (a a' : Authorization) : Prop where
  keeps : a.Keeps a'
  windows : a.windowsUsed ≤ a'.windowsUsed
  working : a.workingCommitted ≤ a'.workingCommitted
  reserve : a.reserveCommitted ≤ a'.reserveCommitted

/-- A mandate after more steps: the windows that it has opened never shrink. -/
structure Mandate.Continues (m m' : Mandate) : Prop where
  keeps : m.Keeps m'
  windows : m.windowsUsed ≤ m'.windowsUsed

/-- An authorization that keeps its frozen part twice keeps it. -/
theorem Authorization.Keeps.trans {a₁ a₂ a₃ : Authorization} (h₁ : a₁.Keeps a₂)
    (h₂ : a₂.Keeps a₃) : a₁.Keeps a₃ :=
  ⟨h₂.pool.trans h₁.pool, h₂.group.trans h₁.group, h₂.windows.trans h₁.windows,
    h₂.working.trans h₁.working, h₂.reserve.trans h₁.reserve, h₂.terms.trans h₁.terms,
    h₂.sha.trans h₁.sha, h₂.expires.trans h₁.expires, fun h => h₁.active (h₂.active h)⟩

/-- A mandate that keeps its frozen part twice keeps it. -/
theorem Mandate.Keeps.trans {m₁ m₂ m₃ : Mandate} (h₁ : m₁.Keeps m₂) (h₂ : m₂.Keeps m₃) :
    m₁.Keeps m₃ :=
  ⟨h₂.provider.trans h₁.provider, h₂.windows.trans h₁.windows, h₂.terms.trans h₁.terms,
    h₂.sha.trans h₁.sha, h₂.expires.trans h₁.expires, fun h => h₁.active (h₂.active h)⟩

/-- An authorization that continues twice continues. -/
theorem Authorization.Continues.trans {a₁ a₂ a₃ : Authorization} (h₁ : a₁.Continues a₂)
    (h₂ : a₂.Continues a₃) : a₁.Continues a₃ :=
  ⟨h₁.keeps.trans h₂.keeps, h₁.windows.trans h₂.windows, h₁.working.trans h₂.working,
    h₁.reserve.trans h₂.reserve⟩

/-- A mandate that continues twice continues. -/
theorem Mandate.Continues.trans {m₁ m₂ m₃ : Mandate} (h₁ : m₁.Continues m₂)
    (h₂ : m₂.Continues m₃) : m₁.Continues m₃ :=
  ⟨h₁.keeps.trans h₂.keeps, h₁.windows.trans h₂.windows⟩

/-- An authorization that was left as it is continues. -/
theorem Authorization.Continues.refl (a : Authorization) : a.Continues a :=
  ⟨.refl a, le_rfl, le_rfl, le_rfl⟩

/-- A mandate that was left as it is continues. -/
theorem Mandate.Continues.refl (m : Mandate) : m.Continues m := ⟨.refl m, le_rfl⟩

/-! ### What a change does to the authorities -/

/-- **A change of authorizations** gives, closes or notes them, or a run consumes one. -/
theorem Change.authorization_cases (h : Change env req tx db db') :
    (db'.runs = db.runs ∧ db.authorizations.Grows Authorization.Closes
        (fun _ a => Authorized env db a) db'.authorizations) ∨
      ∃ (t : Tx) (lease : LeaseId) (run : RenewalRun) (a : Authorization) (l : RouteLease)
        (w : CoopWindow) (hid : db.runs.find? lease = none),
        db.authorizations.find? run.authorizationId = some a ∧
        db.routeLeases.find? lease = some l ∧ db.windows.find? lease = some w ∧
        authorityCovers t db.xid a l w run = true ∧ (a.consume run.source l.budget).Valid ∧
        db'.runs = db.runs.insert lease run hid ∧
        db'.authorizations = db.authorizations.set run.authorizationId
          (a.consume run.source l.budget) := by
  rcases h with h | h
  · refine .inl ⟨h.authority.1, ?_⟩
    cases h with
    | authorized hid h => exact .insert Authorization.Closes.refl hid h
    | authorizationsClosed h => exact ⟨h.1, fun k a ha hn => (h.2 k a ha hn).elim⟩
    | _ => exact .refl Authorization.Closes.refl _
  · cases h with
    | authority ha hl hw hcovers hvalid hid =>
      exact .inr ⟨_, _, _, _, _, _, hid, ha, hl, hw, hcovers, hvalid, rfl, rfl⟩
    | _ => exact .inl ⟨rfl, .refl Authorization.Closes.refl _⟩

/-- **A change of mandates** gives or closes them, or a usage consumes one. -/
theorem Change.mandate_cases (h : Change env req tx db db') :
    (db'.usages = db.usages ∧ db.mandates.Grows Mandate.Closes (fun _ m => Mandated env m)
        db'.mandates) ∨
      ∃ (t : Tx) (lease : LeaseId) (provider : UserId) (usage : MandateUsage) (m : Mandate)
        (l : RouteLease) (hid : db.usages.find? (lease, provider) = none),
        db.mandates.find? usage.mandateId = some m ∧ db.routeLeases.find? lease = some l ∧
        (db.runs.find? lease).isSome ∧ mandateCovers t m l provider usage = true ∧
        m.windowsUsed + 1 ≤ m.maximumWindows ∧
        db'.usages = db.usages.insert (lease, provider) usage hid ∧
        db'.mandates = db.mandates.set usage.mandateId m.consume := by
  rcases h with h | h
  · refine .inl ⟨h.authority.2.1, ?_⟩
    cases h with
    | mandated hid h => exact .insert Mandate.Closes.refl hid h
    | mandatesClosed h => exact ⟨h.1, fun k m hm hn => (h.2 k m hm hn).elim⟩
    | _ => exact .refl Mandate.Closes.refl _
  · cases h with
    | mandate hm hl hrun hcovers hused hid =>
      exact .inr ⟨_, _, _, _, _, _, hid, hm, hl, hrun, hcovers, hused, rfl, rfl⟩
    | _ => exact .inl ⟨rfl, .refl Mandate.Closes.refl _⟩

/-! ### The fixed cost of a window -/

/-- A window of a group of a pool has a cost. -/
def Costs (db : Db) (pool : PoolId) (groupKey : String) (cost : Int) : Prop :=
  ∃ p g, db.pools.find? pool = some p ∧ g ∈ p.groups ∧ g.key = groupKey ∧ g.cost = cost

/-- **The costs are fixed**: the groups of a pool have one key each, an authorization names the
cost of its group, and the budget of a window is the cost of its group. -/
structure GroupCosts (db : Db) : Prop where
  keys : ∀ id p, db.pools.find? id = some p → (p.groups.map (·.key)).Nodup
  authorization : ∀ id a, db.authorizations.find? id = some a →
    Costs db a.poolId a.groupKey a.terms.windowBudget
  window : ∀ id w, db.windows.find? id = some w → ∃ l, db.routeLeases.find? id = some l ∧
    0 < l.budget ∧ Costs db w.poolId w.groupKey l.budget

/-- A group has one cost. -/
theorem GroupCosts.unique (h : GroupCosts db) {pool : PoolId} {groupKey : String} {c c' : Int}
    (hc : Costs db pool groupKey c) (hc' : Costs db pool groupKey c') : c = c' := by
  obtain ⟨p, g, hp, hg, hkey, rfl⟩ := hc
  obtain ⟨p', g', hp', hg', hkey', rfl⟩ := hc'
  rw [hp, Option.some.injEq] at hp'
  subst hp'
  rw [List.inj_on_of_nodup_map (h.keys pool p hp) hg hg' (hkey.trans hkey'.symm)]

/-- A change keeps what a window of a group costs. -/
theorem Change.costs (h : Change env req tx db db') {pool : PoolId} {groupKey : String} {c : Int}
    (hc : Costs db pool groupKey c) : Costs db' pool groupKey c := by
  obtain ⟨p, g, hp, hg, hkey, hcost⟩ := hc
  obtain ⟨p', hp', hsame⟩ := h.pools.old hp
  exact ⟨p', g, hp', by rw [hsame.groups]; exact hg, hkey, hcost⟩

/-- **Every change keeps the costs.** -/
theorem Change.groupCosts (h : Change env req tx db db') (hg : GroupCosts db) : GroupCosts db' where
  keys id p' hp' := by
    rcases h.pools.cases hp' with ⟨p, hp, hsame⟩ | ⟨-, hkeys, -⟩
    · rw [hsame.groups]
      exact hg.keys id p hp
    · exact hkeys
  authorization id a' ha' := by
    refine h.costs ?_
    rcases h.authorizations.cases ha' with ⟨a, ha, hkeeps⟩ | ⟨-, hnew⟩
    · rw [hkeeps.pool, hkeeps.group, hkeeps.terms]
      exact hg.authorization id a ha
    · obtain ⟨p, g, hp, hmem, hkey, hcost, -⟩ := hnew.group
      exact ⟨p, g, hp, hmem, hkey, hcost.symm⟩
  window id w' hw' := by
    rcases h.windows.cases hw' with ⟨w, hw, rfl⟩ |
      ⟨-, t, d, route, terms, books, p, c, hoffered, hmatch, -, hl, -⟩
    · obtain ⟨l, hl, hpos, hcost⟩ := hg.window id w hw
      obtain ⟨l', hl', hkeeps⟩ := h.routeLeases.old hl
      exact ⟨l', hl', by rw [hkeeps.budget]; exact hpos, by rw [hkeeps.budget]; exact h.costs hcost⟩
    · obtain ⟨g, hmem, hkey, hrate, hduration⟩ := hmatch.group
      refine ⟨_, hl, ?_, h.costs ⟨p, g, hmatch.pool, hmem, hkey, ?_⟩⟩
      · show 0 < terms.budget
        rw [hoffered.budget]
        exact mul_pos hoffered.rate (by have := hoffered.duration.1; omega)
      · show g.cost = terms.budget
        rw [hoffered.budget, hrate, hduration]
        rfl

/-- An empty database has no costs. -/
theorem initial_groupCosts (admin : UserId) : GroupCosts (Db.initial admin) where
  keys _ _ hp := by cases hp
  authorization _ _ ha := by cases ha
  window _ _ hw := by cases hw

/-- In every reachable database, what an authorization takes per window is what its group costs. -/
theorem reachable_groupCosts (h : Machine.Reachable (controlSystem env) db) : GroupCosts db :=
  reachable_of_changes (P := GroupCosts)
    (fun admin => initial_groupCosts admin) (fun _ _ _ _ hg hc => hc.groupCosts hg) h

/-- **A run costs what its authorization says.** -/
theorem GroupCosts.covered (hg : GroupCosts db) {t : Tx} {lease : LeaseId} {run : RenewalRun}
    {a : Authorization} {l : RouteLease} {w : CoopWindow}
    (ha : db.authorizations.find? run.authorizationId = some a)
    (hl : db.routeLeases.find? lease = some l) (hw : db.windows.find? lease = some w)
    (hcovers : authorityCovers t db.xid a l w run = true) :
    run.committed = l.budget ∧ l.budget = a.terms.windowBudget ∧ 0 < l.budget ∧
      a.state = .active ∧ l.state = .active ∧ ∃ ends, l.endsMs = some ends ∧
        ends ≤ epochMs a.expiresAt := by
  simp only [authorityCovers, Bool.decide_and, Bool.and_eq_true, decide_eq_true_eq] at hcovers
  obtain ⟨hactive, -, hstate, -, ⟨ends, hends, hle⟩, -, hpool, hkey, -, hcommitted, -⟩ := hcovers
  obtain ⟨l₁, hl₁, hpos, hcost⟩ := hg.window lease w hw
  rw [hl, Option.some.injEq] at hl₁
  subst hl₁
  have hfixed := hg.authorization _ a ha
  rw [hpool, hkey] at hfixed
  exact ⟨hcommitted, hg.unique hcost hfixed, hpos, hactive, hstate, ends, hends, hle⟩

/-! ### The counts -/

/-- A key has one row at most. -/
theorem Table.length_filter_key {K V : Type} [DecidableEq K] (t : Table K V) (k : K) :
    (t.rows.filter fun r => r.1 = k).length = if (t.find? k).isSome then 1 else 0 := by
  have hkeys : ((t.rows.filter fun r => r.1 = k).map Prod.fst) =
      (t.rows.map Prod.fst).filter fun k' => k' = k := by
    rw [List.filter_map]
    rfl
  rw [← List.length_map Prod.fst, hkeys, ← List.countP_eq_length_filter]
  have hcount : (t.rows.map Prod.fst).countP (fun k' => decide (k' = k)) =
      (t.rows.map Prod.fst).count k := by
    unfold List.count
    congr 1
  rw [hcount, t.nodup.count]
  refine if_congr ?_ rfl rfl
  rw [← not_iff_not, Bool.not_eq_true, Option.isSome_eq_false_iff, Option.isNone_iff_eq_none,
    Table.find?_eq_none]

section Records

variable {id : AuthorizationId} {m : MandateId} {lease : LeaseId} {run : RenewalRun}

/-- The runs of an authorization depend on the table of runs alone. -/
theorem runsOf_congr (h : db'.runs = db.runs) (id : AuthorizationId) :
    runsOf db' id = runsOf db id := by
  unfold runsOf
  rw [h]

/-- What was committed from a source depends on the table of runs alone. -/
theorem committedFrom_congr (h : db'.runs = db.runs) (id : AuthorizationId) (S : FundSource) :
    committedFrom db' id S = committedFrom db id S := by
  unfold committedFrom
  rw [runsOf_congr h]

/-- A new run counts for its authorization. -/
theorem runsOf_insert {hid : db.runs.find? lease = none}
    (h : db'.runs = db.runs.insert lease run hid) :
    runsOf db' id = runsOf db id ++ if run.authorizationId = id then [(lease, run)] else [] := by
  unfold runsOf
  rw [h]
  simp only [Table.insert, List.filter_append, List.filter_singleton, Bool.cond_decide]

/-- A new run commits its cost out of its source. -/
theorem committedFrom_insert {hid : db.runs.find? lease = none}
    (h : db'.runs = db.runs.insert lease run hid) (S : FundSource) :
    committedFrom db' id S = committedFrom db id S +
      if run.authorizationId = id ∧ run.source = S then run.committed else 0 := by
  unfold committedFrom
  rw [runsOf_insert h]
  by_cases hid : run.authorizationId = id
  · by_cases hS : run.source = S <;> simp [hid, hS]
  · simp [hid]

/-- An authorization without a row has opened nothing. -/
theorem runsOf_eq_nil (h : ∀ lease run, db.runs.find? lease = some run →
    run.authorizationId ≠ id) : runsOf db id = [] := by
  refine List.filter_eq_nil_iff.2 fun r hr => ?_
  simpa using h r.1 r.2 (Table.find?_eq_some.2 hr)

/-- The usages of a mandate after one more usage. -/
theorem usagesOf_insert {provider : UserId} {usage : MandateUsage}
    {hid : db.usages.find? (lease, provider) = none}
    (h : db'.usages = db.usages.insert (lease, provider) usage hid) :
    usagesOf db' m = usagesOf db m ++
      if usage.mandateId = m then [((lease, provider), usage)] else [] := by
  unfold usagesOf
  rw [h]
  simp only [Table.insert, List.filter_append, List.filter_singleton, Bool.cond_decide]

/-- A mandate without a row has no usage. -/
theorem usagesOf_eq_nil (h : ∀ key usage, db.usages.find? key = some usage →
    usage.mandateId ≠ m) : usagesOf db m = [] := by
  refine List.filter_eq_nil_iff.2 fun u hu => ?_
  simpa using h u.1 u.2 (Table.find?_eq_some.2 hu)

end Records

/-- **The books of the renewals**: every authority has counted its records, an active authorization
has a window to spare, and a window that consumed an authority ends before it expires. -/
structure RenewalBooks (db : Db) : Prop where
  authorization : ∀ id a, db.authorizations.find? id = some a →
    a.Counts db id ∧ (a.state = .active → a.Spare)
  mandate : ∀ id m, db.mandates.find? id = some m → m.Counts db id
  run : ∀ lease run, db.runs.find? lease = some run → ∃ l ends a,
    db.routeLeases.find? lease = some l ∧ l.state ≠ .offered ∧ l.endsMs = some ends ∧
      db.authorizations.find? run.authorizationId = some a ∧ run.committed = a.terms.windowBudget ∧
      ends ≤ epochMs a.expiresAt
  usage : ∀ lease provider usage, db.usages.find? (lease, provider) = some usage →
    (db.runs.find? lease).isSome ∧ ∃ l ends m, db.routeLeases.find? lease = some l ∧
      l.state ≠ .offered ∧ l.endsMs = some ends ∧ db.mandates.find? usage.mandateId = some m ∧
      m.providerId = provider ∧ (∃ p ∈ l.members, p.providerId = provider) ∧
      ends ≤ epochMs m.expiresAt

/-- Closing an authorization changes no count. -/
theorem Authorization.Closes.counts {a a' : Authorization} (h : a.Closes a')
    {id : AuthorizationId} (hruns : db'.runs = db.runs) (hc : a.Counts db id) :
    a'.Counts db' id := by
  rw [h.row]
  exact ⟨hc.windows.trans (by rw [runsOf_congr hruns]),
    hc.working.trans (committedFrom_congr hruns id .working).symm,
    hc.reserve.trans (committedFrom_congr hruns id .reserve).symm, hc.valid⟩

/-- An authorization that is closed has as much to spare. -/
theorem Authorization.Closes.spare {a a' : Authorization} (h : a.Closes a') (hs : a.Spare) :
    a'.Spare := by
  rw [h.row]
  exact hs

/-- **An authorization consumed** by one more run has counted it; it is active only if one more
window fits. -/
theorem Authorization.Counts.consume {a : Authorization} {lease : LeaseId} {run : RenewalRun}
    {hid : db.runs.find? lease = none} (h : db'.runs = db.runs.insert lease run hid)
    (hc : a.Counts db run.authorizationId)
    (hvalid : (a.consume run.source run.committed).Valid) :
    (a.consume run.source run.committed).Counts db' run.authorizationId where
  windows := by
    rw [runsOf_insert h, if_pos rfl, List.length_append]
    exact congrArg (· + 1) hc.windows
  working := by
    rw [committedFrom_insert h, ← hc.working]
    simp only [Authorization.consume, true_and]
  reserve := by
    rw [committedFrom_insert h, ← hc.reserve]
    simp only [Authorization.consume, true_and]
  valid := hvalid

/-- What is consumed fits into a limit. -/
theorem Authorization.spare_consume {a : Authorization} {S : FundSource}
    (hactive : (a.consume S a.terms.windowBudget).state = .active) :
    (a.consume S a.terms.windowBudget).Spare := by
  by_contra hspare
  have hexhausted : (a.consume S a.terms.windowBudget).state = .exhausted := by
    refine if_pos ?_
    by_contra hfits
    obtain ⟨hcount, hlimit⟩ := not_or.1 hfits
    refine hspare ⟨not_le.1 hcount, ?_⟩
    rcases not_and_or.1 hlimit with h | h
    · exact .inl (not_lt.1 h)
    · exact .inr (not_lt.1 h)
  rw [hexhausted] at hactive
  cases hactive

/-- An authorization as it was given. -/
theorem Authorized.counts {a : Authorization} (h : Authorized env db a) {id : AuthorizationId}
    (hruns : runsOf db' id = []) : a.Counts db' id ∧ a.Spare := by
  obtain ⟨hused, hworking, hreserve⟩ := h.unused
  have hzero : ∀ S, committedFrom db' id S = 0 := fun S => by
    unfold committedFrom
    rw [hruns]
    rfl
  have hwindows := h.windows
  have hlimits := h.limits
  refine ⟨⟨by rw [hused, hruns]; rfl, by rw [hworking, hzero], by rw [hreserve, hzero], ?_⟩, ?_, ?_⟩
  · unfold Authorization.Valid
    omega
  · omega
  · obtain ⟨p, g, -, -, -, hcost, hcovers⟩ := h.group
    rw [hcost, hworking, hreserve, sub_zero, sub_zero]
    exact hcovers

/-- **The counts of authorizations after a change.** -/
theorem Change.authorizationBooks (h : Change env req tx db db') (hg : GroupCosts db)
    (hb : RenewalBooks db) {id : AuthorizationId} {a' : Authorization}
    (ha' : db'.authorizations.find? id = some a') :
    a'.Counts db' id ∧ (a'.state = .active → a'.Spare) := by
  rcases h.authorization_cases with ⟨hruns, hgrows⟩ |
    ⟨t, lease, run, a, l, w, hid, ha, hl, hw, hcovers, hvalid, hruns, hauthorizations⟩
  · rcases hgrows.cases ha' with ⟨a, ha, hcloses⟩ | ⟨hnone, hnew⟩
    · obtain ⟨hcounts, hspare⟩ := hb.authorization id a ha
      exact ⟨hcloses.counts hruns hcounts, fun hactive => hcloses.spare (hspare
        (hcloses.active hactive))⟩
    · have hnil : runsOf db' id = [] := by
        rw [runsOf_congr hruns]
        refine runsOf_eq_nil fun lease run hrun e => ?_
        obtain ⟨-, -, a, -, -, -, ha, -⟩ := hb.run lease run hrun
        rw [e, hnone] at ha
        cases ha
      obtain ⟨hcounts, hspare⟩ := hnew.counts hnil
      exact ⟨hcounts, fun _ => hspare⟩
  · obtain ⟨hcommitted, hcost, -⟩ := hg.covered ha hl hw hcovers
    rw [hauthorizations] at ha'
    rcases Table.find?_set_cases ha' with ⟨rfl, hnew, -⟩ | ⟨hne, hold⟩
    · subst hnew
      rw [← hcommitted] at hvalid ⊢
      refine ⟨(hb.authorization _ a ha).1.consume hruns hvalid, ?_⟩
      rw [hcommitted, hcost]
      exact Authorization.spare_consume
    · obtain ⟨hcounts, hspare⟩ := hb.authorization id a' hold
      refine ⟨⟨?_, ?_, ?_, hcounts.valid⟩, hspare⟩
      · rw [runsOf_insert hruns, if_neg (Ne.symm hne), List.append_nil]
        exact hcounts.windows
      · rw [committedFrom_insert hruns, if_neg fun hand => hne hand.1.symm, add_zero]
        exact hcounts.working
      · rw [committedFrom_insert hruns, if_neg fun hand => hne hand.1.symm, add_zero]
        exact hcounts.reserve

/-- **The counts of mandates after a change.** -/
theorem Change.mandateBooks (h : Change env req tx db db') (hb : RenewalBooks db) {id : MandateId}
    {m' : Mandate} (hm' : db'.mandates.find? id = some m') : m'.Counts db' id := by
  rcases h.mandate_cases with ⟨husages, hgrows⟩ |
    ⟨t, lease, provider, usage, m, l, hid, hm, hl, hrun, hcovers, hused, husages, hmandates⟩
  · have hsame : usagesOf db' id = usagesOf db id := by
      unfold usagesOf
      rw [husages]
    rcases hgrows.cases hm' with ⟨m, hm, hcloses⟩ | ⟨hnone, hnew⟩
    · obtain ⟨hwindows, hlimit⟩ := hb.mandate id m hm
      rw [hcloses.row]
      exact ⟨hwindows.trans (by rw [hsame]), hlimit⟩
    · have hnil : usagesOf db' id = [] := by
        rw [hsame]
        refine usagesOf_eq_nil fun key usage husage e => ?_
        obtain ⟨-, -, -, m, -, -, -, hm, -⟩ := hb.usage key.1 key.2 usage husage
        rw [e, hnone] at hm
        cases hm
      refine ⟨by rw [hnew.unused, hnil]; rfl, ?_⟩
      rw [hnew.unused]
      exact Nat.zero_le _
  · rw [hmandates] at hm'
    rcases Table.find?_set_cases hm' with ⟨rfl, hnew, -⟩ | ⟨hne, hold⟩
    · subst hnew
      refine ⟨?_, hused⟩
      rw [usagesOf_insert husages, if_pos rfl, List.length_append]
      exact congrArg (· + 1) (hb.mandate _ m hm).windows
    · obtain ⟨hwindows, hlimit⟩ := hb.mandate id m' hold
      refine ⟨?_, hlimit⟩
      rw [usagesOf_insert husages, if_neg (Ne.symm hne), List.append_nil]
      exact hwindows

/-! ### The windows that consumed an authority -/

/-- **The runs after a change**: their windows end before their authorizations expire. -/
theorem Change.runBooks (h : Change env req tx db db') (hg : GroupCosts db) (hb : RenewalBooks db)
    {lease : LeaseId} {run : RenewalRun} (hrun : db'.runs.find? lease = some run) :
    ∃ l ends a, db'.routeLeases.find? lease = some l ∧ l.state ≠ .offered ∧
      l.endsMs = some ends ∧ db'.authorizations.find? run.authorizationId = some a ∧
      run.committed = a.terms.windowBudget ∧ ends ≤ epochMs a.expiresAt := by
  have hold : ∃ l ends a, db.routeLeases.find? lease = some l ∧ l.state ≠ .offered ∧
      l.endsMs = some ends ∧ db.authorizations.find? run.authorizationId = some a ∧
      run.committed = a.terms.windowBudget ∧ ends ≤ epochMs a.expiresAt := by
    rcases h.authorization_cases with ⟨hruns, -⟩ |
      ⟨t, lease', run', a, l, w, hid, ha, hl, hw, hcovers, -, hruns, -⟩
    · rw [hruns] at hrun
      exact hb.run lease run hrun
    · rw [hruns] at hrun
      rcases Table.find?_insert_cases hrun with ⟨rfl, rfl⟩ | ⟨-, hold⟩
      · obtain ⟨hcommitted, hcost, -, -, hstate, ends, hends, hle⟩ := hg.covered ha hl hw hcovers
        exact ⟨l, ends, a, hl, by rw [hstate]; exact RouteLeaseState.noConfusion, hends, ha,
          hcommitted.trans hcost, hle⟩
      · exact hb.run lease run hold
  obtain ⟨l, ends, a, hl, hstarted, hends, ha, hcost, hle⟩ := hold
  obtain ⟨l', hl', hkeeps⟩ := h.routeLeases.old hl
  obtain ⟨a', ha', hkept⟩ := h.authorizations.old ha
  obtain ⟨hstarted', -, hends'⟩ := hkeeps.started hstarted
  exact ⟨l', ends, a', hl', hstarted', hends'.trans hends, ha', by rw [hkept.terms, hcost],
    by rw [hkept.expires]; exact hle⟩

/-- **The usages after a change**: each is of a mandate of its provider, who has a part of the
window, and the window ends before the mandate expires.

**Proof sketch.** A usage that was there stays with its window and its mandate, which keep their
members, their ends and their expiries. A new one was checked by its mandate, for a window of a run
that was recorded. -/
theorem Change.usageBooks (h : Change env req tx db db') (hb : RenewalBooks db) {lease : LeaseId}
    {provider : UserId} {usage : MandateUsage}
    (husage : db'.usages.find? (lease, provider) = some usage) :
    (db'.runs.find? lease).isSome ∧ ∃ l ends m, db'.routeLeases.find? lease = some l ∧
      l.state ≠ .offered ∧ l.endsMs = some ends ∧
      db'.mandates.find? usage.mandateId = some m ∧ m.providerId = provider ∧
      (∃ p ∈ l.members, p.providerId = provider) ∧ ends ≤ epochMs m.expiresAt := by
  have hold : (db.runs.find? lease).isSome ∧ ∃ l ends m, db.routeLeases.find? lease = some l ∧
      l.state ≠ .offered ∧ l.endsMs = some ends ∧ db.mandates.find? usage.mandateId = some m ∧
      m.providerId = provider ∧ (∃ p ∈ l.members, p.providerId = provider) ∧
      ends ≤ epochMs m.expiresAt := by
    rcases h.mandate_cases with ⟨husages, -⟩ |
      ⟨t, lease', provider', usage', m, l, hid, hm, hl, hrun, hcovers, -, husages, -⟩
    · rw [husages] at husage
      exact hb.usage lease provider usage husage
    · rw [husages] at husage
      rcases Table.find?_insert_cases husage with ⟨hkey, rfl⟩ | ⟨-, hold⟩
      · obtain ⟨rfl, rfl⟩ := Prod.mk.inj hkey
        obtain ⟨run, hrun'⟩ := Option.isSome_iff_exists.1 hrun
        obtain ⟨l₁, ends₁, -, hl₁, hstarted, -⟩ := hb.run _ run hrun'
        rw [hl, Option.some.injEq] at hl₁
        subst hl₁
        simp only [mandateCovers, Bool.decide_and, Bool.and_eq_true, decide_eq_true_eq] at hcovers
        obtain ⟨-, -, ⟨ends, hends, hle⟩, hprovider, -, -, -, -, -, ⟨p, hp, hpart⟩, -⟩ := hcovers
        exact ⟨hrun, l, ends, m, hl, hstarted, hends, hm, hprovider,
          ⟨p, hp, hpart.trans hprovider⟩, hle⟩
      · exact hb.usage lease provider usage hold
  obtain ⟨hrun, l, ends, m, hl, hstarted, hends, hm, hprovider, ⟨p, hp, hpart⟩, hle⟩ := hold
  obtain ⟨l', hl', hkeeps⟩ := h.routeLeases.old hl
  obtain ⟨m', hm', hkept⟩ := h.mandates.old hm
  obtain ⟨hstarted', -, hends'⟩ := hkeeps.started hstarted
  have hmember : p.providerId ∈ l'.providers := by
    rw [hkeeps.providers]
    exact List.mem_map_of_mem hp
  obtain ⟨p', hp', hsame⟩ := List.mem_map.1 hmember
  exact ⟨h.records.1.isSome hrun, l', ends, m', hl', hstarted', hends'.trans hends, hm',
    hkept.provider.trans hprovider, ⟨p', hp', hsame.trans hpart⟩,
    by rw [hkept.expires]; exact hle⟩

/-- **Every change keeps the books of the renewals.** -/
theorem Change.renewalBooks (h : Change env req tx db db') (hg : GroupCosts db)
    (hb : RenewalBooks db) : RenewalBooks db' where
  authorization _ _ ha := h.authorizationBooks hg hb ha
  mandate _ _ hm := h.mandateBooks hb hm
  run _ _ hrun := h.runBooks hg hb hrun
  usage _ _ _ husage := h.usageBooks hb husage

/-- An empty database has no renewals. -/
theorem initial_renewalBooks (admin : UserId) : RenewalBooks (Db.initial admin) where
  authorization _ _ ha := by cases ha
  mandate _ _ hm := by cases hm
  run _ _ hrun := by cases hrun
  usage _ _ _ husage := by cases husage

/-- Every reachable database has its renewals counted. -/
theorem reachable_renewalBooks (h : Machine.Reachable (controlSystem env) db) : RenewalBooks db :=
  (reachable_of_changes (P := fun db => GroupCosts db ∧ RenewalBooks db)
    (fun admin => ⟨initial_groupCosts admin, initial_renewalBooks admin⟩)
    (fun _ _ _ _ hp hc => ⟨hc.groupCosts hp.1, hc.renewalBooks hp.1 hp.2⟩) h).2

/-! ### Every provider of a renewed window -/

/-- A sequence of moves consumes nothing. -/
theorem Moves.records (h : Moves env req tx db db') :
    db'.runs = db.runs ∧ db'.usages = db.usages :=
  Machine.Star.preserves (P := fun db' => db'.runs = db.runs ∧ db'.usages = db.usages)
    (fun _ _ hm ih => ⟨hm.authority.1.trans ih.1, hm.authority.2.1.trans ih.2⟩) h ⟨rfl, rfl⟩

/-- A renewed window has a usage for the provider of each of its members. -/
def Complete (db : Db) : Prop :=
  ∀ lease run, db.runs.find? lease = some run → ∃ l, db.routeLeases.find? lease = some l ∧
    ∀ provider ∈ l.providers, (db.usages.find? (lease, provider)).isSome

/-- **Every renewed window is complete**: the commit of a renewal checks its usages. -/
theorem reachable_complete (h : Machine.Reachable (controlSystem env) db) : Complete db := by
  refine h.invariant (P := Complete) ?_ ?_
  · rintro db ⟨admin, rfl⟩ lease run hrun
    cases hrun
  · intro db i _ ih lease run hrun
    have hchanges := @step_changes env i db
    -- an old run keeps its usages, and the providers of its window
    have hold : db.runs.find? lease = some run → ∃ l,
        ((controlSystem env).step i db).routeLeases.find? lease = some l ∧
          ∀ provider ∈ l.providers,
            (((controlSystem env).step i db).usages.find? (lease, provider)).isSome := by
      intro hrun
      obtain ⟨l, hl, hcomplete⟩ := ih lease run hrun
      obtain ⟨l', hl', hsame⟩ := hchanges.providers hl
      refine ⟨l', hl', fun provider hp => ?_⟩
      rw [hsame] at hp
      exact hchanges.preserves (P := fun db' => (db'.usages.find? (lease, provider)).isSome)
        (fun _ _ hc hu => hc.records.2.1.isSome hu) (hcomplete provider hp)
    rcases step_cases i db with hmoves | hrenewed
    · rw [hmoves.records.1] at hrun
      exact hold hrun
    · rcases hrenewed.complete lease run hrun with hrun | ⟨l, hl, hall⟩
      · exact hold hrun
      · refine ⟨l, hl, fun provider hp => ?_⟩
        obtain ⟨m, hm, rfl⟩ := List.mem_map.1 hp
        exact hall m hm

/-- The members of an offered window are those of its route. -/
theorem RouteOffered.members_fst {t : Tx} {d : RouteOffer} {route : ExecutionRoute}
    {terms : LeaseTerms} {books : Books} (h : RouteOffered env t db d route terms books) :
    terms.members.map Prod.fst = route.members := by
  obtain ⟨maxima, hmaxima, -, hmembers⟩ := h.members
  have hlength : route.members.length ≤ maxima.length := by
    rw [length_splitByBps hmaxima, List.length_map]
  rw [hmembers, List.map_fst_zip hlength]

/-- Every window is staffed as its route is. -/
theorem reachable_staffed (h : Machine.Reachable (controlSystem env) db) :
    ∀ id l, db.routeLeases.find? id = some l → ∃ e, db.registry.routes.find? l.routeId = some e ∧
      l.providers = e.members.map (·.providerId) := by
  refine reachable_of_changes (P := fun db => ∀ id l, db.routeLeases.find? id = some l →
    ∃ e, db.registry.routes.find? l.routeId = some e ∧
      l.providers = e.members.map (·.providerId)) (fun _ _ _ hl => by cases hl) ?_ h
  intro req tx db db' ih hc id l' hl'
  have hon : ∃ e, db.registry.routes.find? l'.routeId = some e ∧
      l'.providers = e.members.map (·.providerId) := by
    rcases hc.routeLeases.cases hl' with ⟨l, hl, hkeeps⟩ |
      ⟨-, t, d, route, terms, books, hoffered, -, rfl⟩
    · obtain ⟨e, he, hstaff⟩ := ih id l hl
      exact ⟨e, by rw [hkeeps.route, he], by rw [hkeeps.providers, hstaff]⟩
    · refine ⟨route, hoffered.found, ?_⟩
      calc (newRouteLease env t db.xid d terms).providers
          = (terms.members.map Prod.fst).map (·.providerId) := by
            simp only [RouteLease.providers, newRouteLease, List.map_map]
            rfl
        _ = route.members.map (·.providerId) := by rw [hoffered.members_fst]
  obtain ⟨e, he, hstaff⟩ := hon
  obtain ⟨e', he', hsame⟩ := hc.registry.routes.old he
  exact ⟨e', he', by rw [hstaff, hsame.members]⟩

/-! ### The authority of renewals -/

/-- **A mandate covers a window** that ends at an instant: it was given for the pool of the window
under the policy of its terms, for its kind of coverage and for its route as it is, the terms of
the lease cite it, and it expires no sooner than the window ends. -/
structure Mandate.Covers (m : Mandate) (id : MandateId) (w : CoopWindow) (l : RouteLease)
    (ends : Int) : Prop where
  pool : m.poolId = w.poolId
  policy : l.terms.cooperative.map (·.policySha256) = some m.policySha256
  kind : m.kind = w.kind
  route : m.routeId = l.routeId ∧ m.routeSha256 = l.routeSha256
  cited : citesMandate l m id = true
  expires : ofMs ends ≤ m.expiresAt

/-- **A provider accepted a window** through a mandate of its own that covers it: the window has
one usage for the provider, of that mandate, and one acceptance of its terms by the provider, which
names that mandate. -/
def AcceptedThrough (db : Db) (lease : LeaseId) (w : CoopWindow) (l : RouteLease) (ends : Int)
    (provider : UserId) : Prop :=
  ∃ usage m ac, usagesFor db lease provider = [((lease, provider), usage)] ∧
    db.mandates.find? usage.mandateId = some m ∧ m.providerId = provider ∧
    m.termsSha256 = usage.termsSha256 ∧ m.Covers usage.mandateId w l ends ∧
    (l.acceptances.filter fun a => a.providerId = provider) = [ac] ∧
    ac.mandateId = some usage.mandateId ∧ ac.termsSha256 = l.termsSha256

/-- **A renewed window**: it is one of the pool, the group and the kind of coverage of its
authorization, which its terms cite, paid out of the source of the run; it commits the fixed cost
of the authorization and ends before that
expires; it has one usage for each provider of its route and no other, each of a mandate of the
provider that expires no sooner than the window ends, and every provider accepted it through that
mandate, which covers it. -/
structure Renewal (db : Db) (id : LeaseId) (run : RenewalRun) (w : CoopWindow) (l : RouteLease)
    (route : ExecutionRoute) (a : Authorization) (ends : Int) : Prop where
  lease : db.routeLeases.find? id = some l ∧ l.endsMs = some ends
  window : db.windows.find? id = some w
  onRoute : db.registry.routes.find? l.routeId = some route
  authorization : db.authorizations.find? run.authorizationId = some a
  plan : w.poolId = a.poolId ∧ w.groupKey = a.groupKey ∧ w.kind = a.kind
  policy : l.terms.cooperative.map (·.policySha256) = some a.policySha256
  cited : citesAuthorization l a run = true
  source : run.source = w.source
  cost : run.committed = a.terms.windowBudget ∧ run.committed = l.budget
  expires : ofMs ends ≤ a.expiresAt
  usages : ∀ provider, (usagesFor db id provider).length =
    if provider ∈ route.members.map (·.providerId) then 1 else 0
  mandates : ∀ provider usage, db.usages.find? (id, provider) = some usage →
    ∃ m, db.mandates.find? usage.mandateId = some m ∧ m.providerId = provider ∧
      ofMs ends ≤ m.expiresAt
  accepted : ∀ provider ∈ route.members.map (·.providerId), AcceptedThrough db id w l ends provider

/-- An end in milliseconds is before an expiry in microseconds. -/
theorem ofMs_le {ends : Int} {t : Micros} (h : ends ≤ epochMs t) : ofMs ends ≤ t :=
  (Int.le_ediv_iff_mul_le (by norm_num)).1 h

/-- A list without two equal keys has one element of a key that it has. -/
theorem filter_key_eq {α K : Type} [DecidableEq K] {f : α → K} {xs : List α}
    (hnodup : (xs.map f).Nodup) {x : α} (hx : x ∈ xs) :
    (xs.filter fun y => f y = f x) = [x] := by
  have hlength : (xs.filter fun y => f y = f x).length ≤ 1 := by
    have hcount := List.nodup_iff_count_le_one.1 hnodup (f x)
    rwa [List.count_eq_length_filter, List.filter_map, List.length_map] at hcount
  have hmem : x ∈ xs.filter fun y => f y = f x := List.mem_filter.2 ⟨hx, decide_eq_true rfl⟩
  have hone : (xs.filter fun y => f y = f x).length = 1 :=
    le_antisymm hlength (List.length_pos_of_mem hmem)
  obtain ⟨y, hy⟩ := List.length_eq_one_iff.1 hone
  rw [hy, List.mem_singleton] at hmem
  rw [hy, hmem]

/-- The usages of a window for a provider are the row of its key, if there is one. -/
theorem usagesFor_eq {lease : LeaseId} {provider : UserId} {usage : MandateUsage}
    (h : db.usages.find? (lease, provider) = some usage) :
    usagesFor db lease provider = [((lease, provider), usage)] :=
  filter_key_eq (f := Prod.fst) db.usages.nodup (Table.find?_eq_some.1 h)

/-- **A usage is an acceptance** of its window through the mandate that it names.

**Proof sketch.** The trigger that recorded the usage found an acceptance that names the mandate,
and the mandate covering the window (`UsageBound`). A provider accepts a window once, and the terms
of a window name its pool. -/
theorem UsageBound.accepted {lease : LeaseId} {provider : UserId} {usage : MandateUsage}
    {m : Mandate} {l : RouteLease} {w : CoopWindow} {ends : Int}
    (h : UsageBound db lease provider usage m l) (hb : Bindings db)
    (husage : db.usages.find? (lease, provider) = some usage)
    (hw : db.windows.find? lease = some w) (hends : l.endsMs = some ends) :
    AcceptedThrough db lease w l ends provider := by
  obtain ⟨ac, hac, hprovider, hmandate, hsha⟩ := h.acceptance
  obtain ⟨l', c, hl', hcontext, hpool, -⟩ := hb.windows lease w hw
  obtain rfl : l' = l := Option.some.inj (hl'.symm.trans h.lease)
  have hcovers : m.Covers usage.mandateId w l' ends := by
    refine ⟨?_, h.policy, ?_, h.route, h.cited, ofMs_le (h.ends ends hends)⟩
    · have hnamed := h.pool
      rw [hcontext, Option.map_some, Option.some.injEq] at hnamed
      exact hnamed.symm.trans hpool
    · have hkind := h.kind
      rw [hw, Option.map_some, Option.some.injEq] at hkind
      exact hkind.symm
  have honly := filter_key_eq (hb.keys lease l' h.lease) hac
  rw [hprovider] at honly
  exact ⟨usage, m, ac, usagesFor_eq husage, h.mandate, h.terms.1, h.terms.2, hcovers, honly,
    hmandate, hsha⟩

/-- **Every renewed window** is bound to its authorization, and accepted by each provider of its
route.

**Proof sketch.** The run is bound to its authorization and its window (`Bindings.runs`). The
commit of the renewal found a usage for every member (`reachable_complete`), the usages are of
members of the window only, and each is an acceptance (`UsageBound.accepted`). -/
theorem reachable_renewal (h : Machine.Reachable (controlSystem env) db) {lease : LeaseId}
    {run : RenewalRun} (hrun : db.runs.find? lease = some run) :
    ∃ w l route a ends, Renewal db lease run w l route a ends := by
  have hb := reachable_renewalBooks h
  have hbind := reachable_bindings h
  obtain ⟨a, w, l, hbound⟩ := hbind.runs lease run hrun
  obtain ⟨l₁, ends, a₁, hl₁, -, hends, ha₁, hcost, -⟩ := hb.run lease run hrun
  obtain rfl : l₁ = l := Option.some.inj (hl₁.symm.trans hbound.lease)
  obtain rfl : a₁ = a := Option.some.inj (ha₁.symm.trans hbound.authorization)
  obtain ⟨route, hroute, hstaff⟩ := reachable_staffed h lease l₁ hl₁
  obtain ⟨l₂, hl₂, hcomplete⟩ := reachable_complete h lease run hrun
  obtain rfl : l₂ = l₁ := Option.some.inj (hl₂.symm.trans hl₁)
  -- every usage of the window is bound to the same lease
  have husages {provider : UserId} {usage : MandateUsage}
      (husage : db.usages.find? (lease, provider) = some usage) :
      ∃ m, UsageBound db lease provider usage m l₂ := by
    obtain ⟨m, l, hused⟩ := hbind.usages lease provider usage husage
    obtain rfl : l = l₂ := Option.some.inj (hused.lease.symm.trans hl₂)
    exact ⟨m, hused⟩
  obtain ⟨hpool, hgroup, hkind⟩ := hbound.plan
  refine ⟨w, l₂, route, a₁, ends, ⟨hl₂, hends⟩, hbound.window, hroute, ha₁,
    ⟨hpool.symm, hgroup.symm, hkind.symm⟩, hbound.policy, hbound.cited, hbound.money.1,
    ⟨hcost, hbound.money.2⟩, ofMs_le (hbound.ends ends hends), fun provider => ?_,
    fun provider usage husage => ?_, fun provider hp => ?_⟩
  · rw [usagesFor, Table.length_filter_key, ← hstaff]
    refine if_congr ⟨fun hsome => ?_, hcomplete provider⟩ rfl rfl
    obtain ⟨usage, husage⟩ := Option.isSome_iff_exists.1 hsome
    obtain ⟨m, hused⟩ := husages husage
    exact hused.member
  · obtain ⟨m, hused⟩ := husages husage
    exact ⟨m, hused.mandate, hused.terms.1, ofMs_le (hused.ends ends hends)⟩
  · rw [← hstaff] at hp
    obtain ⟨usage, husage⟩ := Option.isSome_iff_exists.1 (hcomplete provider hp)
    obtain ⟨m, hused⟩ := husages husage
    exact hused.accepted hbind husage hbound.window hends

/-- What an authorization has committed never shrinks. -/
theorem Change.authorization_continues (h : Change env req tx db db') (hg : GroupCosts db)
    {id : AuthorizationId} {a : Authorization} (ha : db.authorizations.find? id = some a) :
    ∃ a', db'.authorizations.find? id = some a' ∧ a.Continues a' := by
  rcases h.authorization_cases with ⟨-, hgrows⟩ |
    ⟨t, lease, run, a₁, l, w, hid, ha₁, hl, hw, hcovers, -, -, hauthorizations⟩
  · obtain ⟨a', ha', hcloses⟩ := hgrows.old ha
    refine ⟨a', ha', hcloses.keeps, ?_, ?_, ?_⟩ <;> rw [hcloses.row]
  · obtain ⟨a', ha', hkeeps⟩ := h.authorizations.old ha
    rw [hauthorizations] at ha'
    refine ⟨a', hauthorizations ▸ ha', ?_⟩
    rcases Table.find?_set_cases ha' with ⟨rfl, hnew, -⟩ | ⟨-, hold⟩
    · subst hnew
      rw [ha, Option.some.injEq] at ha₁
      subst ha₁
      obtain ⟨-, -, hpos, -⟩ := hg.covered ha hl hw hcovers
      refine ⟨hkeeps, Nat.le_succ a.windowsUsed, ?_, ?_⟩ <;>
      · simp only [Authorization.consume]
        split <;> omega
    · rw [ha, Option.some.injEq] at hold
      exact hold ▸ .refl a

/-- The windows that a mandate has opened never shrink. -/
theorem Change.mandate_continues (h : Change env req tx db db') {id : MandateId} {m : Mandate}
    (hm : db.mandates.find? id = some m) :
    ∃ m', db'.mandates.find? id = some m' ∧ m.Continues m' := by
  obtain ⟨m', hm', hkeeps⟩ := h.mandates.old hm
  refine ⟨m', hm', hkeeps, ?_⟩
  rcases h.mandate_cases with ⟨-, hgrows⟩ |
    ⟨t, lease, provider, usage, m₁, l, hid, hm₁, -, -, -, -, -, hmandates⟩
  · obtain ⟨m₂, hm₂, hcloses⟩ := hgrows.old hm
    rw [hm', Option.some.injEq] at hm₂
    subst hm₂
    rw [hcloses.row]
  · rw [hmandates] at hm'
    rcases Table.find?_set_cases hm' with ⟨rfl, hnew, -⟩ | ⟨-, hold⟩
    · subst hnew
      rw [hm, Option.some.injEq] at hm₁
      subst hm₁
      exact Nat.le_succ _
    · rw [hm, Option.some.injEq] at hold
      rw [hold]

/-- **The authority of renewals.** In every reachable database an authorization has counted its
renewals and what they committed out of each source, within its limits, and while it is active one
more window of its fixed cost fits; a mandate has counted its usages, within its limit. Along every
run the counts never shrink, whatever becomes of the windows, and an authority that was closed is
never active again. A renewed window is one of the pool, the group and the kind of coverage of its
authorization. It has one usage for each provider of its route, and ends before
its authorization and every mandate that it used expire; every provider has accepted it once,
through the mandate of its usage, which covers the window.

**Proof sketch.** Two invariants of changes: the counts with the limits (`RenewalBooks`), where one
more window is consumed only with its record, and the agreement of a record with the rows that it
cites (`Bindings`). The usages of a window are complete because the transaction of a renewal
commits only with all of them. -/
theorem renewal_authority (h : Machine.Reachable (controlSystem env) db) :
    (∀ id a, db.authorizations.find? id = some a → a.Counts db id ∧
      (a.state = .active → a.Spare) ∧ Costs db a.poolId a.groupKey a.terms.windowBudget ∧
      ∀ is, ∃ a', ((controlSystem env).run db is).authorizations.find? id = some a' ∧
        a.Continues a') ∧
    (∀ id m, db.mandates.find? id = some m → m.Counts db id ∧
      ∀ is, ∃ m', ((controlSystem env).run db is).mandates.find? id = some m' ∧ m.Continues m') ∧
    ∀ lease run, db.runs.find? lease = some run →
      ∃ w l route a ends, Renewal db lease run w l route a ends := by
  have hg := reachable_groupCosts h
  have hb := reachable_renewalBooks h
  refine ⟨fun id a ha => ⟨(hb.authorization id a ha).1, (hb.authorization id a ha).2,
    hg.authorization id a ha, fun is => ?_⟩, fun id m hm => ⟨hb.mandate id m hm, fun is => ?_⟩,
    fun lease run hrun => reachable_renewal h hrun⟩
  · exact (run_of_changes (P := fun db => GroupCosts db ∧
      ∃ a', db.authorizations.find? id = some a' ∧ a.Continues a')
      (fun _ _ _ _ ⟨hg, a₁, ha₁, hcontinues⟩ hc => by
        obtain ⟨a₂, ha₂, hmore⟩ := hc.authorization_continues hg ha₁
        exact ⟨hc.groupCosts hg, a₂, ha₂, hcontinues.trans hmore⟩) ⟨hg, a, ha, .refl a⟩ is).2
  · exact run_of_changes (P := fun db => ∃ m', db.mandates.find? id = some m' ∧ m.Continues m')
      (fun _ _ _ _ ⟨m₁, hm₁, hcontinues⟩ hc => by
        obtain ⟨m₂, hm₂, hmore⟩ := hc.mandate_continues hm₁
        exact ⟨m₂, hm₂, hcontinues.trans hmore⟩) ⟨m, hm, .refl m⟩ is

/-- The renewal of the laboratory used one of the windows of its authorization and of its mandate,
and has one usage for its provider, who accepted it through the mandate. -/
theorem renewal_authority_lab :
    let db := labDb (labSetup ++ labPlan ++ labWork ++ labExpansion)
    ∃ (a : Authorization) (m : Mandate) (run : RenewalRun),
      db.authorizations.find? 64000 = some a ∧ a.windowsUsed = (runsOf db 64000).length ∧
      db.mandates.find? 65000 = some m ∧ m.windowsUsed = (usagesOf db 65000).length ∧
      db.runs.find? 66039 = some run ∧
      ∃ w l route a ends, Renewal db 66039 run w l route a ends := by
  intro db
  have hfacts : (db.authorizations.find? 64000).isSome = true ∧
      (db.mandates.find? 65000).isSome = true ∧ (db.runs.find? 66039).isSome = true := by
    decide +kernel
  obtain ⟨ha, hm, hrun⟩ := hfacts
  obtain ⟨a, ha⟩ := Option.isSome_iff_exists.1 ha
  obtain ⟨m, hm⟩ := Option.isSome_iff_exists.1 hm
  obtain ⟨run, hrun⟩ := Option.isSome_iff_exists.1 hrun
  obtain ⟨hauthorizations, hmandates, hruns⟩ := renewal_authority
    (reachable_lab (labSetup ++ labPlan ++ labWork ++ labExpansion))
  exact ⟨a, m, run, ha, (hauthorizations 64000 a ha).1.windows, hm,
    (hmandates 65000 m hm).1.windows, hrun, hruns 66039 run hrun⟩

end NetworkAi
