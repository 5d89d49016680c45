import NetworkAi.Control.RenewalMoves
import NetworkAi.Lib.History

set_option relaxedAutoImplicit false
set_option autoImplicit false

/-!
# The classification of settled flow does not change

Whether a settlement counts as a flow between separate parties is recomputed, each time it is
needed, from the affiliations of the consumer, of the providers and of the creator of the pool. It
is judged at the time of the settlement, and every affiliation is recorded or revoked at a reading
of the clock; so what is declared or revoked later makes no difference.

## Main definitions

* `NetworkAi.affiliationHistory` — affiliations as dated facts.
* `NetworkAi.SeparateIn` — the meaning of the independence test, over a view of affiliations.
* `NetworkAi.CountsSeparate` — a settlement counts as a flow between separate parties.

## Main results

* `NetworkAi.independentAt_iff` — the query is the test over the view at its instant.
* `NetworkAi.run_separateParties` — a run that classifies later keeps a settlement's class.
* `NetworkAi.classification_stable` — a run with later classifications and the one without them
  agree.
-/

namespace NetworkAi

open Relational

variable {env : Env} {req : Request} {tx : Tx} {db db' : Db} {id : SessionId} {cs : Settlement}
  {time : Micros}

/-! ### The meaning of the test -/

/-- Affiliations as dated facts: all but the revocation is what they say. -/
def affiliationHistory : Relational.History Affiliation Affiliation Micros where
  start a := a.createdAt
  stop a := a.revokedAt
  content a := { a with revokedAt := none }

/-- The affiliations known at an instant. -/
def affiliationsAsOf (db : Db) (time : Micros) : AffiliationId → Option Affiliation :=
  affiliationHistory.asOf db.affiliations time

/-- In a view of affiliations, a user has a party at an instant. -/
def HasParty (view : AffiliationId → Option Affiliation) (time : Micros) (user : UserId)
    (party : PartyId) : Prop :=
  ∃ id a, view id = some a ∧ a.userId = user ∧ a.partyId = party ∧ time < a.expiresAt

/-- **The test of independence**: the consumer has some party that no actor has, and every actor
has a party. -/
def SeparateIn (view : AffiliationId → Option Affiliation) (time : Micros) (consumer : UserId)
    (actors : List UserId) : Prop :=
  ∃ party, HasParty view time consumer party ∧ ∀ actor ∈ actors,
    (∃ other, HasParty view time actor other) ∧ ¬ HasParty view time actor party

/-- An affiliation is in force when it is known and has not expired. -/
theorem inForce_iff {a : Affiliation} :
    a.inForce time = true ↔ affiliationHistory.known time a = true ∧ time < a.expiresAt := by
  rw [Relational.History.known_iff, Affiliation.inForce, decide_eq_true_iff]
  exact ⟨fun h => ⟨⟨h.1, h.2.2⟩, h.2.1⟩, fun h => ⟨h.1.1, h.2, h.1.2⟩⟩

/-- A user has a party when some row of an affiliation with it is in force. -/
theorem hasParty_iff {user : UserId} {party : PartyId} :
    HasParty (affiliationsAsOf db time) time user party ↔
      ∃ r ∈ db.affiliations.rows, r.2.userId = user ∧ r.2.inForce time = true ∧
        r.2.partyId = party := by
  constructor
  · rintro ⟨id, c, hview, huser, hparty, hexpires⟩
    obtain ⟨a, ha, hknown, rfl⟩ := (affiliationHistory.asOf_eq_some).1 hview
    exact ⟨(id, a), Table.find?_eq_some.1 ha, huser, inForce_iff.2 ⟨hknown, hexpires⟩, hparty⟩
  · rintro ⟨⟨id, a⟩, ha, huser, hforce, hparty⟩
    obtain ⟨hknown, hexpires⟩ := inForce_iff.1 hforce
    exact ⟨id, _, (affiliationHistory.asOf_eq_some).2 ⟨a, Table.find?_eq_some.2 ha, hknown, rfl⟩,
      huser, hparty, hexpires⟩

/-- **The query** of the source is the test over the affiliations known at its instant. -/
theorem independentAt_iff {consumer : UserId} {pool : PoolId} {groupKey : String} :
    independentAt db time consumer pool groupKey = true ↔ ∃ p, db.pools.find? pool = some p ∧
      SeparateIn (affiliationsAsOf db time) time consumer (groupActors db p groupKey) := by
  unfold independentAt SeparateIn
  cases db.pools.find? pool with
  | none => simp
  | some p =>
    simp only [Option.some.injEq, exists_eq_left', hasParty_iff, List.any_eq_true,
      List.all_eq_true, decide_eq_true_eq]
    constructor
    · rintro ⟨ca, hca, huser, hforce, hactors⟩
      refine ⟨ca.2.partyId, ⟨ca, hca, huser, hforce, rfl⟩, fun actor hactor => ?_⟩
      obtain ⟨⟨pa, hpa, hactorId, hactorForce⟩, hother⟩ := hactors actor hactor
      refine ⟨⟨pa.2.partyId, pa, hpa, hactorId, hactorForce, rfl⟩, ?_⟩
      rintro ⟨r, hr, hrest⟩
      exact hother r hr hrest
    · rintro ⟨_, ⟨ca, hca, huser, hforce, rfl⟩, hactors⟩
      refine ⟨ca, hca, huser, hforce, fun actor hactor => ?_⟩
      obtain ⟨⟨_, pa, hpa, hactorId, hactorForce, -⟩, hother⟩ := hactors actor hactor
      exact ⟨⟨pa, hpa, hactorId, hactorForce⟩, fun r hr hrest => hother ⟨r, hr, hrest⟩⟩

/-! ### Later writes -/

/-- A request that classifies nobody leaves the affiliations alone; one that does writes at the
readings of its clock. -/
theorem Change.affiliations_dated (h : Change env req tx db db') :
    db'.affiliations = db.affiliations ∨
      req.classifies = true ∧ AffiliationsDated tx db.affiliations db'.affiliations := by
  rcases h with h | h
  · cases h with
    | economy _ _ hdated => exact hdated
    | _ => exact .inl rfl
  · cases h <;> exact .inl rfl

/-- A change that classifies only later leaves the view of the affiliations alone. -/
theorem Change.affiliationsAsOf (h : Change env req tx db db')
    (hlater : req.classifies = true → ∀ k, time < tx.wall k) :
    NetworkAi.affiliationsAsOf db' time = NetworkAi.affiliationsAsOf db time := by
  rcases h.affiliations_dated with hsame | ⟨hreq, hdated⟩
  · unfold NetworkAi.affiliationsAsOf
    rw [hsame]
  · refine Relational.History.After.asOf ⟨fun id a ha => ?_, fun id a ha hnew => ?_⟩
    · obtain ⟨a', ha', hwritten⟩ := hdated.old ha
      refine ⟨a', ha', hwritten.imp_right ?_⟩
      rintro ⟨hnone, k, rfl⟩
      exact ⟨rfl, rfl, hnone, tx.wall k, rfl, hlater hreq k⟩
    · obtain ⟨k, hk⟩ := hdated.2 id a ha hnew
      show time < a.createdAt
      rw [hk]
      exact hlater hreq k

/-- The routes of the groups of every pool exist. -/
def PoolRoutes (db : Db) : Prop :=
  ∀ pool p, db.pools.find? pool = some p → ∀ g ∈ p.groups, ∀ r ∈ g.routes,
    (db.registry.routes.find? r.routeId).isSome

/-- A settlement's session, window and pool exist. -/
structure Anchored (db : Db) (id : SessionId) (cs : Settlement) : Prop where
  session : (db.sessions.find? id).isSome
  window : (db.windows.find? cs.coverageLeaseId).isSome
  pool : (db.pools.find? cs.poolId).isSome

/-- The routes of a new pool exist. -/
theorem Change.new_pool (h : Change env req tx db db') {pool : PoolId} {p : Pool}
    (hnone : db.pools.find? pool = none) (hp : db'.pools.find? pool = some p) :
    ∀ g ∈ p.groups, ∀ r ∈ g.routes, (db.registry.routes.find? r.routeId).isSome := by
  have hold : db'.pools.find? pool = db.pools.find? pool → ∀ g ∈ p.groups, ∀ r ∈ g.routes,
      (db.registry.routes.find? r.routeId).isSome := by
    intro hsame
    rw [hsame, hnone] at hp
    cases hp
  rcases h with h | h
  · cases h with
    | poolCreated hid _ _ _ _ hroutes =>
      rcases Table.find?_insert_cases (h := hid) hp with ⟨rfl, rfl⟩ | ⟨-, hp'⟩
      · exact hroutes
      · rw [hnone] at hp'
        cases hp'
    | poolsUpdated hgrows => exact (hgrows.2 pool p hp hnone).elim
    | _ => exact hold rfl
  · cases h <;> exact hold rfl

/-- A settlement after a change is an old one, or rests on what exists. -/
theorem Change.new_settlement (h : Change env req tx db db')
    (hcs : db'.settlements.find? id = some cs) :
    db.settlements.find? id = some cs ∨ Anchored db id cs := by
  rcases h with h | h
  · cases h with
    | @sessionFinalized t id' s₀ s s' state charge error billing entries settlements books hs _ _ _ _
        _ hsplit _ _ hrecorded =>
      by_cases hid : id = id'
      · subst hid
        cases hold : db.settlements.find? id with
        | none =>
          have hnew := hrecorded cs hcs hold
          exact .inr ⟨by simp [hs], hnew.window, hnew.pool⟩
        | some cs₀ =>
          have hgrows : db.settlements.Grows Eq (fun _ _ => True) settlements := by
            cases hsplit with
            | recycled _ _ _ _ _ _ hfresh => exact .insert (fun _ => rfl) hfresh trivial
            | _ => exact .refl (fun _ => rfl) _
          obtain ⟨cs', hcs', rfl⟩ := hgrows.old hold
          rw [hcs] at hcs'
          exact .inl hcs'.symm
      · cases hsplit with
        | recycled _ _ _ _ _ _ hfresh =>
          rcases Table.find?_insert_cases (h := hfresh) hcs with ⟨rfl, -⟩ | ⟨-, hold⟩
          · exact absurd rfl hid
          · exact .inl hold
        | _ => exact .inl hcs
    | _ => exact .inl hcs
  · cases h <;> exact .inl hcs

/-- A change keeps the routes that pools name. -/
theorem Change.poolRoutes (h : Change env req tx db db') (hroutes : PoolRoutes db) :
    PoolRoutes db' := by
  intro pool p hp g hg r hmem
  refine h.registry.routes.isSome ?_
  rcases h.pools.cases hp with ⟨p₀, hp₀, hsame⟩ | ⟨hnone, -⟩
  · exact hroutes pool p₀ hp₀ g (hsame.groups ▸ hg) r hmem
  · exact h.new_pool hnone hp g hg r hmem

/-- In every reachable database, the routes that pools name exist. -/
theorem reachable_poolRoutes (hr : Machine.Reachable (controlSystem env) db) : PoolRoutes db :=
  reachable_of_changes (P := PoolRoutes) (fun _ _ _ hp => by cases hp)
    (fun _ _ _ _ hold hc => hc.poolRoutes hold) hr

/-- A change keeps what a settlement rests on. -/
theorem Change.anchored (h : Change env req tx db db') (ha : Anchored db id cs) :
    Anchored db' id cs where
  session := h.sessions.isSome ha.session
  window := h.windows.isSome ha.window
  pool := h.pools.isSome ha.pool

/-- In every reachable database, what a settlement rests on exists. -/
theorem reachable_anchored (hr : Machine.Reachable (controlSystem env) db)
    (hcs : db.settlements.find? id = some cs) : Anchored db id cs := by
  refine reachable_of_changes (P := fun db => ∀ id cs, db.settlements.find? id = some cs →
    Anchored db id cs) (fun admin id cs hcs => by cases hcs) (fun req tx db db' hold hc id cs hcs => ?_)
    hr id cs hcs
  refine hc.anchored ?_
  rcases hc.new_settlement hcs with hcs | hnew
  · exact hold id cs hcs
  · exact hnew

/-! ### Runs -/

/-- The actors of a group of a pool stay the same. -/
theorem Change.groupActors (h : Change env req tx db db') {p p' : Pool} (hsame : p.Same p')
    (hroutes : ∀ g ∈ p.groups, ∀ r ∈ g.routes, (db.registry.routes.find? r.routeId).isSome)
    (groupKey : String) :
    NetworkAi.groupActors db' p' groupKey = NetworkAi.groupActors db p groupKey := by
  unfold NetworkAi.groupActors
  rw [hsame.creator, hsame.groups]
  refine congrArg _ (List.flatMap_congr fun g hg => List.flatMap_congr fun r hr => ?_)
  obtain ⟨e, he⟩ := Option.isSome_iff_exists.1 (hroutes g (List.mem_of_mem_filter hg) r hr)
  obtain ⟨e', he', hkeeps⟩ := h.registry.routes.old he
  rw [he, he']
  exact congrArg (List.map (·.providerId)) hkeeps.members

/-- **A change that classifies only later** keeps the class of a settlement. -/
theorem Change.separateParties (h : Change env req tx db db') (ha : Anchored db id cs)
    (hroutes : PoolRoutes db) (hlater : req.classifies = true → ∀ k, cs.createdAt < tx.wall k) :
    NetworkAi.separateParties db' id cs = NetworkAi.separateParties db id cs := by
  obtain ⟨s, hs⟩ := Option.isSome_iff_exists.1 ha.session
  obtain ⟨s', hs', hkeeps⟩ := h.sessions.old hs
  obtain ⟨w, hw⟩ := Option.isSome_iff_exists.1 ha.window
  obtain ⟨w', hw', rfl⟩ := h.windows.old hw
  obtain ⟨p, hp⟩ := Option.isSome_iff_exists.1 ha.pool
  obtain ⟨p', hp', hsame⟩ := h.pools.old hp
  have hclass : independentAt db' cs.createdAt s'.userId cs.poolId w.groupKey =
      independentAt db cs.createdAt s.userId cs.poolId w.groupKey := by
    rw [Bool.eq_iff_iff, independentAt_iff, independentAt_iff, hp, hp', hkeeps.user,
      h.affiliationsAsOf hlater]
    simp only [Option.some.injEq, exists_eq_left']
    rw [h.groupActors hsame (hroutes _ p hp)]
  unfold NetworkAi.separateParties
  rw [hs, hs', hw, hw']
  exact hclass

/-- **A run whose classifications are all dated after a settlement** keeps its record and its
class. -/
theorem run_separateParties {is : List (Tx × Request)}
    (hr : Machine.Reachable (controlSystem env) db) (hcs : db.settlements.find? id = some cs)
    (hlater : ∀ i ∈ is, i.2.classifies = true → ∀ k, cs.createdAt < i.1.wall k) :
    ((controlSystem env).run db is).settlements.find? id = some cs ∧
      separateParties ((controlSystem env).run db is) id cs = separateParties db id cs := by
  induction is generalizing db with
  | nil => exact ⟨hcs, rfl⟩
  | cons i is ih =>
    -- what every change of the step preserves
    obtain ⟨hcs', -, -, hclass⟩ := (@step_changes env i db).preserves
      (P := fun d => d.settlements.find? id = some cs ∧ PoolRoutes d ∧ Anchored d id cs ∧
        separateParties d id cs = separateParties db id cs)
      (fun d d' hc hd => by
        obtain ⟨hrow, hroutes, hanchored, hclass⟩ := hd
        obtain ⟨cs', hrow', rfl⟩ := hc.frozen.2.2.1.old hrow
        have hnow := hc.separateParties hanchored hroutes (hlater i List.mem_cons_self)
        exact ⟨hrow', hc.poolRoutes hroutes, hc.anchored hanchored, hnow.trans hclass⟩)
      ⟨hcs, reachable_poolRoutes hr, reachable_anchored hr hcs, rfl⟩
    obtain ⟨hrow, hrest⟩ := ih (.step i hr) hcs' fun j hj => hlater j (List.mem_cons_of_mem i hj)
    exact ⟨hrow, hrest.trans hclass⟩

/-- A settlement counts as a flow between separate parties. -/
def CountsSeparate (db : Db) (id : SessionId) : Prop :=
  ∃ cs ∈ db.settlements.find? id, separateParties db id cs = true

instance decidableCountsSeparate (db : Db) (id : SessionId) : Decidable (CountsSeparate db id) :=
  inferInstanceAs (Decidable (∃ cs ∈ db.settlements.find? id, _))

/-- **Stability of historical party classification.** After a settlement, take any run whose
declarations of parties, affiliations and their revocations all read a later clock. The settlement
counts as a flow between separate parties after this run if and only if it does after the run
without these declarations, and if and only if it does already.

**Proof sketch.** A settlement is classified by the affiliations at its instant. Later declarations
begin after it, and revocations are dated after it, so that no step of either run changes the
classification (`run_separateParties`). -/
theorem classification_stable (hr : Machine.Reachable (controlSystem env) db)
    (hcs : db.settlements.find? id = some cs) (is : List (Tx × Request))
    (hlater : ∀ i ∈ is, i.2.classifies = true → ∀ k, cs.createdAt < i.1.wall k) :
    (CountsSeparate ((controlSystem env).run db is) id ↔
        CountsSeparate ((controlSystem env).run db (is.filter fun i => !i.2.classifies)) id) ∧
      (CountsSeparate ((controlSystem env).run db is) id ↔ CountsSeparate db id) := by
  have hwithout : ∀ i ∈ is.filter (fun i => !i.2.classifies), i.2.classifies = true →
      ∀ k, cs.createdAt < i.1.wall k := by
    intro i hi hclassifies
    have hnot := (List.mem_filter.1 hi).2
    rw [hclassifies] at hnot
    cases hnot
  obtain ⟨hrow, hclass⟩ := run_separateParties hr hcs hlater
  obtain ⟨hrow', hclass'⟩ := run_separateParties hr hcs hwithout
  unfold CountsSeparate
  rw [hrow, hrow', hcs]
  simp only [Option.mem_def, Option.some.injEq, exists_eq_left', hclass, hclass', and_self]

/-- The database of the laboratory with the settlement of the session `41000`. -/
def labSettled : Db := labDb (labSetup ++ labPlan ++ labWork)

/-- Fifteen seconds after the settlement the consumer is classified anew, with the provider's
party. -/
def labReclassify : List (Tx × Request) := [
    (labTx 71 20000, .user labAdmin (.revokeAffiliation 35000)),
    (labTx 72 21000, .user labAdmin (.affiliate ⟨⟨"e", "s", 4⟩, 1000, 32000, "2h"⟩))]

/-- The new classification makes new flows dependent, and leaves the settlement separate. -/
theorem classification_stable_lab :
    independentAt ((controlSystem labEnv).run labSettled labReclassify)
        (ofMs (86400000 + 22000)) 1000 29000 "g" = false ∧
      CountsSeparate ((controlSystem labEnv).run labSettled labReclassify) 41000 := by
  refine ⟨by decide +kernel, ?_⟩
  have hsettled : (labSettled.settlements.find? 41000).isSome := by decide +kernel
  have htime : (labSettled.settlements.find? 41000).map (·.createdAt) =
      some (ofMs (86400000 + 5000)) := by decide +kernel
  obtain ⟨cs, hcs⟩ := Option.isSome_iff_exists.1 hsettled
  rw [hcs, Option.map_some, Option.some.injEq] at htime
  refine (classification_stable (reachable_lab _) hcs labReclassify ?_).2.2 (by decide +kernel)
  intro i hi _ k
  rw [htime]
  rcases List.mem_cons.1 hi with rfl | hi
  · show ofMs (86400000 + 5000) < ofMs (86400000 + 20000)
    decide
  · rw [List.mem_singleton.1 hi]
    show ofMs (86400000 + 5000) < ofMs (86400000 + 21000)
    decide

end NetworkAi
