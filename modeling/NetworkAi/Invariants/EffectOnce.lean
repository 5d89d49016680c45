import NetworkAi.Control.Creations
import NetworkAi.Invariants.Books
import NetworkAi.Lib.Idempotence

set_option relaxedAutoImplicit false
set_option autoImplicit false

/-!
# Creations take effect once

A record stays under its key: no write of the coordinator deletes a row, changes its owner, key or
digest, or puts a new row before it. So of all requests under one key at most one has an effect,
and the others are answered from its record, or refused.

## Main definitions

* `NetworkAi.NoEffect` — a step that changes no row and no balance.
* `NetworkAi.keyedCreations` — the coordinator as a system that answers requests under keys.

## Main results

* `NetworkAi.Change.recorded` — a record stays.
* `NetworkAi.effect_once` — a creation takes effect once, and is answered from its record later.
* `NetworkAi.caller_key_effects` — a window of a pool is under a key of the creator of the pool,
  whoever asks.
-/

namespace NetworkAi

open Relational

variable {env : Env} {req : Request} {tx : Tx} {db db' : Db} {user : Actor} {c : Creation}
  {k : CreationKey} {r : Recorded}

/-! ### Tables that grow at their end -/

/-- Rows that are of the same request. -/
def SameOrigin {V α : Type} (origin : V → α) (v v' : V) : Prop := origin v' = origin v

/-- A row is of its own request. -/
theorem SameOrigin.refl {V α : Type} (origin : V → α) (v : V) : SameOrigin origin v v := rfl

/-- A record stays while its table grows at its end, and its rows stay of the same request. -/
theorem recorded_extends {K V α : Type} [DecidableEq K] {g : V → α} {t t' : Table K V}
    {q : K × V → Bool} {f : K × V → Recorded} (h : t.Extends (SameOrigin g) t')
    (hq : ∀ k a b, g b = g a → q (k, b) = q (k, a))
    (hf : ∀ k a b, g b = g a → f (k, b) = f (k, a))
    (hr : (t.rows.find? q).map f = some r) : (t'.rows.find? q).map f = some r := by
  obtain ⟨⟨k, v⟩, hv, rfl⟩ := Option.map_eq_some_iff.1 hr
  obtain ⟨v', hv', hrel⟩ := h.find?_rows hq hv
  rw [hv', Option.map_some, hf k v v' hrel]

/-- The owner, the key and the digest of a session. -/
def Session.origin (s : Session) : UserId × String × String :=
  (s.userId, s.idempotencyKey, s.requestSha256)

/-- The owner, the key and the digest of a contract. -/
def NodeLease.origin (l : NodeLease) : UserId × String × String :=
  (l.sponsorId, l.idempotencyKey, l.requestSha256)

/-- The owner, the key, the digest and the terms of a window. -/
def RouteLease.origin (l : RouteLease) : UserId × Nat × String × LeaseTerms :=
  (l.sponsorId, l.idempotencyKey, l.requestSha256, l.terms)

/-- The owner, the key and the digest of a pool. -/
def Pool.origin (p : Pool) : UserId × Nat × String :=
  (p.creatorId, p.idempotencyKey, p.requestSha256)

/-- The owner, the key and the digest of an authorization. -/
def Authorization.origin (a : Authorization) : UserId × Nat × String :=
  (a.authorizedBy, a.idempotencyKey, a.requestSha256)

/-- The owner, the key and the digest of a mandate. -/
def Mandate.origin (m : Mandate) : UserId × Nat × String :=
  (m.providerId, m.idempotencyKey, m.requestSha256)

/-- The owner, the key and the digest of an affiliation. -/
def Affiliation.origin (a : Affiliation) : UserId × Nat × String :=
  (a.createdBy, a.idempotencyKey, a.requestSha256)

/-- The owner, the key and the digest of a support. -/
def OperatingSupport.origin (s : OperatingSupport) : UserId × Nat × String :=
  (s.createdBy, s.idempotencyKey, s.requestSha256)

/-- The sessions grow at the end of their table. -/
theorem Change.sessions_extend (h : Change env req tx db db') :
    db.sessions.Extends (SameOrigin Session.origin) db'.sessions := by
  rcases h with h | h
  · cases h with
    | sessionCreated hid => exact .insert (.refl _) hid
    | sessionAdmitted hs h => exact .set (.refl _) hs (by rw [h.row]; rfl)
    | sessionUpdated hs h => exact .set (.refl _) hs (by rw [h.continues.row]; rfl)
    | sessionFinalized hs hreport _ _ _ _ hsplit =>
      exact .set (.refl _) hs (by rw [hsplit.same, hreport.row]; rfl)
    | consumptionRefunded hs => exact .set (.refl _) hs rfl
    | _ => exact .refl (.refl _) _
  · cases h <;> exact .refl (.refl _) _

/-- The contracts grow at the end of their table. -/
theorem Change.nodeLeases_extend (h : Change env req tx db db') :
    db.nodeLeases.Extends (SameOrigin NodeLease.origin) db'.nodeLeases := by
  rcases h with h | h
  · cases h with
    | nodeLeaseOffered hid => exact .insert (.refl _) hid
    | nodeLeaseActivated hrow | nodeLeaseSampled hrow | nodeLeaseClosed hrow =>
      exact .set (.refl _) hrow rfl
    | _ => exact .refl (.refl _) _
  · cases h <;> exact .refl (.refl _) _

/-- The windows grow at the end of their table. -/
theorem Change.routeLeases_extend (h : Change env req tx db db') :
    db.routeLeases.Extends (SameOrigin RouteLease.origin) db'.routeLeases := by
  rcases h with h | h
  · cases h with
    | routeOffered h | windowOffered h => exact .insert (.refl _) h.id
    | routeAccepted hrow | routeActivated hrow | routeDrained hrow | routeClosed hrow =>
      exact .set (.refl _) hrow rfl
    | routeSampled hrow _ _ _ _ _ _ hsampled => exact .set (.refl _) hrow (by rw [hsampled]; rfl)
    | _ => exact .refl (.refl _) _
  · cases h <;> exact .refl (.refl _) _

/-- A table after a write whose updates are known. -/
theorem Extends.same {K V α : Type} {R : V → V → Prop} {origin : V → α} {t t' : Table K V}
    (hr : ∀ v v', R v v' → origin v' = origin v) (h : t.Extends R t') :
    t.Extends (SameOrigin origin) t' := by
  obtain ⟨old, hprefix, hrows⟩ := h
  exact ⟨old, hprefix, hrows.imp fun _ _ hab => ⟨hab.1, hr _ _ hab.2⟩⟩

/-- The pools grow at the end of their table. -/
theorem Change.pools_extend (h : Change env req tx db db') :
    db.pools.Extends (SameOrigin Pool.origin) db'.pools := by
  rcases h with h | h
  · cases h with
    | poolCreated hid => exact .insert (.refl _) hid
    | poolsUpdated _ _ hrows => exact Extends.same (fun _ _ h => by rw [h.row]; rfl) hrows
    | _ => exact .refl (.refl _) _
  · cases h <;> exact .refl (.refl _) _

/-- The fundings grow at the end of their table. -/
theorem Change.fundings_extend (h : Change env req tx db db') :
    db.fundings.Extends Eq db'.fundings := by
  rcases h with h | h
  · cases h with
    | funded hid => exact .insert (fun _ => rfl) hid
    | _ => exact .refl (fun _ => rfl) _
  · cases h <;> exact .refl (fun _ => rfl) _

/-- The authorizations grow at the end of their table. -/
theorem Change.authorizations_extend (h : Change env req tx db db') :
    db.authorizations.Extends (SameOrigin Authorization.origin) db'.authorizations := by
  rcases h with h | h
  · cases h with
    | authorized hid => exact .insert (.refl _) hid
    | authorizationsClosed _ hrows =>
      exact Extends.same (fun _ _ h => by rw [h.row]; rfl) hrows
    | _ => exact .refl (.refl _) _
  · cases h with
    | authority ha => exact .set (.refl _) ha (by unfold Authorization.consume; rfl)
    | _ => exact .refl (.refl _) _

/-- The mandates grow at the end of their table. -/
theorem Change.mandates_extend (h : Change env req tx db db') :
    db.mandates.Extends (SameOrigin Mandate.origin) db'.mandates := by
  rcases h with h | h
  · cases h with
    | mandated hid => exact .insert (.refl _) hid
    | mandatesClosed _ hrows => exact Extends.same (fun _ _ h => by rw [h.row]; rfl) hrows
    | _ => exact .refl (.refl _) _
  · cases h with
    | mandate hm => exact .set (.refl _) hm rfl
    | _ => exact .refl (.refl _) _

/-- The parties, the affiliations and the supports grow at the ends of their tables. -/
theorem Change.economy_extends (h : Change env req tx db db') :
    db.parties.Extends Eq db'.parties ∧
      db.affiliations.Extends (SameOrigin Affiliation.origin) db'.affiliations ∧
      db.supports.Extends (SameOrigin OperatingSupport.origin) db'.supports := by
  have hsame : db.parties.Extends Eq db.parties ∧
      db.affiliations.Extends (SameOrigin Affiliation.origin) db.affiliations ∧
      db.supports.Extends (SameOrigin OperatingSupport.origin) db.supports :=
    ⟨.refl (fun _ => rfl) _, .refl (.refl _) _, .refl (.refl _) _⟩
  rcases h with h | h
  · cases h with
    | economy _ _ _ hrows =>
      exact ⟨hrows.1, Extends.same (fun _ _ h => by rw [h.row]; rfl) hrows.2.1,
        Extends.same (fun _ _ h => by rw [h.row]; rfl) hrows.2.2⟩
    | _ => exact hsame
  · cases h <;> exact hsame

/-! ### Records stay -/

/-- **A record stays**: no change deletes it, or puts another one in its place.

**Proof sketch.** By the kind of the key. Tables grow at their end and keep what their rows were
created for, so that the first row that a lookup finds stays the first. A grant is found under its
key in the journal, which loses no row. -/
theorem Change.recorded (h : Change env req tx db db') (hs : db.books.Sound)
    (hr : db.recorded k = some r) : db'.recorded k = some r := by
  cases k with
  | session user key =>
    refine recorded_extends h.sessions_extend (fun _ s s' h => ?_) (fun _ s s' h => ?_) hr <;>
    · simp only [Session.origin, Prod.mk.injEq] at h
      simp only [h]
  | nodeLease sponsor key =>
    refine recorded_extends h.nodeLeases_extend (fun _ l l' h => ?_) (fun _ l l' h => ?_) hr <;>
    · simp only [NodeLease.origin, Prod.mk.injEq] at h
      simp only [h]
  | routeLease sponsor key =>
    refine recorded_extends h.routeLeases_extend (fun _ l l' h => ?_) (fun _ l l' h => ?_) hr <;>
    · simp only [RouteLease.origin, Prod.mk.injEq] at h
      simp only [h]
  | plan creator key =>
    refine recorded_extends h.pools_extend (fun _ p p' h => ?_) (fun _ p p' h => ?_) hr <;>
    · simp only [Pool.origin, Prod.mk.injEq] at h
      simp only [h]
  | funding user key =>
    refine recorded_extends (g := id) (Extends.same (fun _ _ h => h.symm) h.fundings_extend)
      (fun _ f f' h => ?_) (fun _ f f' h => ?_) hr <;>
    · rw [id_eq, id_eq] at h
      rw [h]
  | authorization user key =>
    refine recorded_extends h.authorizations_extend (fun _ a a' h => ?_) (fun _ a a' h => ?_) hr <;>
    · simp only [Authorization.origin, Prod.mk.injEq] at h
      simp only [h]
  | mandate provider key =>
    refine recorded_extends h.mandates_extend (fun _ m m' h => ?_) (fun _ m m' h => ?_) hr <;>
    · simp only [Mandate.origin, Prod.mk.injEq] at h
      simp only [h]
  | party user key =>
    refine recorded_extends (g := id)
      (Extends.same (fun _ _ h => h.symm) h.economy_extends.1)
      (fun _ p p' h => ?_) (fun _ p p' h => ?_) hr <;>
    · rw [id_eq, id_eq] at h
      rw [h]
  | affiliation user key =>
    refine recorded_extends h.economy_extends.2.1 (fun _ a a' h => ?_) (fun _ a a' h => ?_) hr <;>
    · simp only [Affiliation.origin, Prod.mk.injEq] at h
      simp only [h]
  | support user key =>
    refine recorded_extends h.economy_extends.2.2 (fun _ s s' h => ?_) (fun _ s s' h => ?_) hr <;>
    · simp only [OperatingSupport.origin, Prod.mk.injEq] at h
      simp only [h]
  | grant key =>
    obtain ⟨j, hj, hfound⟩ := Option.bind_eq_some_iff.1 hr
    obtain ⟨row, hrow, rfl⟩ := Option.map_eq_some_iff.1 hfound
    obtain ⟨row', hrow', hbusiness⟩ := Ledger.findKey_eq_some hj
    rw [hrow, Option.some.injEq] at hrow'
    subst hrow'
    obtain ⟨hnew, -⟩ := h.journal_old hs hrow
    have hkey := (h.sound hs).keys j row hnew
    rw [hbusiness] at hkey
    simp only [Db.recorded, hkey, Option.bind_some, hnew, Option.map_some]

/-- **A request stays accepted**: the pools that it names stay, with their creators. -/
theorem Change.accepted (h : Change env req tx db db') (ha : c.Accepted db user) :
    c.Accepted db' user := by
  have hpool : ∀ {id p}, db.pools.find? id = some p →
      ∃ p', db'.pools.find? id = some p' ∧ p'.creatorId = p.creatorId := by
    intro id p hp
    obtain ⟨p', hp', hsame⟩ := h.pools.old hp
    exact ⟨p', hp', hsame.creator⟩
  cases c with
  | window id d =>
    obtain ⟨p, hp, howner⟩ := ha
    obtain ⟨p', hp', hcreator⟩ := hpool hp
    exact ⟨p', hp', hcreator ▸ howner⟩
  | authorization id d =>
    obtain ⟨hvalid, hkind, p, hp, howner⟩ := ha
    obtain ⟨p', hp', hcreator⟩ := hpool hp
    exact ⟨hvalid, hkind, p', hp', hcreator ▸ howner⟩
  | mandate id d =>
    obtain ⟨hvalid, hkind, p, hp⟩ := ha
    obtain ⟨p', hp', -⟩ := hpool hp
    exact ⟨hvalid, hkind, p', hp'⟩
  | support id d =>
    obtain ⟨hadmin, p, hp⟩ := ha
    obtain ⟨p', hp', -⟩ := hpool hp
    exact ⟨hadmin, p', hp'⟩
  | _ => exact ha

/-! ### Effects -/

/-- A step that changes no row and no balance. -/
def NoEffect (db db' : Db) : Prop := db' = { db with xid := db'.xid }

/-- What a step is: no effect, or what the operation of its request did. -/
theorem perform_step (env : Env) (db : Db) (i : Tx × Request) :
    NoEffect db ((controlSystem env).step i db) ∨ ∃ db₁, perform env i.1 db i.2 = .ok db₁ ∧
      (controlSystem env).step i db = { db₁ with xid := db.xid + 1 } := by
  have hstep : (controlSystem env).step i db =
    { Checked.settle (transaction env i.1 db i.2) db with xid := db.xid + 1 } := rfl
  rcases Checked.settle_cases (transaction env i.1 db i.2) db with ⟨db', hdb', hset⟩ | hset
  · simp only [transaction, Checked.bind_ok, Checked.pure_ok] at hdb'
    obtain ⟨db₁, hrun, -, -, rfl⟩ := hdb'
    exact .inr ⟨db₁, hrun, by rw [hstep, hset]⟩
  · exact .inl (by rw [hstep, hset]; rfl)

/-- What the step of a user's request is. -/
theorem user_step (env : Env) (tx : Tx) (db : Db) (user : Actor) (r : UserRequest) :
    NoEffect db ((controlSystem env).step (tx, .user user r) db) ∨
      ∃ db₁, db.authenticated user = true ∧ performUser env tx db user r = .ok db₁ ∧
        (controlSystem env).step (tx, .user user r) db = { db₁ with xid := db.xid + 1 } := by
  rcases perform_step env db (tx, .user user r) with hquiet | ⟨db₁, hrun, hstep⟩
  · exact .inl hquiet
  · simp only [perform, Checked.bind_ok, need_ok, exists_const] at hrun
    exact .inr ⟨db₁, hrun.1, hrun.2, hstep⟩

/-- What the step of a creation is: no effect, or what its endpoint answered. -/
theorem creation_step (env : Env) (tx : Tx) (db : Db) (user : Actor) (c : Creation) :
    NoEffect db ((controlSystem env).step (tx, .user user c.request) db) ∨
      ∃ n db₁, c.run env tx db user = .ok (n, db₁) ∧
        (controlSystem env).step (tx, .user user c.request) db = { db₁ with xid := db.xid + 1 } := by
  rcases user_step env tx db user c.request with hquiet | ⟨db₁, -, hrun, hstep⟩
  · exact .inl hquiet
  · rw [c.performUser_request, Checked.map_ok] at hrun
    obtain ⟨⟨n, db₂⟩, hrun, rfl⟩ := hrun
    exact .inr ⟨n, db₂, hrun, hstep⟩

/-- An input is a creation under a key. -/
def CreatesUnder (db : Db) (i : Tx × Request) (k : CreationKey) : Prop :=
  ∃ user c, i.2 = .user user (Creation.request c) ∧ c.key db user = some k

/-- A creation whose key has a record has no effect. -/
theorem recorded_noEffect (hk : c.key db user = some k) (hr : db.recorded k = some r) :
    NoEffect db ((controlSystem env).step (tx, .user user c.request) db) := by
  rcases creation_step env tx db user c with hquiet | ⟨n, db₁, hrun, hstep⟩
  · exact hquiet
  · obtain ⟨-, -, -, rfl⟩ := (Creation.run_recorded hk hr).1 hrun
    rw [hstep]
    rfl

/-- A creation that takes effect is answered, and leaves its record. -/
theorem effect_recorded (hk : c.key db user = some k)
    (heffect : ¬ NoEffect db ((controlSystem env).step (tx, .user user c.request) db)) :
    c.Accepted db user ∧ ∃ r db₁, c.run env tx db user = .ok (r.id, db₁) ∧ c.Agrees env r ∧
      ((controlSystem env).step (tx, .user user c.request) db).recorded k = some r := by
  have hnone : db.recorded k = none := by
    cases hr : db.recorded k with
    | none => rfl
    | some r => exact absurd (recorded_noEffect hk hr) heffect
  obtain ⟨n, db₁, hrun, hstep⟩ := (creation_step env tx db user c).resolve_left heffect
  obtain ⟨haccepted, r, hr, rfl, hagrees⟩ := Creation.run_fresh hk hnone hrun
  refine ⟨haccepted, r, db₁, hrun, hagrees, ?_⟩
  rw [hstep]
  cases k <;> exact hr

/-- A record stays along every step. -/
theorem step_recorded (hs : Machine.Reachable (controlSystem env) db) (i : Tx × Request)
    (hr : db.recorded k = some r) : ((controlSystem env).step i db).recorded k = some r :=
  (Machine.Star.preserves (P := fun db => db.books.Sound ∧ db.recorded k = some r)
    (fun _ _ hc h => ⟨hc.sound h.1, hc.recorded h.1 h.2⟩) (step_changes i db)
    ⟨(reachable_booking hs).sound, hr⟩).2

/-- **The coordinator answers creations under keys.** -/
def keyedCreations (env : Env) : Idempotence.Keyed (controlSystem env) CreationKey Recorded where
  Uses := CreatesUnder
  record := Db.recorded
  Quiet := NoEffect
  persists i hs hr := step_recorded hs i hr
  replays := by
    rintro db ⟨tx, req⟩ k r - ⟨user, c, rfl, hk⟩ hr
    exact recorded_noEffect hk hr
  records := by
    rintro db ⟨tx, req⟩ k - ⟨user, c, rfl, hk⟩ heffect
    obtain ⟨-, r, -, -, -, hr⟩ := effect_recorded hk heffect
    exact ⟨r, hr⟩

/-- A request stays accepted along every run. -/
theorem run_accepted (h : c.Accepted db user) (is : List (Tx × Request)) :
    c.Accepted ((controlSystem env).run db is) user := by
  induction is generalizing db with
  | nil => exact h
  | cons i is ih =>
    exact ih (Machine.Star.preserves (P := fun db => c.Accepted db user)
      (fun _ _ hc h => hc.accepted h) (step_changes i db) h)

/-- **Creations take effect once**: a creation that takes effect leaves a record. In every later
database no creation under its key has an effect. The same request, or one with the same digest
that is accepted, is answered from the record, and one with another digest is refused.

**Proof sketch.** An effect is that of a request that was accepted and leaves its record
(`effect_recorded`). The record stays along every run, and a request under a key with a record is
answered from it or refused (`Creation.run_recorded`), in both cases without an effect. -/
theorem effect_once {env : Env} {db : Db} (hreach : Machine.Reachable (controlSystem env) db)
    {tx : Tx} {user : Actor} {c : Creation} {k : CreationKey} (hk : c.key db user = some k)
    (heffect : ¬ NoEffect db ((controlSystem env).step (tx, .user user c.request) db)) :
    ∃ (r : Recorded) (db₁ : Db), c.run env tx db user = .ok (r.id, db₁) ∧ c.Agrees env r ∧
      ∀ is later, later = (controlSystem env).run
          ((controlSystem env).step (tx, .user user c.request) db) is →
        c.Accepted later user ∧
        ∀ (tx' : Tx) (user' : Actor) (c' : Creation), c'.key later user' = some k →
          NoEffect later ((controlSystem env).step (tx', .user user' c'.request) later) ∧
          (c'.Agrees env r → c'.Accepted later user' →
            c'.run env tx' later user' = .ok (r.id, later)) ∧
          (¬ c'.Agrees env r → ∃ e, c'.run env tx' later user' = .error e) := by
  obtain ⟨haccepted, r, db₁, hrun, hagrees, hr⟩ := effect_recorded hk heffect
  have hreach' : Machine.Reachable (controlSystem env)
      ((controlSystem env).step (tx, .user user c.request) db) := .step _ hreach
  refine ⟨r, db₁, hrun, hagrees, fun is later hlater => ?_⟩
  subst hlater
  refine ⟨?_, fun tx' user' c' hk' => ?_⟩
  · rw [← Machine.System.run_cons]
    exact run_accepted haccepted _
  have hstays := (keyedCreations env).recorded_run hreach' hr is
  refine ⟨?_, fun hsame haccepted' => ?_, fun hother => ?_⟩
  · exact (keyedCreations env).once (i := (tx, .user user c.request))
      (j := (tx', .user user' c'.request)) hreach ⟨user, c, rfl, hk⟩ heffect is
      ⟨user', c', rfl, hk'⟩
  · exact (Creation.run_recorded hk' hstays).2 ⟨haccepted', hsame, rfl, rfl⟩
  · cases hanswer : c'.run env tx' ((controlSystem env).run
      ((controlSystem env).step (tx, .user user c.request) db) is) user' with
    | error e => exact ⟨e, rfl⟩
    | ok x => exact absurd ((Creation.run_recorded hk' hstays).1 hanswer).2.1 hother

/-! ### The owner of a window -/

/-- The key of a request when the owner of its record is always the caller. -/
def Creation.callerKey (db : Db) (user : Actor) : Creation → Option CreationKey
  | .window _ d => some (.routeLease user.id d.idempotencyKey)
  | c => c.key db user

/-- The pool `29000` of the consumer, with `5000` of working capital. -/
def labMemberPool : List (Tx × Request) := [
    (labTx 27 0, .background (.bootstrap 0)),
    (labTx 28 0, .user labAdmin (.grant ⟨1000, 10000, 1, "g"⟩)),
    (labTx 29 0, .user labConsumer (.createPool ⟨"p", "2h", 1, [⟨"g", [19000, 20000], 1, 60⟩]⟩)),
    (labTx 30 0, .user labConsumer (.fund 29000 ⟨.working, 5000, "h", 1⟩))]

/-- The administrator offers a window of a route under the key `7`. -/
def labOffer : Creation := .routeLease ⟨19000, 60, 1, .scheduled, "r", 7⟩

/-- The administrator offers a window of the consumer's pool under the key `7`. -/
def labWindow : Creation := .window 29000 ⟨"g", .working, "r", 7⟩

/-- One more window is an effect. -/
theorem effect_of_routeLeases
    (h : db'.routeLeases.rows.length ≠ db.routeLeases.rows.length) : ¬ NoEffect db db' :=
  fun hquiet => h (congrArg (·.routeLeases.rows.length) hquiet)

/-- **Two effects of one caller under one key**: the administrator offers a window in its own name,
and then one of the consumer's pool, which belongs to the consumer. -/
theorem caller_key_effects :
    labOffer.callerKey (labDb (labSetup ++ labMemberPool)) labAdmin =
        labWindow.callerKey (labDb (labSetup ++ labMemberPool ++
          [(labTx 31 0, .user labAdmin labOffer.request)])) labAdmin ∧
      ¬ NoEffect (labDb (labSetup ++ labMemberPool))
        (labDb (labSetup ++ labMemberPool ++ [(labTx 31 0, .user labAdmin labOffer.request)])) ∧
      ¬ NoEffect
        (labDb (labSetup ++ labMemberPool ++ [(labTx 31 0, .user labAdmin labOffer.request)]))
        (labDb (labSetup ++ labMemberPool ++ [(labTx 31 0, .user labAdmin labOffer.request),
          (labTx 32 0, .user labAdmin labWindow.request)])) := by
  refine ⟨?_, effect_of_routeLeases ?_, effect_of_routeLeases ?_⟩
  · simp only [labOffer, labWindow, Creation.callerKey, Creation.key]
  · decide +kernel
  · decide +kernel

/-- The offer of the administrator takes effect once: sent again, it is answered from its record. -/
theorem effect_once_lab : ∃ (r : Recorded) (db₁ : Db),
    labOffer.run labEnv (labTx 31 0) (labDb (labSetup ++ labMemberPool)) labAdmin =
      .ok (r.id, db₁) ∧
    ∀ later, later = (controlSystem labEnv).step (labTx 31 0, .user labAdmin labOffer.request)
        (labDb (labSetup ++ labMemberPool)) →
      labOffer.run labEnv (labTx 32 0) later labAdmin = .ok (r.id, later) := by
  have heffect : ¬ NoEffect (labDb (labSetup ++ labMemberPool)) ((controlSystem labEnv).step
      (labTx 31 0, .user labAdmin labOffer.request) (labDb (labSetup ++ labMemberPool))) :=
    effect_of_routeLeases (by decide +kernel)
  have hkey : ∀ db, labOffer.key db labAdmin = some (.routeLease 0 7) := fun _ => rfl
  obtain ⟨r, db₁, hrun, hagrees, hlater⟩ := effect_once (reachable_lab _) (hkey _) heffect
  refine ⟨r, db₁, hrun, fun later heq => ?_⟩
  obtain ⟨haccepted, hanswers⟩ := hlater [] later heq
  exact (hanswers (labTx 32 0) labAdmin labOffer (hkey later)).2.1 hagrees haccepted

end NetworkAi
