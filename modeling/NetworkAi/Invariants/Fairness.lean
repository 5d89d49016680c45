import Mathlib.Data.Int.ConditionallyCompleteOrder
import NetworkAi.Control.RenewalMoves
import NetworkAi.Lib.Turns

set_option relaxedAutoImplicit false
set_option autoImplicit false

/-!
# The admission queue rotates

The queue of `admit` is ordered by the last admission of the user and only then by age, and it
skips what cannot be admitted now. While an eligible session of a user waits, every other user is
admitted at most once, however many sessions that user queues.

## Main definitions

* `NetworkAi.admission`, `NetworkAi.admissions` — what a step, and a run, admits.
* `NetworkAi.StaysEligible` — a session waits and could be admitted at every admission of a run.

## Main results

* `NetworkAi.step_turn` — a step gives a turn to the user it admits, and to nobody else.
* `NetworkAi.bounded_bypass` — no user is admitted twice before the one that waits.
-/

namespace NetworkAi

open Relational

variable {env : Env} {req : Request} {tx : Tx} {db db' : Db} {id : SessionId} {user : UserId}

/-! ### Turns -/

/-- `users.last_admitted_at`, which is `-infinity` for a user never admitted. -/
def turn (db : Db) (user : UserId) : WithBot Micros :=
  (db.registry.users.find? user).bind (·.lastAdmittedAt)

/-- The admission of a step: its time and the user of the session that was admitted. -/
def admission (env : Env) (db : Db) (i : Tx × Request) : Option (Micros × UserId) :=
  match i.2, transaction env i.1 db i.2 with
  | .gateway (.admitSession id), .ok _ =>
    match admitSession env i.1 db id with
    | .ok (.preparing _, _) => (db.sessions.find? id).map fun s => (i.1.now, s.userId)
    | _ => none
  | _, _ => none

/-- The admissions of a run. -/
def admissions (env : Env) : Db → List (Tx × Request) → List (Micros × UserId)
  | _, [] => []
  | db, i :: is =>
    (admission env db i).toList ++ admissions env ((controlSystem env).step i db) is

/-- A session of the user is queued, within its deadline, and some ready offer of its model is
eligible for it and has a free slot in each of its domains. -/
def Waiting (tx : Tx) (db : Db) (id : SessionId) (user : UserId) : Prop :=
  ∃ s ∈ db.sessions.find? id, s.userId = user ∧ s.state = .queued ∧
    tx.now < s.queueDeadline ∧ admissible tx db s ≠ []

instance decidableWaiting (tx : Tx) (db : Db) (id : SessionId) (user : UserId) :
    Decidable (Waiting tx db id user) :=
  inferInstanceAs (Decidable (∃ s ∈ db.sessions.find? id, _))

/-- At every admission of a run the session waits. -/
def StaysEligible (env : Env) (id : SessionId) (user : UserId) : Db → List (Tx × Request) → Prop
  | _, [] => True
  | db, i :: is => ((admission env db i).isSome → Waiting i.1 db id user) ∧
      StaysEligible env id user ((controlSystem env).step i db) is

instance decidableStaysEligible (env : Env) (id : SessionId) (user : UserId) :
    ∀ db is, Decidable (StaysEligible env id user db is)
  | _, [] => .isTrue trivial
  | db, i :: is =>
    have := decidableStaysEligible env id user ((controlSystem env).step i db) is
    inferInstanceAs (Decidable (_ ∧ _))

/-- The admissions of a run are those of its first part and of what follows. -/
theorem admissions_append (env : Env) (db : Db) (is js : List (Tx × Request)) :
    admissions env db (is ++ js) =
      admissions env db is ++ admissions env ((controlSystem env).run db is) js := by
  induction is generalizing db with
  | nil => rfl
  | cons i is ih =>
    rw [List.cons_append, admissions, admissions, ih, Machine.System.run_cons, List.append_assoc]

/-- The queue is ordered by turns first. -/
theorem queueOrder_turn {a b : SessionId × Session} :
    (queueOrder db a b = true → turn db a.2.userId ≤ turn db b.2.userId) ∧
      (queueOrder db a b = false → turn db b.2.userId ≤ turn db a.2.userId) := by
  unfold queueOrder turn
  dsimp only
  generalize (db.registry.users.find? a.2.userId).bind (·.lastAdmittedAt) = s
  generalize (db.registry.users.find? b.2.userId).bind (·.lastAdmittedAt) = t
  match s, t with
  | none, none => exact ⟨fun _ => le_rfl, fun _ => le_rfl⟩
  | none, some _ => exact ⟨fun _ => bot_le, (fun h => by cases h)⟩
  | some _, none => exact ⟨(fun h => by cases h), fun _ => bot_le⟩
  | some s, some t =>
    have hle : s ≤ t → (s : WithBot Micros) ≤ t := WithBot.coe_le_coe.2
    have hge : t ≤ s → (t : WithBot Micros) ≤ s := WithBot.coe_le_coe.2
    constructor <;> intro h <;> simp only [decide_eq_true_eq, decide_eq_false_iff_not] at h
    · exact hle (h.elim le_of_lt fun hsame => hsame.1.le)
    · exact hge (not_lt.1 fun hlt => h (.inl hlt))

/-- The user of every session of a reachable database is registered. -/
theorem reachable_users (hr : Machine.Reachable (controlSystem env) db) {s : Session}
    (hs : db.sessions.find? id = some s) : (db.registry.users.find? s.userId).isSome := by
  refine reachable_of_changes (P := fun db => ∀ id s, db.sessions.find? id = some s →
    (db.registry.users.find? s.userId).isSome) (fun admin id s hs => by cases hs)
    (fun req tx db db' hold hc id s hs => ?_) hr id s hs
  rcases hc.sessions.cases hs with ⟨s₀, hs₀, hkeeps⟩ | ⟨-, huser, -⟩
  · rw [hkeeps.user]
    exact hc.registry.users.isSome (hold id s₀ hs₀)
  · exact hc.registry.users.isSome huser

/-! ### Who gets a turn -/

/-- A change of a request that admits nobody gives no turn. -/
theorem Change.turn (h : Change env req tx db db') (hreq : req.admits = false) (user : UserId) :
    NetworkAi.turn db' user = NetworkAi.turn db user := by
  have hkeeps : db.registry.KeepsTurns db'.registry := by
    rcases h with h | h
    · cases h with
      | registry _ hturns => exact hturns hreq
      | _ => exact .refl _
    · cases h <;> exact .refl _
  unfold NetworkAi.turn
  cases hu : db.registry.users.find? user with
  | some u =>
    obtain ⟨u', hu', hsame⟩ := hkeeps.old hu
    rw [hu', Option.bind_some, Option.bind_some, hsame.turn]
  | none =>
    cases hu' : db'.registry.users.find? user with
    | none => rfl
    | some u' =>
      rcases hkeeps.cases hu' with ⟨u, hold, -⟩ | ⟨-, hnew⟩
      · rw [hu] at hold
        cases hold
      · exact hnew

/-- Changes that admit nobody leave the turn of every user. -/
theorem Changes.turn (h : Changes env req tx db db') (hreq : req.admits = false) (user : UserId) :
    NetworkAi.turn db' user = NetworkAi.turn db user :=
  h.preserves (P := fun d => NetworkAi.turn d user = NetworkAi.turn db user)
    (fun _ _ hc hd => (hc.turn hreq user).trans hd) rfl

/-- What an admission of a session of `s` writes: the turn of its user. -/
theorem admitTo_turn {s : Session} {o : Offer} {reply : AdmitReply}
    (huser : (db.registry.users.find? s.userId).isSome)
    (h : admitTo tx db id s o = .ok (reply, db')) :
    turn db' = Turns.serve (turn db) (tx.now, s.userId) := by
  unfold admitTo at h
  simp only [Checked.bind_ok, reference_ok, Checked.pure_ok, Prod.mk.injEq] at h
  obtain ⟨node, -, coverage, -, members, -, db₁, hupdate, -, rfl⟩ := h
  obtain ⟨-, -, rfl⟩ := Db.updateSession_ok hupdate
  obtain ⟨u, hu⟩ := Option.isSome_iff_exists.1 huser
  funext user
  by_cases he : user = s.userId
  · subst he
    rw [Turns.serve_self]
    simp only [turn, Table.find?_modify_self, hu, Option.map_some, Option.bind_some]
    rfl
  · rw [Turns.serve_of_ne _ (Ne.symm he)]
    simp only [turn, Table.find?_modify_ne he]
    rfl

/-- **An admission** takes the session whose turn it is and records the turn of its user; any
other reply leaves the turns alone.

**Proof sketch.** By the branch of `admitSession`. All but one answer without an admission, and an
expired session is ended like any other; the last one admits the session that is next, and records
the time in the row of its user. -/
theorem admitSession_turn {reply : AdmitReply}
    (husers : ∀ s, db.sessions.find? id = some s → (db.registry.users.find? s.userId).isSome)
    (h : admitSession env tx db id = .ok (reply, db')) :
    (∃ attempt s, reply = .preparing attempt ∧ db.sessions.find? id = some s ∧
        (nextSession tx db).map Prod.fst = some id ∧
        turn db' = Turns.serve (turn db) (tx.now, s.userId)) ∨
      (∀ attempt, reply ≠ .preparing attempt) ∧ turn db' = turn db := by
  unfold admitSession at h
  simp only [Checked.bind_ok, needRow_ok] at h
  obtain ⟨s, hs, h⟩ := h
  split at h
  · simp only [Checked.pure_ok, Prod.mk.injEq] at h
    obtain ⟨rfl, rfl⟩ := h
    exact .inr ⟨(fun _ hr => by cases hr), rfl⟩
  split at h
  · simp only [Checked.bind_ok, Checked.pure_ok, Prod.mk.injEq] at h
    obtain ⟨db₁, hfinal, rfl, rfl⟩ := h
    -- the expiry of the queue is an end like any other
    have hmoves : Moves env (.gateway (.fail id "")) tx db db₁ := release_moves hs hfinal
    exact .inr ⟨(fun _ hr => by cases hr), funext (hmoves.changes.turn rfl)⟩
  simp only [Checked.bind_ok, need_ok, exists_const] at h
  obtain ⟨-, h⟩ := h
  split at h
  · simp only [Checked.pure_ok, Prod.mk.injEq] at h
    obtain ⟨rfl, rfl⟩ := h
    exact .inr ⟨(fun _ hr => by cases hr), rfl⟩
  rename_i hnext
  split at h
  · simp only [Checked.pure_ok, Prod.mk.injEq] at h
    obtain ⟨rfl, rfl⟩ := h
    exact .inr ⟨(fun _ hr => by cases hr), rfl⟩
  · have hturn := admitTo_turn (husers s hs) h
    unfold admitTo at h
    simp only [Checked.bind_ok, Checked.pure_ok, Prod.mk.injEq] at h
    obtain ⟨-, -, -, -, -, -, -, -, rfl, -⟩ := h
    exact .inl ⟨_, s, rfl, hs, not_not.1 hnext, hturn⟩

/-- **A step** gives a turn to the user that it admits, and to nobody else; it admits a session
whose user is the first in the queue.

**Proof sketch.** Only the gateway's request for an admission gives a turn, and only when it commits
(`admitSession_turn`); any other request leaves the turns (`Changes.turn`). -/
theorem step_turn (hr : Machine.Reachable (controlSystem env) db) (i : Tx × Request) :
    (∃ e id, admission env db i = some e ∧ (nextSession i.1 db).map Prod.fst = some id ∧
        (∃ s, db.sessions.find? id = some s ∧ e = (i.1.now, s.userId)) ∧
        turn ((controlSystem env).step i db) = Turns.serve (turn db) e) ∨
      (admission env db i = none ∧ turn ((controlSystem env).step i db) = turn db) := by
  obtain ⟨tx, req⟩ := i
  by_cases hreq : req.admits = true
  · obtain ⟨id, rfl⟩ : ∃ id, req = .gateway (.admitSession id) := by
      unfold Request.admits at hreq
      split at hreq
      · exact ⟨_, rfl⟩
      · cases hreq
    cases htx : transaction env tx db (.gateway (.admitSession id)) with
    | error e =>
      refine .inr ⟨by simp only [admission, htx], ?_⟩
      simp only [controlSystem, htx]
      rfl
    | ok db₁ =>
      have hstep : turn ((controlSystem env).step (tx, .gateway (.admitSession id)) db) =
          turn db₁ := by
        simp only [controlSystem, htx]
        rfl
      have hadmit := htx
      simp only [transaction, perform, performGateway, Checked.bind_ok, Checked.map_ok,
        Checked.pure_ok, Prod.exists] at hadmit
      obtain ⟨db₂, ⟨reply, db₃, hadmit, rfl⟩, -, -, rfl⟩ := hadmit
      rcases admitSession_turn (fun s hs => reachable_users hr hs) hadmit with
        ⟨attempt, s, rfl, hs, hnext, hturn⟩ | ⟨hother, hturn⟩
      · refine .inl ⟨(tx.now, s.userId), id, ?_, hnext, ⟨s, hs, rfl⟩, hstep.trans hturn⟩
        simp only [admission, htx, hadmit, hs, Option.map_some]
      · refine .inr ⟨?_, hstep.trans hturn⟩
        cases reply with
        | preparing attempt => exact absurd rfl (hother attempt)
        | _ => simp only [admission, htx, hadmit]
  · have hsame := funext (Changes.turn (@step_changes env (tx, req) db) (by simpa using hreq))
    refine .inr ⟨?_, hsame⟩
    unfold admission
    split
    · rename_i hadmits _
      dsimp only at hadmits
      exact absurd (hadmits ▸ rfl) hreq
    · rfl

/-! ### Runs -/

/-- The turns after a run are those that its admissions leave. -/
theorem run_turn (hr : Machine.Reachable (controlSystem env) db) (is : List (Tx × Request)) :
    turn ((controlSystem env).run db is) = (admissions env db is).foldl Turns.serve (turn db) := by
  induction is generalizing db with
  | nil => rfl
  | cons i is ih =>
    rw [Machine.System.run_cons, ih (.step i hr), admissions, List.foldl_append]
    rcases step_turn hr i with ⟨e, id, he, -, -, hturn⟩ | ⟨hnone, hturn⟩
    · rw [he, hturn]
      rfl
    · rw [hnone, hturn]
      rfl

/-- The session first in the queue belongs to a user whose turn is not after that of any user
whose session waits. -/
theorem nextSession_turn {s : Session} {waiting : SessionId}
    (hnext : (nextSession tx db).map Prod.fst = some id) (hs : db.sessions.find? id = some s)
    (hwaiting : Waiting tx db waiting user) : turn db s.userId ≤ turn db user := by
  obtain ⟨w, hw, rfl, hqueued, hdeadline, hoffers⟩ := hwaiting
  obtain ⟨⟨id', s'⟩, hfirst, rfl⟩ := Option.map_eq_some_iff.1 hnext
  unfold nextSession at hfirst
  have hmem := (List.mem_filter.1 (mem_of_firstBy hfirst)).1
  have hsame : s' = s := by
    have hs' := Table.find?_eq_some.2 hmem
    rw [hs, Option.some.injEq] at hs'
    exact hs'.symm
  subst hsame
  refine firstBy_key_le (f := fun r : SessionId × Session => turn db r.2.userId)
    (fun a b hab => ?_) (fun a b hab => ?_) hfirst
    (List.mem_filter.2 ⟨Table.find?_eq_some.1 hw, by simp [hqueued, hdeadline, hoffers]⟩)
  · exact queueOrder_turn.1 hab
  · exact queueOrder_turn.2 hab

/-- While the session of a user stays eligible, the queue rotates with respect to that user. -/
theorem admissions_rotate {waiting : SessionId} {is : List (Tx × Request)}
    (hr : Machine.Reachable (controlSystem env) db)
    (h : StaysEligible env waiting user db is) :
    Turns.Rotates user (turn db) (admissions env db is) := by
  induction is generalizing db with
  | nil => trivial
  | cons i is ih =>
    obtain ⟨hnow, hlater⟩ := h
    have hrest := ih (.step i hr) hlater
    rw [admissions]
    rcases step_turn hr i with ⟨e, id, he, hnext, ⟨s, hs, rfl⟩, hturn⟩ | ⟨hnone, hturn⟩
    · rw [he] at hnow
      rw [hturn] at hrest
      rw [he]
      exact ⟨nextSession_turn hnext hs (hnow rfl), hrest⟩
    · rw [hturn] at hrest
      rw [hnone]
      exact hrest

/-- In a run whose admissions are at increasing times, the turn of a user is before the time of
every later admission. -/
theorem turn_lt_admission {admin : UserId} {before after : List (Tx × Request)}
    (htimes : (admissions env (Db.initial admin) (before ++ after)).Pairwise (·.1 < ·.1))
    {e : Micros × UserId}
    (he : e ∈ admissions env ((controlSystem env).run (Db.initial admin) before) after) :
    turn ((controlSystem env).run (Db.initial admin) before) user < e.1 := by
  have hr : Machine.Reachable (controlSystem env) (Db.initial admin) := .init ⟨admin, rfl⟩
  rw [admissions_append, List.pairwise_append] at htimes
  obtain ⟨-, -, hcross⟩ := htimes
  have hstart : turn (Db.initial admin) user = ⊥ := by
    unfold turn Db.initial
    by_cases hu : user = admin
    · simp [Table.find?, Table.lookup, hu]
      rfl
    · simp [Table.find?, Table.lookup, Ne.symm hu]
      rfl
  rw [run_turn hr]
  rcases Turns.foldl_serve_cases (turn (Db.initial admin))
    (admissions env (Db.initial admin) before) user with hold | ⟨e', he', hnew⟩
  · rw [hold, hstart]
    exact WithBot.bot_lt_coe e.1
  · rw [hnew]
    exact WithBot.coe_lt_coe.2 (hcross e' he' e he)

/-- **Bounded bypass of the admission queue.** In every run whose admissions are at strictly
increasing times, and in every part of it at whose admissions a session of some user stays
eligible while no session of that user is admitted, every user is admitted at most once.

**Proof sketch.** While a session of a user waits, each admission takes a user whose turn is the
oldest and makes it the newest (`admissions_rotate`). A user that was served is then behind the one
that waits, and is not served twice. -/
theorem bounded_bypass (env : Env) (admin : UserId) (before after : List (Tx × Request))
    (waiting : SessionId) (user : UserId)
    (htimes : (admissions env (Db.initial admin) (before ++ after)).Pairwise (·.1 < ·.1))
    (hstays : StaysEligible env waiting user
      ((controlSystem env).run (Db.initial admin) before) after)
    (hnot : ∀ e ∈ admissions env ((controlSystem env).run (Db.initial admin) before) after,
      e.2 ≠ user) (other : UserId) :
    (admissions env ((controlSystem env).run (Db.initial admin) before) after).countP
      (·.2 = other) ≤ 1 := by
  have hr : Machine.Reachable (controlSystem env)
      ((controlSystem env).run (Db.initial admin) before) :=
    Machine.reachable_run (M := controlSystem env) (.init ⟨admin, rfl⟩) before
  have hnodup := (admissions_rotate hr hstays).nodup hnot fun e he => turn_lt_admission htimes he
  have hcount := List.nodup_iff_count_le_one.1 hnodup other
  rwa [List.count, List.countP_map] at hcount

/-- A user asks for a session, which gets the identifier `1000 * (i + 1)`. -/
def labSession (i : Nat) (user : Actor) (ms : Int) : List (Tx × Request) := [
    (labTx i ms, .user user (.quote ⟨"m", 16, none⟩)),
    (labTx (i + 1) ms, .user user
      (.createSession ⟨1000 * i, toString i, "s", 10, "m", 16, 10, 1⟩))]

/-- The consumer queues the sessions `32000` and `34000`, then the user `29000` queues `36000`. -/
def labQueue : List (Tx × Request) :=
  labSetup ++ [
    (labTx 27 0, .background (.bootstrap 0)),
    (labTx 28 0, .user labAdmin (.grant ⟨1000, 10000, 1, "g"⟩)),
    (labTx 29 0, .user labAdmin (.createUser .member)),
    (labTx 30 0, .user labAdmin (.grant ⟨29000, 10000, 2, "g"⟩))] ++
  labSession 31 labConsumer 100 ++ labSession 33 labConsumer 200 ++
  labSession 35 ⟨29000, .member⟩ 300

/-- Both sessions of the consumer ask to be admitted. -/
def labAdmissions : List (Tx × Request) := [
    (labTx 37 400, .gateway (.admitSession 32000)),
    (labTx 38 500, .gateway (.admitSession 34000))]

/-- The first session of the consumer passes the one that waits, the second does not. -/
theorem bounded_bypass_lab :
    admissions labEnv (labDb labQueue) labAdmissions = [(86400400000, 1000)] ∧
      (admissions labEnv (labDb labQueue) labAdmissions).countP (·.2 = 1000) ≤ 1 :=
  ⟨by decide +kernel, bounded_bypass labEnv 0 labQueue labAdmissions 36000 29000
    (by decide +kernel) (by decide +kernel) (by decide +kernel) 1000⟩

end NetworkAi
