import NetworkAi.Node.Agent

set_option relaxedAutoImplicit false
set_option autoImplicit false

/-!
# The moves of the node agent

Every event of the agent is made of a few moves: reservations are made and dropped, an execution is
started with one, goes from one phase to the next and gives back its permit, a receipt is written,
and a receipt is settled. What holds in every state of the agent is proved of the moves.

## Main definitions

* `NetworkAi.NodeAgent.Move` — the moves, with what they depend on.
* `NetworkAi.NodeAgent.Event.Keeps`, `NetworkAi.NodeAgent.Event.Stored` — an event loses neither an
  accepted claim nor a receipt.

## Main results

* `NetworkAi.NodeAgent.step_moves` — the events are made of moves.
-/

namespace NetworkAi.NodeAgent

open Relational Machine

/-! ### The moves -/

/-- Nothing that the results are about changes; the pass over the outbox may have read a file. -/
structure Agent.Quiet (s s' : Agent) : Prop where
  permits : s'.permits = s.permits
  prepared : s'.prepared = s.prepared
  drawn : s'.drawn = s.drawn
  executions : s'.executions = s.executions
  outbox : s'.outbox = s.outbox
  earlier : s'.earlier = s.earlier
  written : s'.written = s.written
  answered : s'.answered = s.answered
  loop : ∀ name r left, s'.loop = .submitting name r left →
    s.loop = .submitting name r left ∨ s.outbox name = some r

/-- The agent without the reservations that satisfy `q`, their permits given back. -/
def Agent.forget (s : Agent) (q : String → Prepared → Bool) : Agent :=
  { s with
    prepared := s.prepared.deleteWhere q
    permits := s.permits + (s.prepared.rows.length - (s.prepared.deleteWhere q).rows.length) }

/-- The agent with one more reservation. -/
def Agent.hold (s : Agent) (cap : Capability) (validUntil : Nat)
    (h : s.prepared.find? cap.sessionId = none) : Agent :=
  { s with
    permits := s.permits - 1
    drawn := s.drawn + 1
    prepared := s.prepared.insert cap.sessionId ⟨s.drawn, cap, validUntil⟩ h }

/-- The agent with an execution that has taken a reservation. -/
def Agent.start (s : Agent) (cap : Capability) (p : Prepared) : Agent :=
  { s with
    prepared := s.prepared.without cap.sessionId
    executions := s.executions ++
      [{ cap, prepared := p, takenAt := s.now, accepted := false, client := true,
         cancelled := false, phase := .claiming }] }

/-- The agent with an execution that has given back its permit. -/
def Agent.leave (s : Agent) (i : Nat) (e : Execution) (p : Phase) : Agent :=
  { s.put i { e with phase := p } with permits := s.permits + 1 }

/-- The agent with the receipt of an execution in the outbox. -/
def Agent.write (s : Agent) (i : Nat) (e : Execution) (r : Receipt) : Agent :=
  { s.put i { e with phase := .submitting r } with
    outbox := Function.update s.outbox e.cap.sessionId (some r)
    written := s.written ++ [r] }

/-- The agent with a receipt that has been answered, its file removed or not. -/
def Agent.settled (s : Agent) (name : String) (r : Receipt) (removed : Bool) : Agent :=
  { s with
    answered := s.answered ++ [r]
    outbox := if removed then Function.update s.outbox name none else s.outbox }

/-- The phases that follow each other without a permit given back or a receipt written; where
nothing is lost, an engine does not end without a receipt. -/
inductive Execution.Follows (safe : Prop) (e : Execution) : Phase → Prop
  | claimed (h : e.phase = .claiming) (ha : e.accepted = true) : e.Follows safe .claimed
  | spawned (h : e.phase = .claimed) : e.Follows safe .engine
  | lost (h : e.phase = .engine) (hs : ¬ safe) : e.Follows safe .unregistering
  | submitted {r : Receipt} (h : e.phase = .submitting r) : e.Follows safe .unregistering
  | unregistered (h : e.phase = .unregistering) : e.Follows safe .closing

/-- A receipt is being submitted, by its task or by the pass over the outbox. -/
def Agent.Submits (s : Agent) (name : String) (r : Receipt) : Prop :=
  (∃ left, s.loop = .submitting name r left) ∨
    ∃ (i : Nat) (e : Execution), s.executions[i]? = some e ∧ e.phase = .submitting r ∧
      e.cap.sessionId = name

/-- **The moves of the agent.** Where nothing is lost (`safe`), no claim is accepted without its
handler, no handler is dropped with an accepted claim, and every receipt is written. -/
inductive Move (safe : Prop) : Agent → Agent → Prop
  | quiet {s s' : Agent} (h : s.Quiet s') : Move safe s s'
  | forget {s : Agent} (q : String → Prepared → Bool) : Move safe s (s.forget q)
  | hold {s : Agent} {cap : Capability} (validUntil : Nat)
      (h : s.prepared.find? cap.sessionId = none) (hp : s.permits ≠ 0) :
      Move safe s (s.hold cap validUntil h)
  | start {s : Agent} {cap : Capability} {p : Prepared}
      (h : s.prepared.find? cap.sessionId = some p) (hvalid : s.now ≤ p.validUntil)
      (hid : some p.id = cap.prepareId) (hattempt : p.cap.attemptId = cap.attemptId) :
      Move safe s (s.start cap p)
  | accept {s : Agent} {i : Nat} {e : Execution} (he : s.executions[i]? = some e)
      (hnew : e.cap.sessionId ∉ s.acceptedSessions) (hs : safe → e.phase = .claiming) :
      Move safe s (s.put i { e with accepted := true })
  | flags {s : Agent} {i : Nat} {e : Execution} (client cancelled : Bool)
      (he : s.executions[i]? = some e) : Move safe s (s.put i { e with client, cancelled })
  | phase {s : Agent} {i : Nat} {e : Execution} {p : Phase} (he : s.executions[i]? = some e)
      (hp : e.Follows safe p) : Move safe s (s.put i { e with phase := p })
  | drop {s : Agent} {i : Nat} {e : Execution} (he : s.executions[i]? = some e)
      (hp : e.phase.inHandler = true) (hs : safe → e.accepted = false) :
      Move safe s (s.leave i e .dropped)
  | finish {s : Agent} {i : Nat} {e : Execution} (he : s.executions[i]? = some e)
      (hp : e.phase = .closing) : Move safe s (s.leave i e .finished)
  | write {s : Agent} {i : Nat} {e : Execution} {r : Receipt} (he : s.executions[i]? = some e)
      (hp : e.phase = .engine) (hr : r.sessionId = e.cap.sessionId) : Move safe s (s.write i e r)
  | settle {s : Agent} {name : String} {r : Receipt} (removed : Bool) (h : s.Submits name r) :
      Move safe s (s.settled name r removed)

/-- Finitely many moves. -/
abbrev Moves (safe : Prop) : Agent → Agent → Prop := Star (Move safe)

variable {safe : Prop} {c : Config} {s s' : Agent}

/-- One move is a sequence of moves. -/
theorem Move.moves (h : Move safe s s') : Moves safe s s' := .single h

/-- No move is a sequence of moves. -/
theorem Moves.refl (s : Agent) : Moves safe s s := Relation.ReflTransGen.refl

/-- A quiet change is a sequence of moves. -/
theorem Moves.quiet (h : s.Quiet s') : Moves safe s s' := .single (.quiet h)

/-! ### Events that may lose a claim or a receipt -/

/-- An event does not lose an accepted claim: a handler whose claim the coordinator has accepted is
neither dropped nor answered with an error, and no claim is accepted after its handler is gone. -/
def Event.Keeps (s : Agent) : Event → Prop
  | .accept i => ∀ e, s.executions[i]? = some e → e.cap.sessionId ∉ s.acceptedSessions →
      e.phase = .claiming
  | .claimAnswered i ok => ok = false → ∀ e, s.executions[i]? = some e → e.phase = .claiming →
      e.accepted = false
  | .disconnect i => ∀ e, s.executions[i]? = some e → e.phase.inHandler = true →
      e.accepted = false
  | _ => True

/-- An event is no failure of the storage: the receipt of an execution is written. -/
def Event.Stored : Event → Prop
  | .outcome _ _ _ _ persisted => persisted = true
  | _ => True

/-! ### The events -/

/-- Expired preparations are dropped by moves. -/
theorem retain_moves : Moves safe s s.retain :=
  Move.moves (.forget fun _ p => p.validUntil < s.now)

/-- A reservation is made by moves. -/
theorem reserve_moves (cap : Capability) : Moves safe s (s.reserve cap) := by
  unfold Agent.reserve
  split
  · exact .refl s
  · next hnone =>
    split
    · exact .refl s
    · next hp => exact Move.moves (.hold _ hnone hp)

/-- `prepare` is made of moves. -/
theorem prepare_moves (token : String) : Moves safe s (s.prepare c token) := by
  unfold Agent.prepare
  split
  · exact .refl s
  · next cap hcap =>
    split
    · exact retain_moves.trans (reserve_moves cap)
    · exact .refl s

/-- Dropping a reservation that is there gives back one permit. -/
theorem forget_one {k : String} {p : Prepared} (h : s.prepared.find? k = some p) :
    s.forget (fun k' _ => k' = k) =
      { s with prepared := s.prepared.without k, permits := s.permits + 1 } := by
  obtain ⟨a, b, hrows, hdelete⟩ := Table.rows_delete h
  have hlength : s.prepared.rows.length -
      (s.prepared.deleteWhere fun k' _ => k' = k).rows.length = 1 := by
    rw [hdelete, hrows]
    simp only [List.length_append, List.length_cons]
    omega
  rw [Agent.forget, hlength]
  rfl

/-- `release` is made of moves. -/
theorem release_moves (token : String) : Moves safe s (s.release c token) := by
  unfold Agent.release
  split
  · exact .refl s
  · next cap hcap =>
    split
    · next p hp =>
      split
      · rw [← forget_one hp]
        exact Move.moves (.forget _)
      · exact .refl s
    · exact .refl s

/-- `execute` is made of moves. -/
theorem execute_moves (token : String) (body : List UInt8) :
    Moves safe s (s.execute c token body) := by
  unfold Agent.execute
  split
  · exact .refl s
  · next cap hcap =>
    split
    · split
      · exact .refl s
      · next p hp =>
        split
        · exact .refl s
        · next hvalid =>
          simp only [not_or, not_lt, not_not] at hvalid
          exact Move.moves (.start hp hvalid.1 hvalid.2.1 hvalid.2.2)
    · exact .refl s

/-- Accepting an execution is made of moves, if the event keeps what is safe. -/
theorem accept_moves {i : Nat} (h : safe → (Event.accept i).Keeps s) :
    Moves safe s (s.accept i) := by
  apply Roster.act_cases (.refl s)
  intro e he hnew
  have hfree : e.cap.sessionId ∉ s.acceptedSessions := of_decide_eq_true hnew
  exact Move.moves (.accept he hfree fun hs => h hs e he hfree)

/-- The answer to a claim is taken up by moves, if the event keeps what is safe. -/
theorem claimAnswered_moves {i : Nat} {ok : Bool}
    (h : safe → (Event.claimAnswered i ok).Keeps s) : Moves safe s (s.claimAnswered i ok) := by
  apply Roster.act_cases (.refl s)
  intro e he hp
  have hphase : e.phase = .claiming := of_decide_eq_true hp
  cases ok with
  | false =>
    have hin : e.phase.inHandler = true := by rw [hphase]; rfl
    exact Move.moves (.drop he hin fun hs => h hs rfl e he hphase)
  | true =>
    rw [if_pos rfl]
    split
    · next hacc => exact Move.moves (.phase he (.claimed hphase hacc))
    · exact .refl s

/-- Starting the task of an execution is made of moves. -/
theorem spawn_moves (i : Nat) : Moves safe s (s.spawn i) := by
  apply Roster.act_cases (.refl s)
  intro e he hp
  have hphase : Move safe s (s.put i { e with phase := .engine }) :=
    .phase he (.spawned (of_decide_eq_true hp))
  exact hphase.moves.trans
    (Moves.quiet ⟨rfl, rfl, rfl, rfl, rfl, rfl, rfl, rfl, fun _ _ _ hl => .inl hl⟩)

/-- A client that goes away is taken up by moves, if the event keeps what is safe. -/
theorem disconnect_moves {i : Nat} (h : safe → (Event.disconnect i).Keeps s) :
    Moves safe s (s.disconnect i) := by
  apply Roster.act_cases (.refl s)
  intro e he _
  split
  · next hin => exact Move.moves (.drop he hin fun hs => h hs e he hin)
  · exact Move.moves (.flags false e.cancelled he)

/-- The outcome of an execution is taken up by moves, if its receipt is stored. -/
theorem outcome_moves {i : Nat} {o : Outcome} {m : Meter} {elapsedMs : Nat} {persisted : Bool}
    (h : safe → (Event.outcome i o m elapsedMs persisted).Stored) :
    Moves safe s (s.outcome i o m elapsedMs persisted) := by
  apply Roster.act_cases (.refl s)
  intro e he hp
  have hphase : e.phase = .engine := (of_decide_eq_true hp).1
  cases persisted with
  | true => exact Move.moves (.write he hphase rfl)
  | false =>
    have hlost : Move safe s (s.put i { e with phase := .unregistering }) :=
      .phase he (.lost hphase fun hs => absurd (h hs) (by simp [Event.Stored]))
    exact hlost.moves.trans
      (Moves.quiet ⟨rfl, rfl, rfl, rfl, rfl, rfl, rfl, rfl, fun _ _ _ hl => .inl hl⟩)

/-- The answer to a receipt that is submitted is taken up by moves. -/
theorem settle_moves {name : String} {r : Receipt} (reply : Reply) (removed : Bool)
    (h : s.Submits name r) : Moves safe s (s.settle name r reply removed) := by
  unfold Agent.settle
  split
  · exact Move.moves (.settle removed h)
  · exact .refl s

/-- A receipt is settled whatever the record of an execution. -/
theorem put_settle (i : Nat) (e : Execution) (name : String) (r : Receipt) (reply : Reply)
    (removed : Bool) :
    (s.put i e).settle name r reply removed = (s.settle name r reply removed).put i e := by
  unfold Agent.settle
  split <;> rfl

/-- The answer to a receipt leaves the executions alone. -/
theorem settle_executions (name : String) (r : Receipt) (reply : Reply) (removed : Bool) :
    (s.settle name r reply removed).executions = s.executions := by
  unfold Agent.settle
  split <;> rfl

/-- The answer to the receipt of an execution is taken up by moves. -/
theorem receiptAnswered_moves (i : Nat) (reply : Reply) (removed : Bool) :
    Moves safe s (s.receiptAnswered i reply removed) := by
  apply Roster.act_cases (.refl s)
  intro e he _
  split
  · next r hphase =>
    rw [put_settle]
    have hsettle : Moves safe s (s.settle e.cap.sessionId r reply removed) :=
      settle_moves reply removed (.inr ⟨i, e, he, hphase, rfl⟩)
    refine hsettle.trans (Move.moves (.phase ?_ (.submitted hphase)))
    rw [settle_executions]
    exact he
  · exact .refl s

/-- Unregistering an execution is a move. -/
theorem unregister_moves (i : Nat) : Moves safe s (s.unregister i) := by
  apply Roster.act_cases (.refl s)
  intro e he hp
  have hphase : Move safe s (s.put i { e with phase := .closing }) :=
    .phase he (.unregistered (of_decide_eq_true hp))
  exact hphase.moves.trans
    (Moves.quiet ⟨rfl, rfl, rfl, rfl, rfl, rfl, rfl, rfl, fun _ _ _ hl => .inl hl⟩)

/-- Finishing an execution is made of moves. -/
theorem finish_moves (i : Nat) : Moves safe s (s.finish i) := by
  apply Roster.act_cases (.refl s)
  intro e he hp
  exact Move.moves (.finish he (of_decide_eq_true hp))

/-- Cancelling a session is made of moves. -/
theorem cancel_moves (session : String) : Moves safe s (s.cancel session) := by
  unfold Agent.cancel
  split
  · next i _ =>
    apply Roster.act_cases (.refl s)
    intro e he _
    exact Move.moves (.flags e.client true he)
  · exact .refl s

/-- Cancelling some sessions is made of moves. -/
theorem cancelAll_moves (sessions : List String) :
    Moves safe s (sessions.foldl Agent.cancel s) := by
  induction sessions generalizing s with
  | nil => exact .refl s
  | cons session sessions ih => exact (cancel_moves session).trans ih

/-- Waking up is made of moves. -/
theorem wake_moves : Moves safe s s.wake := by
  unfold Agent.wake
  split
  · refine retain_moves.trans (Moves.quiet ⟨rfl, rfl, rfl, rfl, rfl, rfl, rfl, rfl, ?_⟩)
    intro name r left hl
    cases hl
  · exact .refl s

/-- The answer of the backend is taken up by moves. -/
theorem loaded_moves (hasModel : Bool) : Moves safe s (s.loaded hasModel) := by
  unfold Agent.loaded
  split
  · refine Moves.quiet ⟨rfl, rfl, rfl, rfl, rfl, rfl, rfl, rfl, ?_⟩
    intro name r left hl
    cases hl
  · exact .refl s

/-- The answer to a heartbeat is taken up by moves. -/
theorem beat_moves (answer : Option Beat) : Moves safe s (s.beat answer) := by
  unfold Agent.beat
  split
  · next ready hloop =>
    split
    · refine Moves.quiet ⟨rfl, rfl, rfl, rfl, rfl, rfl, rfl, rfl, ?_⟩
      intro name r left hl
      cases hl
    · next b =>
      have hstore : s.Quiet { s with
          ready := ready && b.desiredReady && b.stateReady, loop := .flushing 100 } := by
        refine ⟨rfl, rfl, rfl, rfl, rfl, rfl, rfl, rfl, ?_⟩
        intro name r left hl
        cases hl
      exact (Moves.quiet hstore).trans (cancelAll_moves b.cancelSessions)
  · exact .refl s

/-- The next file of the outbox is taken up by moves. -/
theorem entry_moves (name : String) : Moves safe s (s.entry name) := by
  unfold Agent.entry
  split
  · split
    · next r hr =>
      refine Moves.quiet ⟨rfl, rfl, rfl, rfl, rfl, rfl, rfl, rfl, ?_⟩
      intro name' r' left hl
      obtain ⟨rfl, rfl, -⟩ := Loop.submitting.inj hl
      exact .inr hr
    · refine Moves.quiet ⟨rfl, rfl, rfl, rfl, rfl, rfl, rfl, rfl, ?_⟩
      intro name' r left hl
      cases hl
  · exact .refl s

/-- Passing over a file is a move. -/
theorem skip_moves : Moves safe s s.skip := by
  unfold Agent.skip
  split
  · refine Moves.quiet ⟨rfl, rfl, rfl, rfl, rfl, rfl, rfl, rfl, ?_⟩
    intro name r left hl
    cases hl
  · exact .refl s

/-- The end of a pass over the outbox is a move. -/
theorem flushDone_moves : Moves safe s s.flushDone := by
  unfold Agent.flushDone
  split
  · refine Moves.quiet ⟨rfl, rfl, rfl, rfl, rfl, rfl, rfl, rfl, ?_⟩
    intro name r left hl
    cases hl
  · exact .refl s

/-- The answer to a submission of the outbox is taken up by moves. -/
theorem flushAnswered_moves (reply : Reply) (removed : Bool) :
    Moves safe s (s.flushAnswered reply removed) := by
  unfold Agent.flushAnswered
  split
  · next name r left hloop =>
    have hsettle : Moves safe s (s.settle name r reply removed) :=
      settle_moves reply removed (.inl ⟨left, hloop⟩)
    refine hsettle.trans (Moves.quiet ⟨rfl, rfl, rfl, rfl, rfl, rfl, rfl, rfl, ?_⟩)
    intro name' r' left' hl
    simp only at hl
    split at hl <;> cases hl
  · exact .refl s

/-- **The events are made of moves**, which lose nothing where the event loses nothing. -/
theorem step_moves {e : Event} (h : safe → e.Keeps s ∧ e.Stored) :
    Moves safe s (s.step c e) := by
  cases e with
  | elapse d => exact Moves.quiet ⟨rfl, rfl, rfl, rfl, rfl, rfl, rfl, rfl, fun _ _ _ hl => .inl hl⟩
  | prepare token => exact prepare_moves token
  | release token => exact release_moves token
  | execute token body => exact execute_moves token body
  | accept i => exact accept_moves fun hs => (h hs).1
  | claimAnswered i ok => exact claimAnswered_moves fun hs => (h hs).1
  | spawn i => exact spawn_moves i
  | disconnect i => exact disconnect_moves fun hs => (h hs).1
  | outcome i o m elapsedMs persisted => exact outcome_moves fun hs => (h hs).2
  | receiptAnswered i reply removed => exact receiptAnswered_moves i reply removed
  | unregister i => exact unregister_moves i
  | finish i => exact finish_moves i
  | wake => exact wake_moves
  | loaded hasModel => exact loaded_moves hasModel
  | beat answer => exact beat_moves answer
  | entry name => exact entry_moves name
  | skip => exact skip_moves
  | flushAnswered reply removed => exact flushAnswered_moves reply removed
  | flushDone => exact flushDone_moves

end NetworkAi.NodeAgent
