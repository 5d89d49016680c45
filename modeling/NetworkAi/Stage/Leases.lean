import NetworkAi.Stage.Leasing

set_option relaxedAutoImplicit false
set_option autoImplicit false

/-!
# The leases of a stage agent

Every step of the agent, from one wait to the next, is a sequence of moves of the lease machine,
or the check of a compute frame. So the invariant of the machine holds of the agent under every
interleaving of its handlers.

## Main definitions

* `NetworkAi.Stage.Agent.leasing` — the agent as a lease machine.
* `NetworkAi.Stage.Discipline` — what holds of the leases of an agent.

## Main results

* `NetworkAi.Stage.step_moves` — the refinement.
* `NetworkAi.Stage.lease_discipline` — the leases of an agent after any run.
-/

namespace NetworkAi.Stage

open Machine Leasing

variable {K : Signing} {c : Config K} {s s' : Agent}

/-- The agent as a lease machine. -/
def Agent.leasing (s : Agent) : Leasing where
  prepared := s.prepared.isSome
  active := s.active
  leases := s.leases.map (·.toMetered)
  startup := s.startup
  startupClosed := s.startupClosed
  frame :=
    match s.running with
    | some (.compute f) => some (f.holder, f.bytes)
    | _ => none
  claiming := s.claiming
  taken i := s.finishes.countP fun f => f.stage = .taken i
  events := s.events

/-- Finitely many moves of the machine. -/
abbrev Moves (c : Config K) (s s' : Agent) : Prop := Star (Leasing.Move c.sha256) s.leasing s'.leasing

/-- A step of the agent: some moves, or the check of a frame. -/
def Steps (c : Config K) (s s' : Agent) : Prop :=
  Moves c s s' ∨ ∃ h l clock bytes, Check s.leasing s'.leasing h l clock bytes

/-- An agent with the same leases has made no move. -/
theorem Moves.same (h : s'.leasing = s.leasing) : Moves c s s' := by
  rw [Moves, h]

/-- One move of the leases is a sequence of moves. -/
theorem Moves.single (h : Leasing.Move c.sha256 s.leasing s'.leasing) : Moves c s s' :=
  Relation.ReflTransGen.single h

/-- Moves after moves are a sequence of moves. -/
theorem Moves.trans {s'' : Agent} (h : Moves c s s') (h' : Moves c s' s'') : Moves c s s'' :=
  Relation.ReflTransGen.trans h h'

/-! ### Lists that are written at one place -/

/-- Counting in a list with one place modified. -/
theorem countP_modify {α : Type} (p : α → Bool) (f : α → α) {l : List α} {n : Nat} {a : α}
    (h : l[n]? = some a) :
    (l.modify n f).countP p + (if p a then 1 else 0) =
      l.countP p + if p (f a) then 1 else 0 := by
  induction l generalizing n with
  | nil => simp at h
  | cons b l ih =>
    cases n with
    | zero =>
      rw [List.getElem?_cons_zero, Option.some.injEq] at h
      subst h
      rw [List.modify_zero_cons, List.countP_cons, List.countP_cons]
      omega
    | succ n =>
      rw [List.getElem?_cons_succ] at h
      have hl := ih h
      rw [List.modify_succ_cons, List.countP_cons, List.countP_cons]
      omega

/-- A map over a list with one place modified. -/
theorem map_modify {α β : Type} (g : α → β) {f : α → α} {f' : β → β}
    (h : ∀ a, g (f a) = f' (g a)) (l : List α) (n : Nat) :
    (l.modify n f).map g = (l.map g).modify n f' := by
  induction l generalizing n with
  | nil => simp
  | cons b l ih =>
    cases n with
    | zero => rw [List.modify_zero_cons, List.map_cons, List.map_cons, List.modify_zero_cons, h]
    | succ n =>
      rw [List.modify_succ_cons, List.map_cons, List.map_cons, List.modify_succ_cons, ih]

/-! ### Calls of `finish` -/

/-- Reporting the end of a call leaves the leases alone. -/
theorem callFinish_leasing (id : SessionId) (state : ReceiptState) (code : Option String) :
    (s.callFinish id state code).leasing = s.leasing := by
  simp [Agent.callFinish, Agent.leasing, List.countP_append]

/-- Finishing the active call leaves the leases alone. -/
theorem finishActive_leasing (state : ReceiptState) (code : String) :
    (s.finishActive state code).2.leasing = s.leasing := by
  unfold Agent.finishActive
  split
  · exact callFinish_leasing _ _ _
  · rfl

/-- A call that takes no lease. -/
theorem setStage_moves (call : Nat) {stage : FinishStage} (h : ∀ i, stage ≠ .taken i) :
    Moves c s (s.setStage call stage) := by
  refine .single (.forget s.leasing (s.setStage call stage).leasing.taken fun j => ?_)
  show (s.finishes.modify call _).countP _ ≤ s.finishes.countP _
  cases hcall : s.finishes[call]? with
  | none =>
    rw [List.modify_eq_self (by simpa using hcall)]
  | some f =>
    have hcount := countP_modify (fun f : FinishCall => decide (f.stage = .taken j))
      (fun f => { f with stage }) hcall
    simp only [decide_eq_true_eq, h j, if_false] at hcount
    omega

/-- The serialized part of `finish`: it takes the active lease, or none.

**Proof sketch.** Without an active lease the call only changes its stage. Otherwise no frame runs,
the active lease is cancelled, and the call is counted among those that have taken it: one move of
the leases. -/
theorem take_moves (call : Nat) (id : SessionId) (hrunning : s.running = none) :
    Moves c s (s.take call id) := by
  unfold Agent.take
  split
  · rename_i i hactive
    split
    · refine .single ?_
      have hframe : s.leasing.frame = none := by
        simp only [Agent.leasing, hrunning]
      have hmove : Leasing.Move c.sha256 _ _ := Leasing.Move.take s.leasing i
        (s.setStage call (.taken i)).leasing.taken hactive hframe fun j => ?_
      · have hleases : ((s.leases.modify i fun l => { l with cancelled := true }).map
            (·.toMetered)) = s.leasing.leases.modify i fun l => { l with cancelled := true } :=
          map_modify (fun l : Lease => l.toMetered) (fun _ => rfl) _ _
        show Leasing.Move c.sha256 s.leasing
          { s.leasing with
            active := none, taken := (s.setStage call (.taken i)).leasing.taken
            leases := (s.leases.modify i fun l => { l with cancelled := true }).map (·.toMetered) }
        rw [hleases]
        exact hmove
      · show (s.finishes.modify call _).countP _ ≤ s.finishes.countP _ + _
        cases hcall : s.finishes[call]? with
        | none =>
          rw [List.modify_eq_self (by simpa using hcall)]
          omega
        | some f =>
          have hcount := countP_modify (fun f : FinishCall => decide (f.stage = .taken j))
            (fun f => { f with stage := .taken i }) hcall
          simp only [decide_eq_true_eq, FinishStage.taken.injEq] at hcount
          by_cases hij : j = i
          · rw [if_pos hij]
            rw [if_pos hij.symm] at hcount
            omega
          · have hne : ¬ i = j := fun h => hij h.symm
            rw [if_neg hne] at hcount
            omega
    · exact setStage_moves call (by simp)
  · exact setStage_moves call (by simp)

/-- The receipt of a lease that a call took. -/
theorem buildReceipt_moves (call : Nat) (clock : Clock) :
    Moves c s (s.buildReceipt c call clock) := by
  unfold Agent.buildReceipt
  split
  · rename_i f hf
    split
    · rename_i i hstage
      split
      · rename_i l hl
        refine .single (.receipt s.leasing i l.toMetered (Agent.receiptOf c s.epoch f l clock)
          (s.setStage call .storing).leasing.taken ?_ ⟨rfl, rfl, rfl, rfl⟩ fun j => ?_)
        · show (s.leases.map (·.toMetered))[i]? = some l.toMetered
          rw [List.getElem?_map, hl]
          rfl
        · show (s.finishes.modify call _).countP _ + _ ≤ s.finishes.countP _
          have hcount := countP_modify (fun f : FinishCall => decide (f.stage = .taken j))
            (fun f => { f with stage := .storing }) hf
          simp only [hstage, decide_eq_true_eq, FinishStage.taken.injEq, reduceCtorEq,
            if_false] at hcount
          by_cases hij : j = i
          · rw [if_pos hij]
            rw [if_pos hij.symm] at hcount
            omega
          · rw [if_neg hij]
            rw [if_neg (fun h => hij h.symm)] at hcount
            omega
      · exact .same rfl
    · exact .same rfl
  · exact .same rfl

/-- The agent with other variables, which the leases do not depend on. -/
theorem stored_moves (call : Nat) (ok : Bool) : Moves c s (s.stored call ok) := by
  unfold Agent.stored
  split
  · split
    · exact setStage_moves call (by simp)
    · exact (setStage_moves call (by simp)).trans (.same rfl)
  · exact .same rfl

/-- Delivering a report is made of moves. -/
theorem delivered_moves (call : Nat) : Moves c s (s.delivered call) := by
  unfold Agent.delivered
  split
  · exact setStage_moves call (by simp)
  · exact .same rfl

/-! ### The guard of the connection -/

/-- A new connection leaves the leases alone. -/
theorem connect_leasing (id : Nat) : (s.connect id).leasing = s.leasing := by
  unfold Agent.connect
  split <;> rfl

/-- A handshake leaves the leases alone. -/
theorem handshook_leasing : s.handshook.leasing = s.leasing := by
  unfold Agent.handshook
  split <;> rfl

/-- The header of a frame leaves the leases alone. -/
theorem frame_leasing (command bytes : Nat) : (s.frame command bytes).leasing = s.leasing := by
  unfold Agent.frame
  split
  · split <;> rfl
  · rfl

/-- Dropping the connection leaves the leases alone. -/
theorem drop_leasing : s.drop.leasing = s.leasing := by
  unfold Agent.drop
  split <;> rfl

/-- The end of the guard leaves the leases alone. -/
theorem guardEnded_leasing : s.guardEnded.leasing = s.leasing := by
  unfold Agent.guardEnded
  split
  · split <;> rfl
  · rfl

/-- A preparation is dropped. -/
theorem unprepare_moves (hprepared : s'.leasing = { s.leasing with prepared := false }) :
    Moves c s s' := by
  refine .single ?_
  rw [hprepared]
  exact .unprepare s.leasing

/-- A failed guard is taken up by moves. -/
theorem guardFailed_moves : Moves c s s.guardFailed := by
  unfold Agent.guardFailed
  split
  · have hdrop : Moves c s { s with ready := false, prepared := none, readinessLease := none } :=
      unprepare_moves rfl
    have hfinish := finishActive_leasing
      (s := { s with ready := false, prepared := none, readinessLease := none }) .failed
      "rpc_link_failed"
    refine hdrop.trans ?_
    dsimp only
    split
    · rename_i call s' hs'
      rw [hs'] at hfinish
      exact .same hfinish
    · rename_i s' hs'
      rw [hs'] at hfinish
      exact .same hfinish
  · exact .same rfl

/-! ### Compute frames -/

/-- The lease that counts for a holder is that of the agent. -/
theorem metered_leasing (h : Holder) : s.leasing.metered h = s.metered h := by
  cases h with
  | startup => rfl
  | lease i =>
    show (s.leases.map (·.toMetered))[i]? = s.leases[i]?.map (·.toMetered)
    exact List.getElem?_map

/-- Metering a holder of the agent is metering it among the leases. -/
theorem meter_leasing (h : Holder) (f : Metered → Metered) :
    (s.meter h f).leasing = s.leasing.meter h f := by
  cases h with
  | startup => rfl
  | lease i =>
    have hleases : (s.leases.modify i fun l => { l with toMetered := f l.toMetered }).map
        (·.toMetered) = (s.leases.map (·.toMetered)).modify i f :=
      map_modify (fun l : Lease => l.toMetered) (fun _ => rfl) _ _
    show Leasing.mk _ _ ((s.leases.modify i fun l => { l with toMetered := f l.toMetered }).map
      (·.toMetered)) _ _ _ _ _ _ = _
    rw [hleases]
    rfl

/-- A failed frame is a move. -/
theorem frameFailed_moves : Moves c s s.frameFailed := .single (.endFrame s.leasing)

/-- The end of a frame is a move. -/
theorem frameDone_moves : Moves c s s.frameDone := .single (.endFrame s.leasing)

section Compute

variable {f : ComputeFrame} (hf : s.running = some (.compute f))

include hf

/-- The frame that runs is that of the leases. -/
theorem frame_leasing_of : s.leasing.frame = some (f.holder, f.bytes) := by
  simp only [Agent.leasing, hf]

/-- The frame waits for its next event. -/
theorem await_moves (phase : Phase) : Moves c s (s.await f phase) := by
  refine .same ?_
  have hframe := frame_leasing_of hf
  show { s.leasing with frame := some (f.holder, f.bytes) } = s.leasing
  rw [← hframe]

/-- Hashing a part of a frame is made of moves. -/
theorem hash_moves (bytes : List UInt8) : Moves c s (s.hash f.holder bytes) := by
  refine .single ?_
  rw [Agent.hash, meter_leasing]
  exact .hash s.leasing f.holder f.bytes bytes (frame_leasing_of hf)

/-- Bytes are passed, and the frame waits for its next event. -/
theorem pass_moves (bytes : List UInt8) (phase : Phase) :
    Moves c s ((s.pass f.holder bytes).await f phase) := by
  have hpass : Moves c s (s.pass f.holder bytes) :=
    .single (.pass s.leasing f.holder f.bytes bytes (frame_leasing_of hf))
  exact hpass.trans (await_moves (s := s.pass f.holder bytes) hf phase)

end Compute

/-- Hashing leaves what runs alone. -/
theorem hash_running (h : Holder) (bytes : List UInt8) : (s.hash h bytes).running = s.running := by
  cases h <;> rfl

/-- The guard of a compute frame, from one wait to the next.

**Proof sketch.** By the phase of the frame. Reading and passing bytes on are moves that only hash,
a failure ends the frame, and at the last phase the account of the frame and its end are one move.
-/
theorem compute_moves {f : ComputeFrame} (hf : s.running = some (.compute f)) (clock : Clock)
    (bytes : List UInt8) : Moves c s (s.compute clock f bytes) := by
  have hhash : ∀ b, (s.hash f.holder b).running = some (.compute f) :=
    fun b => (hash_running f.holder b).trans hf
  unfold Agent.compute
  split
  · split
    · exact .same rfl
    · split
      · exact frameFailed_moves
      · exact (hash_moves hf _).trans (pass_moves (hhash _) _ _)
  · exact pass_moves hf _ _
  · split
    · exact pass_moves hf _ _
    · exact await_moves hf _
  · split
    · exact .same rfl
    · exact (hash_moves hf _).trans (pass_moves (hhash _) _ _)
  · exact await_moves hf _
  · split
    · exact .same rfl
    · split
      · exact await_moves hf _
      · exact frameFailed_moves
  · split
    · exact .same rfl
    · -- the account and the end of the frame are one move
      rename_i size hphase hlength
      have hcount : ∀ s', s'.running = some (.compute f) → ∀ s'' : Agent,
          s''.leasing = { (s'.count f).leasing with frame := none } → Moves c s' s'' := by
        intro s' hs' s'' hs''
        refine .single ?_
        rw [hs'']
        have hmove : Leasing.Move c.sha256 _ _ := Leasing.Move.count s'.leasing f.holder f.bytes
          (frame_leasing_of hs')
        rw [← meter_leasing] at hmove
        exact hmove
      refine (hash_moves hf (Agent.barrier ++ size ++ bytes)).trans ?_
      dsimp only
      split
      · split
        · exact hcount _ (hhash _) _ rfl
        · exact hcount _ (hhash _) _ rfl
      · exact hcount _ (hhash _) _ rfl

/-- The result of reading or writing a frame is taken up by moves. -/
theorem io_moves (clock : Clock) (result : Option (List UInt8)) :
    Moves c s (s.io clock result) := by
  unfold Agent.io
  split
  · rename_i f bytes hf
    exact compute_moves hf clock bytes
  · exact frameDone_moves
  · exact frameFailed_moves
  · exact .same rfl

/-- A frame's handler has its turn: the check of a compute frame, or no move. -/
theorem beginFrame_steps (hrunning : s.running = none) (clock : Clock) (command bytes : Nat) :
    Steps c s (s.beginFrame clock command bytes) := by
  have hframe : s.leasing.frame = none := by
    simp only [Agent.leasing, hrunning]
  unfold Agent.beginFrame
  split
  · split
    · rename_i h hholder
      split
      · rename_i m hm
        split
        · rename_i hadmissible
          exact .inr ⟨h, m, clock, bytes, hframe, hholder, (metered_leasing h).trans hm,
            hadmissible, rfl⟩
        · exact .inl frameFailed_moves
      · exact .inl frameFailed_moves
    · exact .inl frameFailed_moves
  · exact .inl (.single (.endFrame s.leasing))

/-- A turn of the guard is made of steps. -/
theorem turn_steps (clock : Clock) : Steps c s (s.turn clock) := by
  unfold Agent.turn
  split
  · rename_i command bytes queue hrunning hqueue
    exact beginFrame_steps (s := { s with queue }) hrunning clock command bytes
  · rename_i call queue hrunning hqueue
    split
    · rename_i f hf
      exact .inl (take_moves (s := { s with queue }) call f.id hrunning)
    · exact .inl (.same rfl)
  · exact .inl (.same rfl)

/-! ### Requests of the gateway -/

/-- Dropping expired preparations is made of moves. -/
theorem expirePrepared_moves (clock : Clock) : Moves c s (s.expirePrepared clock) := by
  unfold Agent.expirePrepared
  cases hp : s.prepared with
  | none => exact .same (by simp [Agent.leasing, hp])
  | some p =>
    by_cases hexpired : clock.now < p.validUntil
    · exact .same (by simp [Agent.leasing, hp, Option.filter, hexpired])
    · exact unprepare_moves (by simp [Agent.leasing, Option.filter, hexpired])

/-- `prepare` is made of moves. -/
theorem prepare_moves (clock : Clock) (token : Option (Token K)) (id : String) :
    Moves c s (Agent.prepare c clock token id s).2 := by
  unfold Agent.prepare
  split
  · exact .same rfl
  · refine (expirePrepared_moves clock).trans ?_
    dsimp only
    split
    · rename_i hready
      split
      · split <;> exact .same rfl
      · exact .single (.prepare _ hready.2.2)
    · exact .same rfl

/-- `release` is made of moves. -/
theorem release_moves (clock : Clock) (token : Option (Token K)) :
    Moves c s (Agent.release c clock token s).2 := by
  unfold Agent.release
  split
  · exact .same rfl
  · rename_i value _
    dsimp only
    cases hp : s.prepared with
    | none => exact .same (by simp [Agent.leasing, hp])
    | some p =>
      by_cases hsame : p.cap.sessionId = value.sessionId ∧ p.cap.attemptId = value.attemptId
      · exact unprepare_moves (by simp [Agent.leasing, Option.filter, hsame])
      · refine .same ?_
        simp only [Agent.leasing, hp, Option.filter, hsame, not_false_eq_true, decide_true, if_true]

/-- `start` is made of moves. -/
theorem start_moves (clock : Clock) (token : Option (Token K)) :
    Moves c s (Agent.start c clock token s).2 := by
  unfold Agent.start
  split
  · exact .same rfl
  · rename_i value _
    split
    · split
      · rename_i hready
        refine .single ?_
        have hmove : Leasing.Move c.sha256 _ _ :=
          Leasing.Move.start s.leasing (Agent.newLease value clock).toMetered
          hready.2.1 ⟨rfl, rfl, ⟨rfl, rfl⟩, rfl, rfl, rfl⟩
        have hlength : s.leasing.leases.length = s.leases.length := List.length_map _
        rw [hlength] at hmove
        show Leasing.Move c.sha256 s.leasing
          { s.leasing with
            prepared := false, active := some s.leases.length
            leases := (s.leases ++ [Agent.newLease value clock]).map (·.toMetered)
            claiming := s.claiming ++ [s.leases.length] }
        rw [List.map_append]
        exact hmove
      · exact .same rfl
    · exact .same rfl

/-- The answer to a claim is taken up by moves. -/
theorem claimAnswered_moves (i : Nat) (ok : Bool) : Moves c s (s.claimAnswered i ok) := by
  unfold Agent.claimAnswered
  split
  · rename_i hclaiming
    dsimp only
    split
    · refine .single ?_
      have hmove : Leasing.Move c.sha256 _ _ := Leasing.Move.claimed s.leasing i hclaiming
      have hleases : (s.leases.modify i fun l => { l with claimed := true }).map (·.toMetered) =
          s.leasing.leases.modify i fun l => { l with claimed := true } :=
        map_modify (fun l : Lease => l.toMetered) (fun _ => rfl) _ _
      show Leasing.Move c.sha256 s.leasing
        { s.leasing with
          claiming := s.claiming.erase i
          leases := (s.leases.modify i fun l => { l with claimed := true }).map (·.toMetered) }
      rw [hleases]
      exact hmove
    · have hmove : Leasing.Move c.sha256 _ _ := Leasing.Move.refused s.leasing i hclaiming
      refine .single ?_
      split
      · rename_i hactive
        have hactive' : s.leasing.active = some i := hactive
        rw [if_pos hactive'] at hmove
        exact hmove
      · rename_i hactive
        have hactive' : ¬ s.leasing.active = some i := hactive
        rw [if_neg hactive'] at hmove
        exact hmove
  · exact .same rfl

/-- `finish` leaves the leases alone; the report comes with its call. -/
theorem finish_leasing (clock : Clock) (token : Option (Token K)) (state : ReceiptState) :
    (Agent.finish c clock token state s).2.leasing = s.leasing := by
  unfold Agent.finish
  split
  · rfl
  · split
    · rfl
    · split
      · exact callFinish_leasing _ _ _
      · rfl

/-! ### The timer -/

/-- What the probe of the backend found is taken up by moves. -/
theorem found_moves (loaded : Bool) : Moves c s (s.found loaded) := by
  unfold Agent.found
  split
  · exact .single (.loaded s.leasing)
  · exact .same rfl

/-- Taking back the declaration is made of moves. -/
theorem undeclared_moves : Moves c s s.undeclared :=
  found_moves (s := { s with readinessLease := none }) false

/-- A heartbeat is made of moves. -/
theorem heartbeat_moves (clock : Clock) (nonce : String) :
    Moves c s (s.heartbeat c clock nonce) := by
  unfold Agent.heartbeat
  refine (expirePrepared_moves clock).trans ?_
  dsimp only
  split
  · exact .same rfl
  · split
    · split
      · exact .same rfl
      · exact undeclared_moves
    · exact undeclared_moves

/-- A tick of the timer is made of moves. -/
theorem fire_moves (clock : Clock) (nonce : String) : Moves c s (s.fire c clock nonce) := by
  unfold Agent.fire
  split
  · split
    · have hfinish := finishActive_leasing (s := s) .interrupted "execution_timeout"
      split
      · rename_i call s' hs'
        rw [hs'] at hfinish
        exact .same hfinish
      · rename_i s' hs'
        rw [hs'] at hfinish
        exact (Moves.same hfinish).trans (heartbeat_moves clock nonce)
    · exact heartbeat_moves clock nonce
  · exact .same rfl

/-- The answer to a request for readiness is taken up by moves. -/
theorem renewed_moves (clock : Clock) (answer : Agent.Answer K) :
    Moves c s (s.renewed c clock answer) := by
  unfold Agent.renewed
  split
  · split
    · split
      · exact found_moves (s := s.hold _ _ clock) _
      · exact undeclared_moves
    · exact undeclared_moves
  · exact undeclared_moves
  · exact .same rfl

/-- The answer of the backend is taken up by moves. -/
theorem probed_moves (models : Option (List String)) : Moves c s (s.probed c models) := by
  unfold Agent.probed
  split
  · exact found_moves _
  · exact .same rfl

/-- The answer to a heartbeat is taken up by moves. -/
theorem beat_moves (answer : Option Agent.BeatAnswer) : Moves c s (s.beat answer) := by
  unfold Agent.beat
  split
  · rename_i loaded r _
    dsimp only
    split
    · rename_i id _
      split
      · exact .same (callFinish_leasing (s := { s with
          ready := loaded && s.storageHealthy && r.desiredReady && r.stateReady }) id _ _)
      · exact .same rfl
    · exact .same rfl
  · exact .same rfl
  · exact .same rfl

/-- The end of a tick is made of moves. -/
theorem tickFinished_moves (clock : Clock) (nonce : String) :
    Moves c s (s.tickFinished c clock nonce) := by
  unfold Agent.tickFinished
  split
  · split
    · exact heartbeat_moves clock nonce
    · split <;> exact .same rfl
  · split
    · exact .same rfl
    · split <;> exact .same rfl
  · exact .same rfl

/-- The answer to a submission leaves the leases alone. -/
theorem outbox_leasing (ok : Bool) : (s.outbox ok).leasing = s.leasing := by
  unfold Agent.outbox
  split
  · split <;> rfl
  · rfl

/-- Stopping leaves the leases alone. -/
theorem stop_leasing : s.stop.leasing = s.leasing := by
  unfold Agent.stop
  split
  · rfl
  · exact finishActive_leasing (s := { s with stopped := true, ready := false }) _ _

/-! ### The refinement -/

/-- **Every step of the agent** is a sequence of moves of the lease machine, or the check of a
compute frame. -/
theorem step_moves (i : Input K) (s : Agent) : Steps c s (Agent.step c i s) := by
  cases i with
  | connect id => exact .inl (.same (connect_leasing id))
  | handshook => exact .inl (.same handshook_leasing)
  | frame command bytes => exact .inl (.same (frame_leasing command bytes))
  | drop => exact .inl (.same drop_leasing)
  | turn clock => exact turn_steps clock
  | io clock result => exact .inl (io_moves clock result)
  | guardFailed => exact .inl guardFailed_moves
  | guardEnded => exact .inl (.same guardEnded_leasing)
  | prepare clock token id => exact .inl (prepare_moves clock token id)
  | release clock token => exact .inl (release_moves clock token)
  | start clock token => exact .inl (start_moves clock token)
  | claimAnswered lease ok => exact .inl (claimAnswered_moves lease ok)
  | finish clock token state => exact .inl (.same (finish_leasing clock token state))
  | buildReceipt call clock => exact .inl (buildReceipt_moves call clock)
  | stored call ok => exact .inl (stored_moves call ok)
  | delivered call => exact .inl (delivered_moves call)
  | fire clock nonce => exact .inl (fire_moves clock nonce)
  | renewed clock answer => exact .inl (renewed_moves clock answer)
  | probed models => exact .inl (probed_moves models)
  | beat answer => exact .inl (beat_moves answer)
  | tickFinished clock nonce => exact .inl (tickFinished_moves clock nonce)
  | outbox ok => exact .inl (.same (outbox_leasing ok))
  | stop => exact .inl (.same stop_leasing)

/-! ### Heartbeats -/

/-- A step that leaves the timer's handler alone, and makes no stage ready. -/
def Rests (s s' : Agent) : Prop := s'.tick = s.tick ∧ (s'.ready = true → s.ready = true)

/-- An agent that is left alone rests. -/
theorem Rests.refl (s : Agent) : Rests s s := ⟨rfl, id⟩

/-- Finishing the active call lets what runs rest. -/
theorem finishActive_rests (state : ReceiptState) (code : String) :
    Rests s (s.finishActive state code).2 := by
  unfold Agent.finishActive
  split <;> exact .refl _

/-- Taking a call for a session lets what runs rest. -/
theorem take_rests (call : Nat) (id : SessionId) : Rests s (s.take call id) := by
  unfold Agent.take
  split
  · split <;> exact .refl _
  · exact .refl _

/-- Metering lets what runs rest. -/
theorem meter_rests (h : Holder) (f : Metered → Metered) : Rests s (s.meter h f) := by
  cases h <;> exact .refl _

/-- Counting a computation lets what runs rest. -/
theorem compute_rests (clock : Clock) (f : ComputeFrame) (bytes : List UInt8) :
    Rests s (s.compute clock f bytes) := by
  unfold Agent.compute
  split
  · split
    · exact .refl _
    · split
      · exact .refl _
      · exact meter_rests f.holder _
  · exact .refl _
  · split <;> exact .refl _
  · split
    · exact .refl _
    · exact meter_rests f.holder _
  · exact .refl _
  · split
    · exact .refl _
    · split <;> exact .refl _
  · split
    · exact .refl _
    · rename_i size _ _
      have hhash : Rests s (s.hash f.holder (Agent.barrier ++ size ++ bytes)) :=
        meter_rests f.holder _
      have hcount : Rests s ((s.hash f.holder (Agent.barrier ++ size ++ bytes)).count f) := by
        obtain ⟨htick, hready⟩ := meter_rests (s := s.hash f.holder (Agent.barrier ++ size ++ bytes))
          f.holder fun m => { m with
            requestBytes := m.requestBytes + (f.bytes + 9 + 13)
            responseBytes := m.responseBytes + 24
            completedCommands := m.completedCommands + 1 }
        exact ⟨htick.trans hhash.1, fun h => hhash.2 (hready h)⟩
      dsimp only
      split
      · split <;> exact hcount
      · exact hcount

/-- The start of a frame lets what runs rest. -/
theorem beginFrame_rests (clock : Clock) (command bytes : Nat) :
    Rests s (s.beginFrame clock command bytes) := by
  unfold Agent.beginFrame
  split
  · split
    · split
      · split <;> exact .refl _
      · exact .refl _
    · exact .refl _
  · exact .refl _

/-- The input is of the timer's handler. -/
def Input.ofTimer : Input K → Bool
  | .fire _ _ | .renewed _ _ | .probed _ | .beat _ | .tickFinished _ _ | .outbox _ => true
  | _ => false

/-- What is not of the timer's handler leaves it alone.

**Proof sketch.** One case for each input that is not of the timer. None of them writes the tick,
and those that write whether the stage is ready clear it. -/
theorem step_rests {i : Input K} (h : i.ofTimer = false) : Rests s (Agent.step c i s) := by
  cases i with
  | connect id =>
    show Rests s (s.connect id)
    unfold Agent.connect
    split <;> exact .refl _
  | handshook =>
    show Rests s s.handshook
    unfold Agent.handshook
    split <;> exact .refl _
  | frame command bytes =>
    show Rests s (s.frame command bytes)
    unfold Agent.frame
    split
    · split <;> exact .refl _
    · exact .refl _
  | drop =>
    show Rests s s.drop
    unfold Agent.drop
    split <;> exact .refl _
  | turn clock =>
    show Rests s (s.turn clock)
    unfold Agent.turn
    split
    · exact beginFrame_rests (s := { s with queue := _ }) _ _ _
    · split
      · exact take_rests (s := { s with queue := _ }) _ _
      · exact .refl _
    · exact .refl _
  | io clock result =>
    show Rests s (s.io clock result)
    unfold Agent.io
    split
    · exact compute_rests _ _ _
    · exact .refl _
    · exact .refl _
    · exact .refl _
  | guardFailed =>
    show Rests s s.guardFailed
    unfold Agent.guardFailed
    split
    · have hfinish := finishActive_rests
        (s := { s with ready := false, prepared := none, readinessLease := none }) .failed
        "rpc_link_failed"
      dsimp only
      split
      · rename_i call s' hs'
        rw [hs'] at hfinish
        exact ⟨hfinish.1, fun hready => absurd (hfinish.2 hready) (by simp)⟩
      · rename_i s' hs'
        rw [hs'] at hfinish
        exact ⟨hfinish.1, fun hready => absurd (hfinish.2 hready) (by simp)⟩
    · exact .refl _
  | guardEnded =>
    show Rests s s.guardEnded
    unfold Agent.guardEnded
    split
    · split <;> exact .refl _
    · exact .refl _
  | prepare clock token id =>
    show Rests s (Agent.prepare c clock token id s).2
    unfold Agent.prepare
    split
    · exact .refl _
    · dsimp only
      split
      · split
        · split <;> exact .refl _
        · exact .refl _
      · exact .refl _
  | release clock token =>
    show Rests s (Agent.release c clock token s).2
    unfold Agent.release
    split <;> exact .refl _
  | start clock token =>
    show Rests s (Agent.start c clock token s).2
    unfold Agent.start
    split
    · exact .refl _
    · split
      · split <;> exact .refl _
      · exact .refl _
  | claimAnswered lease ok =>
    show Rests s (s.claimAnswered lease ok)
    unfold Agent.claimAnswered
    split
    · dsimp only
      split
      · exact .refl _
      · split <;> exact .refl _
    · exact .refl _
  | finish clock token state =>
    show Rests s (Agent.finish c clock token state s).2
    unfold Agent.finish
    split
    · exact .refl _
    · split
      · exact .refl _
      · split <;> exact .refl _
  | buildReceipt call clock =>
    show Rests s (s.buildReceipt c call clock)
    unfold Agent.buildReceipt
    split
    · split
      · split <;> exact .refl _
      · exact .refl _
    · exact .refl _
  | stored call ok =>
    show Rests s (s.stored call ok)
    unfold Agent.stored
    split
    · split
      · exact .refl _
      · exact ⟨rfl, fun hready => absurd hready (by simp)⟩
    · exact .refl _
  | delivered call =>
    show Rests s (s.delivered call)
    unfold Agent.delivered
    split <;> exact .refl _
  | stop =>
    show Rests s s.stop
    unfold Agent.stop
    split
    · exact .refl _
    · have hfinish := finishActive_rests (s := { s with stopped := true, ready := false })
        .interrupted "operator_shutdown"
      exact ⟨hfinish.1, fun hready => absurd (hfinish.2 hready) (by simp)⟩
  | fire | renewed | probed | beat | tickFinished | outbox => cases h

/-- A backend that was found loaded is in the record. -/
structure Heard (s : Agent) : Prop where
  ready : s.ready = true → .loaded ∈ s.events
  posting : s.tick = .posting true → .loaded ∈ s.events

/-- What the probe found keeps what the agent heard. -/
theorem Heard.found (h : Heard s) (loaded : Bool) : Heard (s.found loaded) := by
  unfold Agent.found
  split
  · exact ⟨fun _ => by simp, fun _ => by simp⟩
  · exact ⟨h.ready, fun htick => absurd htick (by simp)⟩

/-- A heartbeat keeps what the agent heard. -/
theorem Heard.heartbeat (h : Heard s) (clock : Clock) (nonce : String) :
    Heard (s.heartbeat c clock nonce) := by
  have hundeclared : Heard (s.expirePrepared clock).undeclared :=
    Heard.found (s := { s.expirePrepared clock with readinessLease := none }) ⟨h.ready, h.posting⟩
      false
  unfold Agent.heartbeat
  dsimp only
  split
  · exact ⟨h.ready, fun htick => absurd htick (by simp)⟩
  · split
    · split
      · exact ⟨h.ready, fun htick => absurd htick (by simp)⟩
      · exact hundeclared
    · exact hundeclared

/-- An input of the timer keeps what the agent heard.

**Proof sketch.** By the input. A backend that a probe finds loaded is recorded before the tick
posts it, and readiness is set by the answer to such a posting only. Every other end of a tick is
none that posts, and leaves readiness or clears it. -/
theorem Heard.timer (h : Heard s) {i : Input K} (hi : i.ofTimer = true) :
    Heard (Agent.step c i s) := by
  have hidle : ∀ tick, tick ≠ .posting true → Heard { s with tick } :=
    fun tick htick => ⟨h.ready, fun hposting => absurd hposting htick⟩
  have hfailed : Heard s.tickFailed :=
    ⟨fun hready => absurd hready (by simp [Agent.tickFailed]),
      fun htick => absurd htick (by simp [Agent.tickFailed])⟩
  have hundeclared : Heard s.undeclared :=
    Heard.found (s := { s with readinessLease := none }) ⟨h.ready, h.posting⟩ false
  cases i with
  | fire clock nonce =>
    show Heard (s.fire c clock nonce)
    unfold Agent.fire
    split
    · split
      · have hfinish := finishActive_rests (s := s) .interrupted "execution_timeout"
        have hevents : (s.finishActive .interrupted "execution_timeout").2.events = s.events := by
          unfold Agent.finishActive
          split <;> rfl
        split
        · rename_i call s' hs'
          rw [hs'] at hfinish hevents
          refine ⟨fun hready => ?_, fun htick => absurd htick (by simp)⟩
          show Event.loaded ∈ s'.events
          rw [hevents]
          exact h.ready (hfinish.2 hready)
        · rename_i s' hs'
          rw [hs'] at hfinish hevents
          refine Heard.heartbeat ⟨fun hready => ?_, fun htick => ?_⟩ clock nonce
          · rw [hevents]
            exact h.ready (hfinish.2 hready)
          · rw [hevents]
            exact h.posting (hfinish.1 ▸ htick)
      · exact h.heartbeat clock nonce
    · exact h
  | renewed clock answer =>
    show Heard (s.renewed c clock answer)
    unfold Agent.renewed
    split
    · split
      · split
        · exact Heard.found (s := s.hold _ _ clock) ⟨h.ready, h.posting⟩ _
        · exact hundeclared
      · exact hundeclared
    · exact hundeclared
    · exact h
  | probed models =>
    show Heard (s.probed c models)
    unfold Agent.probed
    split
    · exact h.found _
    · exact h
  | beat answer =>
    show Heard (s.beat answer)
    unfold Agent.beat
    split
    · rename_i loaded r htick
      have hready : (loaded && s.storageHealthy && r.desiredReady && r.stateReady) = true →
          .loaded ∈ s.events := by
        intro hready
        simp only [Bool.and_eq_true] at hready
        refine h.posting ?_
        rw [htick, hready.1.1.1]
      dsimp only
      split
      · split
        · exact ⟨hready, fun htick => absurd htick (by simp)⟩
        · exact ⟨hready, fun htick => absurd htick (by simp)⟩
      · exact ⟨hready, fun htick => absurd htick (by simp)⟩
    · exact hfailed
    · exact h
  | tickFinished clock nonce =>
    show Heard (s.tickFinished c clock nonce)
    unfold Agent.tickFinished
    split
    · split
      · exact h.heartbeat clock nonce
      · split
        · exact hfailed
        · exact h
    · split
      · exact hidle .delivering (by simp)
      · split
        · exact hfailed
        · exact h
    · exact h
  | outbox ok =>
    show Heard (s.outbox ok)
    unfold Agent.outbox
    split
    · split
      · exact hidle .idle (by simp)
      · exact hfailed
    · exact h
  | _ => cases hi

/-! ### The invariant -/

/-- Who the agent would count a compute frame to: the lease that is active and claimed, or the
startup budget while no lease is active and the backend was never found loaded. -/
def Agent.Admits (s : Agent) : Holder → Prop
  | .lease i => s.active = some i ∧ ∃ l, s.leases[i]? = some l ∧ l.claimed = true ∧ l.cancelled = false
  | .startup => s.active = none ∧ .loaded ∉ s.events

/-- What every step keeps. -/
structure Kept (c : Config K) (s : Agent) : Prop where
  sound : s.leasing.Sound c.sha256
  heard : Heard s
  budget : s.startup.maxCommands = some c.startupBudget ∧ s.startup.maxBytes = some (256 * 1024 ^ 2)

/-- No move changes the limits of the startup budget. -/
theorem Leasing.Move.budget {sha256 : List UInt8 → String} {m m' : Leasing}
    (h : Move sha256 m m') : m'.startup.maxCommands = m.startup.maxCommands ∧
      m'.startup.maxBytes = m.startup.maxBytes := by
  cases h with
  | hash h n bytes hframe => cases h <;> exact ⟨rfl, rfl⟩
  | count h n hframe => cases h <;> exact ⟨rfl, rfl⟩
  | _ => exact ⟨rfl, rfl⟩

/-- A new agent keeps its discipline. -/
theorem initial_kept (c : Config K) (epoch : Nat) (clock : Clock) :
    Kept c (Agent.initial c epoch clock) where
  sound := by
    have hmetered : ∀ h l, (Agent.initial c epoch clock).leasing.metered h = some l →
        h = .startup ∧ l = (Agent.initial c epoch clock).startup := by
      intro h l hl
      cases h with
      | startup => exact ⟨rfl, (Option.some.inj hl).symm⟩
      | lease i => exact absurd hl (by simp [Leasing.metered, Agent.leasing, Agent.initial])
    constructor
    · exact ⟨fun _ => rfl, fun _ h => absurd h (by simp [Agent.leasing, Agent.initial]),
        fun _ _ h => absurd h (by simp [Agent.leasing, Agent.initial]), List.nodup_nil,
        fun _ h => absurd h List.not_mem_nil,
        fun _ _ h => absurd h (by simp [Agent.leasing, Agent.initial])⟩
    · refine ⟨fun h l hl => ?_, fun _ _ _ h => absurd h (by simp [Agent.leasing, Agent.initial]),
        fun h l hl => ?_, fun _ _ => rfl,
        fun _ _ h => absurd h (by simp [Agent.leasing, Agent.initial])⟩
      · obtain ⟨-, rfl⟩ := hmetered h l hl
        exact ⟨Nat.zero_le _, Nat.zero_le _, rfl⟩
      · obtain ⟨-, rfl⟩ := hmetered h l hl
        exact ⟨rfl, rfl, rfl⟩
    · exact ⟨fun _ => Nat.zero_le _, fun _ h => absurd h (lt_irrefl 0),
        fun _ _ h => absurd h List.not_mem_nil, .nil⟩
    · exact ⟨fun h => absurd h List.not_mem_nil, .nil⟩
    · exact ⟨fun _ _ h => absurd h (by simp [Agent.leasing, Agent.initial]), .nil⟩
  heard := ⟨fun h => absurd h (by simp [Agent.initial]), fun h => absurd h (by simp [Agent.initial])⟩
  budget := ⟨rfl, rfl⟩

/-- The record of a step: it only grows, and a frame that was checked had a holder. -/
theorem step_events (hs : s.leasing.Sound c.sha256) (i : Input K) :
    ∃ new, (Agent.step c i s).events = s.events ++ new ∧ ∀ h, .checked h ∈ new → s.Admits h := by
  rcases step_moves i s with hmoves | ⟨h, l, clock, bytes, hcheck⟩
  · have hunchecked : Unchecked s.events (Agent.step c i s).events :=
      Star.within (R := Leasing.Move c.sha256) (Q := fun m m' => Unchecked m.events m'.events)
        (fun _ => .refl _) (fun _ _ _ h hm => h.trans hm.unchecked) hmoves
    obtain ⟨new, hnew, hno⟩ := hunchecked
    exact ⟨new, hnew, fun h hmem => absurd hmem (hno h)⟩
  · obtain ⟨-, hholder, hl, hadmissible, hafter⟩ := hcheck
    refine ⟨[.checked h], congrArg Leasing.events hafter, fun h' hmem => ?_⟩
    obtain rfl := Event.checked.inj (List.mem_singleton.1 hmem)
    rcases holder_cases hholder with ⟨i, rfl, hactive⟩ | ⟨rfl, hactive, hopen⟩
    · rw [metered_leasing] at hl
      obtain ⟨lease, hlease, rfl⟩ := Option.map_eq_some_iff.1 hl
      exact ⟨hactive, lease, hlease, hadmissible.1.1, hadmissible.1.2.2⟩
    · refine ⟨hactive, fun hloaded => ?_⟩
      have hclosed := hs.closed.closed hloaded
      rw [hopen] at hclosed
      cases hclosed

/-- **One input** keeps what an agent keeps. -/
theorem Kept.step (h : Kept c s) (i : Input K) : Kept c (Agent.step c i s) := by
  obtain ⟨hsound, hheard, hbudget⟩ := h
  refine ⟨?_, ?_, ?_⟩
  · rcases step_moves i s with hmoves | ⟨_, _, _, _, hcheck⟩
    · exact hmoves.preserves (fun _ _ hm hs => hm.sound hs) hsound
    · exact hcheck.sound hsound
  · cases hi : i.ofTimer with
    | true => exact hheard.timer hi
    | false =>
      obtain ⟨htick, hready⟩ := step_rests (c := c) (s := s) hi
      obtain ⟨new, hnew, -⟩ := step_events hsound i
      refine ⟨fun hyes => ?_, fun hposting => ?_⟩
      · rw [hnew]
        exact List.mem_append_left _ (hheard.ready (hready hyes))
      · rw [hnew]
        exact List.mem_append_left _ (hheard.posting (htick ▸ hposting))
  · rcases step_moves i s with hmoves | ⟨_, _, _, _, hcheck⟩
    · have hsame := Star.within (R := Leasing.Move c.sha256)
        (Q := fun m m' => m'.startup.maxCommands = m.startup.maxCommands ∧
          m'.startup.maxBytes = m.startup.maxBytes) (fun _ => ⟨rfl, rfl⟩)
        (fun _ _ _ h hm => ⟨hm.budget.1.trans h.1, hm.budget.2.trans h.2⟩) hmoves
      exact ⟨hsame.1.trans hbudget.1, hsame.2.trans hbudget.2⟩
    · have hsame : (Agent.step c i s).startup = s.startup := congrArg Leasing.startup hcheck.after
      rw [hsame]
      exact hbudget

/-- **A run** keeps what an agent keeps. -/
theorem Kept.run (h : Kept c s) (inputs : List (Input K)) :
    Kept c ((stageSystem c).run s inputs) := by
  induction inputs generalizing s with
  | nil => exact h
  | cons i inputs ih => exact ih (h.step i)

/-! ### The leases of an agent -/

/-- What holds of the leases of an agent. -/
structure Discipline (c : Config K) (s : Agent) : Prop where
  /-- A preparation excludes an active lease. -/
  exclusive : ¬ (s.prepared.isSome ∧ s.active.isSome)
  /-- A lease that is claimed and was not taken away is the active one. -/
  single : ∀ i l, s.leases[i]? = some l → l.claimed = true → l.cancelled = false →
    s.active = some i
  /-- A lease has at most one receipt. -/
  once : ∀ i, receipts i s.events ≤ 1
  /-- A receipt has the numbers and the transcript of its lease, which are those of the frames
  counted to it. -/
  reported : ∀ i r, .receipt i r ∈ s.events → ∃ l, s.leases[i]? = some l ∧
    Reports c.sha256 r l.toMetered ∧ Tallies l.toMetered (countedTo (.lease i) s.events)
  /-- Nothing of a lease is checked, passed, counted or reported after its receipt. -/
  final : Log.Each (fun before e => ∀ i r, .receipt i r ∈ before → e.holder ≠ some (.lease i))
    s.events
  /-- A lease is within its limits. -/
  limits : ∀ (i : Nat) (l : Lease), s.leases[i]? = some l → l.completedCommands ≤ 1000000 ∧
    l.requestBytes ≤ maxSessionBytes ∧ l.responseBytes ≤ 24 * 1000000
  /-- The startup budget is within its limits. -/
  budget : s.startup.completedCommands ≤ c.startupBudget ∧ s.startup.requestBytes ≤ 256 * 1024 ^ 2 ∧
    s.startup.responseBytes ≤ 24 * c.startupBudget
  /-- What is passed or counted belongs to the compute frame that was checked last. -/
  framed : Log.Each (fun before e => ∀ h, e.ofFrame = some h →
    Log.LastMark Event.Marks (· = .checked h) before) s.events
  /-- A compute frame that is checked next is for the lease that is active and claimed then, or
  for the startup budget before the backend was ever found loaded. -/
  admitted : ∀ i : Input K, ∃ new, (Agent.step c i s).events = s.events ++ new ∧
    ∀ h, .checked h ∈ new → s.Admits h
  /-- The startup budget admits no frame once the backend was found loaded. -/
  startup : Log.Each (fun before e => .loaded ∈ before → e ≠ .checked .startup) s.events
  /-- The stage is ready only after its backend was found loaded. -/
  ready : s.ready = true → .loaded ∈ s.events

/-- What an agent keeps is the discipline of its leases. -/
theorem Kept.discipline (h : Kept c s) : Discipline c s := by
  obtain ⟨⟨halive, hcounts, hreported, hclosed, hframed⟩, hheard, hcommands, hbytes⟩ := h
  have hlease : ∀ {i : Nat} {l : Lease}, s.leases[i]? = some l →
      s.leasing.leases[i]? = some l.toMetered := by
    intro i l hl
    show (s.leases.map (·.toMetered))[i]? = some l.toMetered
    rw [List.getElem?_map, hl]
    rfl
  refine ⟨fun ⟨hprepared, hactive⟩ => ?_, fun i l hl hclaimed hcancelled => ?_, fun i => ?_,
    fun i r hr => ?_, hreported.final, fun i l hl => ?_, ?_, hframed.each, fun i => ?_,
    hclosed.each, hheard.ready⟩
  · have hnone : s.active = none := halive.prepared hprepared
    rw [hnone] at hactive
    cases hactive
  · exact halive.alive i l.toMetered (hlease hl) hcancelled (.inl hclaimed)
  · have honce := hreported.once i
    exact le_trans (Nat.le_add_left _ _) honce
  · obtain ⟨m, hm, hreports⟩ := hreported.reports i r hr
    have hm' : (s.leases.map (·.toMetered))[i]? = some m := hm
    rw [List.getElem?_map] at hm'
    obtain ⟨l, hl, rfl⟩ := Option.map_eq_some_iff.1 hm'
    exact ⟨l, hl, hreports, hcounts.tallies (.lease i) l.toMetered hm⟩
  · obtain ⟨hmax, hmaxBytes⟩ := hcounts.plain i l.toMetered (hlease hl)
    obtain ⟨hcompleted, hrequests, hresponses⟩ := hcounts.within (.lease i) l.toMetered (hlease hl)
    rw [hmax, Option.getD_none] at hcompleted
    rw [hmaxBytes, Option.getD_none] at hrequests
    exact ⟨hcompleted, hrequests, by omega⟩
  · obtain ⟨hcompleted, hrequests, hresponses⟩ := hcounts.within .startup s.startup rfl
    rw [hcommands, Option.getD_some] at hcompleted
    rw [hbytes, Option.getD_some] at hrequests
    exact ⟨hcompleted, hrequests, by omega⟩
  · exact step_events ⟨halive, hcounts, hreported, hclosed, hframed⟩ i

/-- **The leases of a stage agent** are disciplined after every run, in any order of the steps of
its handlers.

**Proof sketch.** Each input is a number of moves of the leases and of the frames, and each move
keeps the invariants: which lease is alive, what was counted, what was reported, which frames were
closed and what the agent has heard. The discipline is read off them in the state that the run ends
in. -/
theorem lease_discipline (c : Config K) (epoch : Nat) (clock : Clock) (inputs : List (Input K)) :
    Discipline c ((stageSystem c).run (Agent.initial c epoch clock) inputs) :=
  ((initial_kept c epoch clock).run inputs).discipline

end NetworkAi.Stage
