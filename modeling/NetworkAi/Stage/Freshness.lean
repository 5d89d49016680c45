import Mathlib.Tactic.Linarith
import NetworkAi.Stage.Agent
import NetworkAi.Stage.Agreement

set_option relaxedAutoImplicit false
set_option autoImplicit false

/-!
# Readiness across runs

A stage agent of the mode `coordinator_route_lease`, the coordinator that declares it ready, and a
network that may delay, repeat, reorder and invent answers. Whenever the agent takes itself for
ready, the declaration that it holds was written by the coordinator after the agent asked over the
connection that is live now, and is in force on both of the agent's clocks.

## Main definitions

* `NetworkAi.Stage.Happens` — the runs of an agent and the coordinator, with what happened.

## Main results

* `NetworkAi.Stage.readiness_fresh` — a ready agent holds a fresh declaration.
-/

namespace NetworkAi.Stage

variable {K : Signing} {c : Config K} {s s' : Agent}

/-! ### What happens -/

/-- A declaration with the registry and the transaction that it was written in. -/
structure Declaration where
  registry : Registry
  tx : Tx
  id : NodeId
  data : StageReadiness
  payload : ReadinessPayload
  written : readinessPayload registry tx id data = .ok (some payload)

/-- A step of the agent, or of the coordinator. -/
inductive Happening (K : Signing) where
  | input (i : Input K)
  | declared (d : Declaration)

/-- The nonce that a heartbeat asks with. -/
def Input.nonce? : Input K → Option String
  | .fire _ nonce | .tickFinished _ nonce => some nonce
  | _ => none

/-- What the agent is promised of its inputs: a nonce is in no declaration written before it was
drawn, and a text that verifies under the coordinator's key, with the header of a declaration, was
written by the coordinator. -/
def Genuine (h : List (Happening K)) : Input K → Prop
  | .fire _ nonce | .tickFinished _ nonce => ∀ d, .declared d ∈ h → d.data.requestNonce ≠ nonce
  | .renewed _ (.ready (some token)) =>
    K.verify token.text token.signature = true → K.header token.text = some readinessHeader →
      ∃ d, .declared d ∈ h ∧ token.text = K.write readinessHeader d.payload
  | _ => True

/-- The runs of an agent and the coordinator, with what happened, oldest first. -/
inductive Happens (c : Config K) : Agent → List (Happening K) → Prop where
  | start (epoch : Nat) (clock : Clock) (h : 0 < epoch) : Happens c (.initial c epoch clock) []
  | declared {s : Agent} {h : List (Happening K)} (d : Declaration) (hs : Happens c s h) :
    Happens c s (h ++ [.declared d])
  | input {s : Agent} {h : List (Happening K)} (i : Input K) (hs : Happens c s h)
    (hi : Genuine h i) : Happens c (Agent.step c i s) (h ++ [.input i])

/-! ### Steps that do not concern readiness -/

/-- A step that makes no connection, asks for no declaration and holds none. -/
structure Quiet (s s' : Agent) : Prop where
  epoch : s'.epoch = s.epoch
  connection : ∀ id, s'.liveRpc.map (·.id) = some id → s.liveRpc.map (·.id) = some id
  lease : ∀ l, s'.readinessLease = some l → s.readinessLease = some l
  tick : ∀ serial generation nonce,
    s'.tick = .renewing serial generation nonce → s.tick = .renewing serial generation nonce

/-- Nothing that happened is quiet. -/
theorem Quiet.refl (s : Agent) : Quiet s s := ⟨rfl, fun _ => id, fun _ => id, fun _ _ _ => id⟩

/-- Two quiet changes are a quiet one. -/
theorem Quiet.trans {s'' : Agent} (h : Quiet s s') (h' : Quiet s' s'') : Quiet s s'' where
  epoch := h'.epoch.trans h.epoch
  connection id hid := h.connection id (h'.connection id hid)
  lease l hl := h.lease l (h'.lease l hl)
  tick serial generation nonce ht := h.tick serial generation nonce (h'.tick _ _ _ ht)

/-- A step that leaves the four variables as they are. -/
theorem Quiet.of_eq (he : s'.epoch = s.epoch) (hr : s'.liveRpc.map (·.id) = s.liveRpc.map (·.id))
    (hl : s'.readinessLease = s.readinessLease) (ht : s'.tick = s.tick) : Quiet s s' :=
  ⟨he, fun _ h => hr ▸ h, fun _ h => hl ▸ h, fun _ _ _ h => ht ▸ h⟩

/-- A step that leaves the first three variables as they are, and waits for no declaration. -/
theorem Quiet.of_tick (he : s'.epoch = s.epoch) (hr : s'.liveRpc.map (·.id) = s.liveRpc.map (·.id))
    (hl : s'.readinessLease = s.readinessLease)
    (ht : ∀ serial generation nonce, s'.tick ≠ .renewing serial generation nonce) : Quiet s s' :=
  ⟨he, fun _ h => hr ▸ h, fun _ h => hl ▸ h, fun _ _ _ h => absurd h (ht _ _ _)⟩

/-- Exchanging the guard is quiet. -/
theorem setGuard_quiet (guard : Guard) : Quiet s (s.setGuard guard) :=
  .of_eq rfl (by simp [Agent.setGuard, Function.comp_def]) rfl rfl

/-- Finishing the active lease is quiet. -/
theorem finishActive_quiet (state : ReceiptState) (code : String) :
    Quiet s (s.finishActive state code).2 := by
  unfold Agent.finishActive
  split
  · exact .of_eq rfl rfl rfl rfl
  · exact .refl _

/-- Taking a call for a session is quiet. -/
theorem take_quiet (call : Nat) (id : SessionId) : Quiet s (s.take call id) := by
  unfold Agent.take
  split
  · split <;> exact .of_eq rfl rfl rfl rfl
  · exact .of_eq rfl rfl rfl rfl

/-- Metering a lease is quiet. -/
theorem meter_quiet (h : Holder) (f : Metered → Metered) : Quiet s (s.meter h f) := by
  cases h <;> exact .of_eq rfl rfl rfl rfl

/-- The end of a frame is quiet. -/
theorem frameDone_quiet : Quiet s s.frameDone :=
  (setGuard_quiet .reading).trans (.of_eq rfl rfl rfl rfl)

/-- A failed frame is quiet. -/
theorem frameFailed_quiet : Quiet s s.frameFailed :=
  (setGuard_quiet .failed).trans (.of_eq rfl rfl rfl rfl)

/-- Counting a computation is quiet. -/
theorem compute_quiet (clock : Clock) (f : ComputeFrame) (bytes : List UInt8) :
    Quiet s (s.compute clock f bytes) := by
  unfold Agent.compute
  split
  · split
    · exact .refl _
    · split
      · exact frameFailed_quiet
      · exact (meter_quiet f.holder _).trans (.of_eq rfl rfl rfl rfl)
  · exact .of_eq rfl rfl rfl rfl
  · split <;> exact .of_eq rfl rfl rfl rfl
  · split
    · exact .refl _
    · exact (meter_quiet f.holder _).trans (.of_eq rfl rfl rfl rfl)
  · exact .of_eq rfl rfl rfl rfl
  · split
    · exact .refl _
    · split
      · exact .of_eq rfl rfl rfl rfl
      · exact frameFailed_quiet
  · rename_i size _
    split
    · exact .refl _
    · have hcount : Quiet s ((s.hash f.holder (Agent.barrier ++ size ++ bytes)).count f) :=
        (meter_quiet f.holder _).trans ((meter_quiet f.holder _).trans (.of_eq rfl rfl rfl rfl))
      dsimp only
      split
      · split
        · exact hcount.trans frameDone_quiet
        · exact hcount.trans frameFailed_quiet
      · exact hcount.trans frameFailed_quiet

/-- The start of a frame is quiet. -/
theorem beginFrame_quiet (clock : Clock) (command bytes : Nat) :
    Quiet s (s.beginFrame clock command bytes) := by
  unfold Agent.beginFrame
  split
  · split
    · split
      · split
        · exact .of_eq rfl rfl rfl rfl
        · exact frameFailed_quiet
      · exact frameFailed_quiet
    · exact frameFailed_quiet
  · exact .of_eq rfl rfl rfl rfl

/-- A turn of the guard is quiet. -/
theorem turn_quiet (clock : Clock) : Quiet s (s.turn clock) := by
  unfold Agent.turn
  split
  · refine Quiet.trans ?_ (beginFrame_quiet clock _ _)
    exact .of_eq rfl rfl rfl rfl
  · split
    · refine Quiet.trans ?_ (take_quiet _ _)
      exact .of_eq rfl rfl rfl rfl
    · exact .of_eq rfl rfl rfl rfl
  · exact .refl _

/-- A failed guard is quiet. -/
theorem guardFailed_quiet : Quiet s s.guardFailed := by
  unfold Agent.guardFailed
  split
  · have hdrop : Quiet s { s with ready := false, prepared := none, readinessLease := none } :=
      ⟨rfl, fun _ h => h, fun _ h => absurd h (by simp), fun _ _ _ h => h⟩
    have hfinish := hdrop.trans (finishActive_quiet .failed "rpc_link_failed")
    dsimp only
    split
    · rename_i hcall
      rw [hcall] at hfinish
      exact hfinish.trans (setGuard_quiet _)
    · rename_i hcall
      rw [hcall] at hfinish
      exact hfinish.trans (setGuard_quiet _)
  · exact .refl _

/-- A guard that has ended is quiet. -/
theorem guardEnded_quiet : Quiet s s.guardEnded := by
  unfold Agent.guardEnded
  split
  · split
    · exact ⟨rfl, fun _ h => absurd h (by simp), fun _ h => h, fun _ _ _ h => h⟩
    · exact .refl _
  · exact .refl _

/-- Dropping expired preparations is quiet. -/
theorem expirePrepared_quiet (clock : Clock) : Quiet s (s.expirePrepared clock) :=
  .of_eq rfl rfl rfl rfl

/-- Taking back the declaration is quiet. -/
theorem undeclared_quiet : Quiet s s.undeclared :=
  ⟨rfl, fun _ h => h, fun _ h => absurd h (by simp [Agent.undeclared, Agent.found]),
    fun _ _ _ h => absurd h (by simp [Agent.undeclared, Agent.found])⟩

/-- What the probe of the backend found is quiet. -/
theorem found_quiet (loaded : Bool) : Quiet s (s.found loaded) := by
  unfold Agent.found
  split <;> exact .of_tick rfl rfl rfl (by simp)

/-- A failed tick is quiet. -/
theorem tickFailed_quiet : Quiet s s.tickFailed := .of_tick rfl rfl rfl (by simp [Agent.tickFailed])

/-- The answer to a heartbeat is quiet. -/
theorem beat_quiet (answer : Option Agent.BeatAnswer) : Quiet s (s.beat answer) := by
  unfold Agent.beat
  split
  · dsimp only
    split
    · split
      · exact .of_tick rfl rfl rfl (by simp)
      · exact .of_tick rfl rfl rfl (by simp)
    · exact .of_tick rfl rfl rfl (by simp)
  · exact tickFailed_quiet
  · exact .refl _

/-- The inputs that make a connection, ask for a declaration or answer the question. -/
def Input.ofReadiness : Input K → Bool
  | .connect _ | .fire _ _ | .renewed _ _ | .tickFinished _ _ => true
  | _ => false

/-- Every other input leaves what concerns readiness alone.

**Proof sketch.** One case for each input. None of them makes a connection, accepts a declaration or
asks for one; at most it takes back what there was. The inputs that do are left out by the
hypothesis. -/
theorem step_quiet {i : Input K} (h : i.ofReadiness = false) : Quiet s (Agent.step c i s) := by
  cases i with
  | connect id => cases h
  | handshook =>
    show Quiet s s.handshook
    unfold Agent.handshook
    split
    · exact .of_eq rfl (by simp [Function.comp_def]) rfl rfl
    · exact .refl _
  | frame command bytes =>
    show Quiet s (s.frame command bytes)
    unfold Agent.frame
    split
    · split
      · exact (setGuard_quiet .framing).trans (.of_eq rfl rfl rfl rfl)
      · exact setGuard_quiet .failed
    · exact .refl _
  | drop =>
    show Quiet s s.drop
    unfold Agent.drop
    split
    · exact setGuard_quiet .failed
    · exact .refl _
  | turn clock => exact turn_quiet clock
  | io clock result =>
    show Quiet s (s.io clock result)
    unfold Agent.io
    split
    · exact compute_quiet clock _ _
    · exact frameDone_quiet
    · exact frameFailed_quiet
    · exact .refl _
  | guardFailed => exact guardFailed_quiet
  | guardEnded => exact guardEnded_quiet
  | prepare clock token id =>
    show Quiet s (Agent.prepare c clock token id s).2
    unfold Agent.prepare
    split
    · exact .refl _
    · dsimp only
      split
      · split
        · split <;> exact expirePrepared_quiet clock
        · exact (expirePrepared_quiet clock).trans (.of_eq rfl rfl rfl rfl)
      · exact expirePrepared_quiet clock
  | release clock token =>
    show Quiet s (Agent.release c clock token s).2
    unfold Agent.release
    split
    · exact .refl _
    · exact .of_eq rfl rfl rfl rfl
  | start clock token =>
    show Quiet s (Agent.start c clock token s).2
    unfold Agent.start
    split
    · exact .refl _
    · split
      · split
        · exact .of_eq rfl rfl rfl rfl
        · exact .refl _
      · exact .refl _
  | claimAnswered lease ok =>
    show Quiet s (s.claimAnswered lease ok)
    unfold Agent.claimAnswered
    split
    · dsimp only
      split
      · exact .of_eq rfl rfl rfl rfl
      · split <;> exact .of_eq rfl rfl rfl rfl
    · exact .refl _
  | finish clock token state =>
    show Quiet s (Agent.finish c clock token state s).2
    unfold Agent.finish
    split
    · exact .refl _
    · split
      · exact .refl _
      · split
        · exact .of_eq rfl rfl rfl rfl
        · exact .refl _
  | buildReceipt call clock =>
    show Quiet s (s.buildReceipt c call clock)
    unfold Agent.buildReceipt
    split
    · split
      · split
        · exact .of_eq rfl rfl rfl rfl
        · exact .refl _
      · exact .refl _
    · exact .refl _
  | stored call ok =>
    show Quiet s (s.stored call ok)
    unfold Agent.stored
    split
    · split <;> exact .of_eq rfl rfl rfl rfl
    · exact .refl _
  | delivered call =>
    show Quiet s (s.delivered call)
    unfold Agent.delivered
    split
    · exact .of_eq rfl rfl rfl rfl
    · exact .refl _
  | fire clock nonce => cases h
  | renewed clock answer => cases h
  | probed models =>
    show Quiet s (s.probed c models)
    unfold Agent.probed
    split
    · exact found_quiet _
    · exact .refl _
  | beat answer => exact beat_quiet answer
  | tickFinished clock nonce => cases h
  | outbox ok =>
    show Quiet s (s.outbox ok)
    unfold Agent.outbox
    split
    · split
      · exact .of_tick rfl rfl rfl (by simp)
      · exact tickFailed_quiet
    · exact .refl _
  | stop =>
    show Quiet s s.stop
    unfold Agent.stop
    split
    · exact .refl _
    · refine Quiet.trans ?_ (finishActive_quiet _ _)
      exact .of_eq rfl rfl rfl rfl

/-! ### What the agent has -/

/-- The connection was made, and a heartbeat then asked for a declaration over it. -/
def asks (generation : Nat) (i : Input K) : List (Happening K) :=
  [.input (.connect generation), .input i]

/-- A declaration was written, and then accepted. -/
def granted (d : Declaration) (clock : Clock) (answer : Agent.Answer K) : List (Happening K) :=
  [.declared d, .input (.renewed clock answer)]

/-- A request for a declaration: no declaration written before it has its nonce. -/
def Asked (h : List (Happening K)) (generation : Nat) (nonce : String) : Prop :=
  ∃ (before after : List (Happening K)) (i : Input K), h = before ++ after ∧
    i.nonce? = some nonce ∧ (asks generation i).Sublist before ∧
    ∀ d, .declared d ∈ before → d.data.requestNonce ≠ nonce

/-- A declaration was written after it was asked for over a connection, and then accepted. -/
def Granted (h : List (Happening K)) (binding : RpcBinding) (epoch : Nat) (l : ReadinessLease) :
    Prop :=
  ∃ (i : Input K) (nonce : String) (d : Declaration) (clock : Clock) (answer : Agent.Answer K),
    i.nonce? = some nonce ∧ (asks l.generation i ++ granted d clock answer).Sublist h ∧
    d.payload = l.value ∧ l.value.Answers ⟨binding, epoch, l.generation, nonce⟩ ∧
    l.value.InForce clock.date ∧ l.validUntil ≤ clock.performance + 4000

/-- What holds of an agent in every run. -/
structure Backed (binding : RpcBinding) (s : Agent) (h : List (Happening K)) : Prop where
  connected : ∀ id, s.liveRpc.map (·.id) = some id → .input (.connect id) ∈ h
  asked : ∀ serial generation nonce, s.tick = .renewing serial generation nonce →
    Asked h generation nonce
  granted : ∀ l, s.readinessLease = some l → Granted h binding s.epoch l

variable {binding : RpcBinding} {h : List (Happening K)}

/-- What was asked stays asked in a longer history. -/
theorem Asked.append {generation : Nat} {nonce : String} (ha : Asked h generation nonce)
    (h' : List (Happening K)) : Asked (h ++ h') generation nonce := by
  obtain ⟨before, after, i, rfl, hi, hsub, hfresh⟩ := ha
  exact ⟨before, after ++ h', i, by rw [List.append_assoc], hi, hsub, hfresh⟩

/-- What was granted stays granted in a longer history. -/
theorem Granted.append {epoch : Nat} {l : ReadinessLease} (hg : Granted h binding epoch l)
    (h' : List (Happening K)) : Granted (h ++ h') binding epoch l := by
  obtain ⟨i, nonce, d, clock, answer, hi, hsub, hd, hrest⟩ := hg
  exact ⟨i, nonce, d, clock, answer, hi, hsub.trans (List.sublist_append_left h h'), hd, hrest⟩

/-- Quiet steps keep what the agent has. -/
theorem Backed.quiet (hb : Backed binding s h) (hq : Quiet s s') (h' : List (Happening K)) :
    Backed binding s' (h ++ h') where
  connected id hid := List.mem_append_left h' (hb.connected id (hq.connection id hid))
  asked _ _ _ ht := (hb.asked _ _ _ (hq.tick _ _ _ ht)).append h'
  granted l hl := hq.epoch ▸ (hb.granted l (hq.lease l hl)).append h'

/-- A new connection keeps an agent backed by its history. -/
theorem Backed.connect (hb : Backed binding s h) (id : Nat) :
    Backed binding (s.connect id) (h ++ [.input (.connect id)]) := by
  unfold Agent.connect
  split
  · exact hb.quiet (.refl s) _
  · refine ⟨fun id' hid => ?_, fun serial generation nonce ht => ?_, fun l hl => ?_⟩
    · simp only [Option.map_some, Option.some.injEq] at hid
      subst hid
      exact List.mem_append_right h (List.mem_singleton_self _)
    · exact (hb.asked serial generation nonce ht).append _
    · simp at hl

/-- A heartbeat asks over the live connection, with a nonce that no declaration has. -/
theorem Backed.heartbeat (hb : Backed binding s h) (clock : Clock) {nonce : String} {i : Input K}
    (hi : i.nonce? = some nonce) (hfresh : ∀ d, .declared d ∈ h → d.data.requestNonce ≠ nonce) :
    Backed binding (s.heartbeat c clock nonce) (h ++ [.input i]) := by
  unfold Agent.heartbeat
  dsimp only
  split
  · refine hb.quiet ?_ _
    exact .of_tick rfl rfl rfl (by simp)
  · split
    · rename_i connection hconnection
      split
      · refine ⟨fun id hid => ?_, fun serial generation nonce' ht => ?_, fun l hl => ?_⟩
        · exact List.mem_append_left _ (hb.connected id hid)
        · simp only [Tick.renewing.injEq] at ht
          obtain ⟨-, rfl, rfl⟩ := ht
          have hmade : .input (.connect connection.id) ∈ h := by
            refine hb.connected _ ?_
            change s.liveRpc = some connection at hconnection
            rw [hconnection, Option.map_some]
          refine ⟨h ++ [.input i], [], i, (List.append_nil _).symm, hi, ?_, fun d hd => ?_⟩
          · exact (List.singleton_sublist.2 hmade).append (.refl [Happening.input i])
          · rw [List.mem_append, List.mem_singleton] at hd
            rcases hd with hd | hd
            · exact hfresh d hd
            · cases hd
        · exact (hb.granted l hl).append _
      · exact hb.quiet ((expirePrepared_quiet clock).trans undeclared_quiet) _
    · exact hb.quiet ((expirePrepared_quiet clock).trans undeclared_quiet) _

/-- A tick of the timer with a fresh nonce keeps an agent backed by its history. -/
theorem Backed.fire (hb : Backed binding s h) (clock : Clock) {nonce : String}
    (hfresh : ∀ d, .declared d ∈ h → d.data.requestNonce ≠ nonce) :
    Backed binding (s.fire c clock nonce) (h ++ [.input (.fire clock nonce)]) := by
  have hbeat := hb.heartbeat (c := c) clock (i := .fire clock nonce) rfl hfresh
  unfold Agent.fire
  split
  · split
    · have hfinish := finishActive_quiet (s := s) .interrupted "execution_timeout"
      split
      · rename_i hcall
        rw [hcall] at hfinish
        refine hb.quiet (hfinish.trans ?_) _
        exact .of_tick rfl rfl rfl (by simp)
      · rename_i hcall
        rw [hcall] at hfinish
        have hb' := hb.quiet hfinish []
        rw [List.append_nil] at hb'
        exact hb'.heartbeat clock rfl hfresh
    · exact hbeat
  · exact hb.quiet (.refl s) _

/-- The end of a tick with a fresh nonce keeps an agent backed by its history. -/
theorem Backed.tickFinished (hb : Backed binding s h) (clock : Clock) {nonce : String}
    (hfresh : ∀ d, .declared d ∈ h → d.data.requestNonce ≠ nonce) :
    Backed binding (s.tickFinished c clock nonce) (h ++ [.input (.tickFinished clock nonce)]) := by
  unfold Agent.tickFinished
  split
  · split
    · exact hb.heartbeat clock rfl hfresh
    · split
      · exact hb.quiet tickFailed_quiet _
      · exact hb.quiet (.refl s) _
  · split
    · refine hb.quiet ?_ _
      exact .of_tick rfl rfl rfl (by simp)
    · split
      · exact hb.quiet tickFailed_quiet _
      · exact hb.quiet (.refl s) _
  · exact hb.quiet (.refl s) _

/-- What a text that the contributor accepts says. -/
theorem verifyReadiness_ok {token : Option (Token K)} {e : Expected} {nowMs : Int}
    {value : ReadinessPayload} (h : verifyReadiness K token e nowMs = .ok value) :
    ∃ t, token = some t ∧ K.verify t.text t.signature = true ∧
      K.header t.text = some readinessHeader ∧ K.payload t.text = some value ∧ value.Valid ∧
      value.Answers e ∧ value.InForce nowMs := by
  simp only [verifyReadiness, Checked.bind_ok, Checked.guard_ok, Checked.require_ok] at h
  obtain ⟨t, ht, -, -, -, hverify, ⟨alg, typ, v⟩, hheader, -, hliterals, _, hpayload, -, hvalue, -,
    ⟨hanswers, hforce⟩, hq⟩ := h
  rw [Checked.pure_ok] at hq
  subst hq
  obtain ⟨rfl, rfl, rfl⟩ := hliterals
  exact ⟨t, ht, hverify, hheader, hpayload, hvalue, hanswers, hforce⟩

/-- A declaration with the nonce of a request was written after the request. -/
theorem Asked.sublist {generation : Nat} {nonce : String} (ha : Asked h generation nonce)
    {d : Declaration} (hd : .declared d ∈ h) (hnonce : d.data.requestNonce = nonce) (clock : Clock)
    (answer : Agent.Answer K) : ∃ i : Input K, i.nonce? = some nonce ∧
      (asks generation i ++ granted d clock answer).Sublist
        (h ++ [.input (.renewed clock answer)]) := by
  obtain ⟨before, after, i, rfl, hi, hsub, hfresh⟩ := ha
  refine ⟨i, hi, ?_⟩
  have hafter : .declared d ∈ after := by
    rcases List.mem_append.1 hd with hd | hd
    · exact absurd hnonce (hfresh d hd)
    · exact hd
  rw [List.append_assoc]
  exact hsub.append ((List.singleton_sublist.2 hafter).append (.refl [_]))

/-- A genuine answer to a request for readiness keeps an agent backed by its history.

**Proof sketch.** The token was verified, so that the coordinator signed its text and the payload is
one that it issued. The answer repeats the nonce of the request, and a nonce that is asked with is
fresh: the declaration is written after the request. It is then held for four seconds at most. -/
theorem Backed.renewed (hK : K.Ideal) (hmode : c.mode = .coordinatorRouteLease binding)
    (hb : Backed binding s h) (clock : Clock) {answer : Agent.Answer K}
    (hgenuine : Genuine h (.renewed clock answer)) :
    Backed binding (s.renewed c clock answer) (h ++ [.input (.renewed clock answer)]) := by
  unfold Agent.renewed
  rw [hmode]
  split
  · rename_i serial generation nonce _ lease htick hbinding
    obtain rfl := ReadinessMode.coordinatorRouteLease.inj hbinding
    split
    · rename_i value hvalue
      split
      · obtain ⟨token, rfl, hverify, hheader, hpayload, hvalid, hanswers, hforce⟩ :=
          verifyReadiness_ok hvalue
        obtain ⟨d, hd, htext⟩ := hgenuine hverify hheader
        rw [htext] at hpayload
        obtain rfl := (hK.payload _ _ hvalid).1 hpayload
        obtain ⟨row, hissued⟩ := readinessPayload_ok d.written
        have hnonce : d.data.requestNonce = nonce := by
          rw [← hissued.request.2.2.2.2]
          exact hanswers.2.2.2.2.2.2
        obtain ⟨i, hi, hsub⟩ := (hb.asked serial generation nonce htick).sublist hd hnonce clock
          (.ready (some token))
        have hheld : Backed binding (s.hold d.payload generation clock)
            (h ++ [.input (.renewed clock (.ready (some token)))]) := by
          refine ⟨fun id hid => ?_, fun _ _ _ ht => ?_, fun l hl => ?_⟩
          · exact List.mem_append_left _ (hb.connected id hid)
          · exact (hb.asked _ _ _ ht).append _
          · obtain rfl := Option.some.inj hl
            refine ⟨i, nonce, d, clock, _, hi, hsub, rfl, hanswers, hforce, ?_⟩
            have hmin : ((min 4000 (d.payload.expiresMs - clock.date) : Int) : ℚ) ≤ 4000 := by
              exact_mod_cast min_le_left _ _
            dsimp only
            linarith
        have hfound := hheld.quiet (found_quiet (clock.date < d.payload.expiresMs)) []
        rwa [List.append_nil] at hfound
      · exact hb.quiet undeclared_quiet _
    · exact hb.quiet undeclared_quiet _
  · exact hb.quiet undeclared_quiet _
  · exact hb.quiet (.refl s) _

/-- Every run keeps what the agent has. -/
theorem Happens.backed (hK : K.Ideal) (hmode : c.mode = .coordinatorRouteLease binding)
    (hs : Happens c s h) : Backed binding s h := by
  induction hs with
  | start epoch clock hepoch =>
    refine ⟨fun id hid => ?_, fun _ _ _ ht => ?_, fun l hl => ?_⟩
    · cases hid
    · cases ht
    · cases hl
  | declared d hs ih => exact ih.quiet (.refl _) _
  | input i hs hi ih =>
    by_cases hquiet : i.ofReadiness = false
    · exact ih.quiet (step_quiet hquiet) _
    · cases i with
      | connect id => exact ih.connect id
      | fire clock nonce => exact ih.fire clock hi
      | renewed clock answer => exact ih.renewed hK hmode clock hi
      | tickFinished clock nonce => exact ih.tickFinished clock hi
      | _ => exact absurd rfl hquiet

/-- **Freshness.** A stage that takes itself for ready has a live connection over which it asked,
after it was made, for a declaration; the coordinator wrote one after that, for this request and of
an eligible route; the agent then accepted it, less than four seconds ago on its monotonic clock,
and it is in force on its wall clock.

**Proof sketch.** The history backs what the agent holds, from the start on and over each happening:
quiet inputs leave it alone, and each of the four others has its lemma. A stage that takes itself
for ready holds an unexpired lease of the generation of its live connection, and what backs the
lease is the conclusion. -/
theorem readiness_fresh (hK : K.Ideal) (hmode : c.mode = .coordinatorRouteLease binding)
    (hs : Happens c s h) {clock : Clock} (hready : s.readyNow c clock = true) :
    ∃ connection i nonce d row accepted answer,
      s.liveRpc = some connection ∧ connection.handshake = true ∧
      Input.nonce? i = some nonce ∧
      (asks connection.id i ++ granted d accepted answer).Sublist h ∧
      d.data.expected d.id = ⟨binding, s.epoch, connection.id, nonce⟩ ∧
      Issued d.registry d.tx d.id d.data row d.payload ∧ d.payload.InForce accepted.date ∧
      clock.date < d.payload.expiresMs ∧ clock.performance < accepted.performance + 4000 := by
  have hb := hs.backed hK hmode
  rw [Agent.readyNow, hmode] at hready
  simp only [decide_eq_true_eq] at hready
  obtain ⟨-, -, hdeclared⟩ := hready
  unfold Agent.declared at hdeclared
  split at hdeclared
  · rename_i connection lease hconnection hlease
    simp only [decide_eq_true_eq] at hdeclared
    obtain ⟨hhandshake, hgeneration, hdate, hperformance⟩ := hdeclared
    obtain ⟨i, nonce, d, accepted, answer, hi, hsub, hpayload, hanswers, hforce, hvalid⟩ :=
      hb.granted lease hlease
    obtain ⟨row, hissued⟩ := readinessPayload_ok d.written
    rw [hgeneration] at hsub hanswers
    rw [← hpayload] at hanswers hforce hdate
    exact ⟨connection, i, nonce, d, row, accepted, answer, hconnection, hhandshake, hi, hsub,
      (hissued.answers_iff.1 hanswers).symm, hissued, hforce, hdate, hperformance.trans_le hvalid⟩
  · cases hdeclared

/-! ### A laboratory -/

/-- The stage of the laboratory. -/
def labConfig : Config labSigning where
  nodeId := 2
  mode := .coordinatorRouteLease ⟨2, 9, labDigest, labDigest⟩
  backendModel := "b"
  startupBudget := 0
  sha256 _ := labDigest

/-- The clocks of the laboratory, at an instant after the declaration was issued. -/
def labClock (ms : Nat) : Clock := ⟨86401000 + ms, ms⟩

/-- The declaration of the laboratory with its origin. -/
def labDeclaration : Declaration :=
  ⟨labReadiness, labTx 1 1000, 2, labStage, labDeclared, labReadiness_declared⟩

/-- The answer to the agent's request. -/
def labAnswer : Input labSigning :=
  .renewed (labClock 100) (.ready (some (signReadiness labSigning labDeclared)))

/-- A connection is made, a heartbeat asks, the coordinator answers, and the agent accepts. -/
def labHappenings : List (Happening labSigning) := [
    .input (.connect 50),
    .input .handshook,
    .input (.fire (labClock 0) labStage.requestNonce),
    .declared labDeclaration,
    .input labAnswer,
    .input (.beat (some ⟨true, true, []⟩))]

/-- The agent after what happened in the laboratory. -/
def labAgent : Agent :=
  Agent.step labConfig (.beat (some ⟨true, true, []⟩)) <| Agent.step labConfig labAnswer <|
    Agent.step labConfig (.fire (labClock 0) labStage.requestNonce) <|
    Agent.step labConfig .handshook <| Agent.step labConfig (.connect 50) <|
    .initial labConfig 3 (labClock 0)

/-- The run of the laboratory happens. -/
theorem labAgent_happens : Happens labConfig labAgent labHappenings := by
  have hstart : Happens labConfig (.initial labConfig 3 (labClock 0)) [] := .start 3 _ (by decide)
  have hfire := ((hstart.input (.connect 50) trivial).input .handshook trivial).input
    (.fire (labClock 0) labStage.requestNonce) (by simp [Genuine])
  have hanswer := (hfire.declared labDeclaration).input labAnswer
    fun _ _ => ⟨labDeclaration, by simp, rfl⟩
  exact hanswer.input (.beat (some ⟨true, true, []⟩)) trivial

/-- In the laboratory the live connection was granted its readiness by the declaration it asked for.
-/
theorem readiness_fresh_lab : ∃ connection i nonce d row accepted answer,
    labAgent.liveRpc = some connection ∧ connection.handshake = true ∧
      Input.nonce? i = some nonce ∧
      (asks connection.id i ++ granted d accepted answer).Sublist labHappenings ∧
      d.data.expected d.id = ⟨⟨2, 9, labDigest, labDigest⟩, labAgent.epoch, connection.id, nonce⟩ ∧
      Issued d.registry d.tx d.id d.data row d.payload ∧ d.payload.InForce accepted.date ∧
      (labClock 500).date < d.payload.expiresMs ∧
      (labClock 500).performance < accepted.performance + 4000 :=
  readiness_fresh labSigning_ideal rfl labAgent_happens (by decide +kernel)

end NetworkAi.Stage
