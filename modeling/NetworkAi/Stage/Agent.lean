import Mathlib.Data.Rat.Defs
import Mathlib.Algebra.Order.Ring.Rat
import NetworkAi.Contracts
import NetworkAi.Lib.Checked
import NetworkAi.Lib.Machine
import NetworkAi.Rpc.Memory
import NetworkAi.Stage.Readiness

set_option relaxedAutoImplicit false
set_option autoImplicit false

/-!
# The stage agent

A contributor's node that serves one stage of a route: `createStageAgent` and `observeRpc` of
`stage.mjs`. Requests of the gateway, frames of the root's engine, the answers of the coordinator,
a timer and the operator act on one state. A step of the model is what runs between two waits; the
waits of every handler are in the state, so that any order of steps is a run.

## Main definitions

* `NetworkAi.Stage.Agent` — the variables of the agent and the handlers that wait.
* `NetworkAi.Stage.Input`, `NetworkAi.Stage.Agent.step` — what an agent waits for, and its steps.
* `NetworkAi.Stage.Agent.readyNow` — the agent's readiness.

## Implementation notes

One step reads both clocks once. The agent accepts one connection at a time, so the guard of the
connection is kept with it. A frame that is no compute command, which the guard passes on, and the
delivery of receipts end at any time, well or not; what they do besides is left out. `events` is a
record of what the agent did that no handler reads.
-/

namespace NetworkAi.Stage

open Rpc (readLE writeLE)
open Stateful (Prog)

/-! ### Clocks, configuration and leases -/

/-- The readings of a step. -/
structure Clock where
  /-- `Date.now()`, in milliseconds. -/
  date : Int
  /-- `performance.now()`, in milliseconds. -/
  performance : ℚ
  deriving DecidableEq, Repr

/-- `now()`: the seconds of the wall clock. -/
def Clock.now (c : Clock) : Int := c.date / 1000

/-- `MAX_FRAME`. -/
def maxFrame : Nat := 1024 ^ 3

/-- `MAX_SESSION_BYTES`. -/
def maxSessionBytes : Nat := 8 * 1024 ^ 3

/-- Where the readiness of the stage comes from. -/
inductive ReadinessMode where
  | localBackend (routeBinding : Option RpcBinding)
  | coordinatorRouteLease (routeBinding : RpcBinding)
  deriving DecidableEq, Repr

/-- `routeBinding`. -/
def ReadinessMode.routeBinding : ReadinessMode → Option RpcBinding
  | .localBackend binding => binding
  | .coordinatorRouteLease binding => some binding

/-- The configuration of an agent, with the libraries it uses. -/
structure Config (K : Signing) where
  nodeId : NodeId
  mode : ReadinessMode
  backendModel : String
  startupBudget : Nat
  /-- `createHash("sha256")`, in hexadecimal. -/
  sha256 : List UInt8 → String

/-- What the guard reads and writes of a lease, or of the startup budget. -/
structure Metered where
  claimed : Bool
  exp : Int
  cancelled : Bool
  maxCommands : Option Nat
  maxBytes : Option Nat
  completedCommands : Nat
  requestBytes : Nat
  responseBytes : Nat
  /-- The bytes that the hash was updated with. -/
  transcript : List UInt8
  deriving DecidableEq, Repr

/-- The lease of a session. -/
structure Lease extends Metered where
  cap : Capability
  started : Int
  deriving DecidableEq, Repr

/-- A preparation. -/
structure Prepared where
  cap : Capability
  id : String
  validUntil : Int
  deriving DecidableEq, Repr

/-- A declaration that the agent holds. -/
structure ReadinessLease where
  value : ReadinessPayload
  generation : Nat
  validUntil : ℚ
  deriving DecidableEq, Repr

/-- Who a compute frame is counted to: the startup budget, or the lease of that number. -/
inductive Holder where
  | startup
  | lease (i : Nat)
  deriving DecidableEq, Repr

/-! ### The handlers that wait -/

/-- What the guard waits for in a compute frame. -/
inductive Phase where
  | device
  | headerWrite (device : List UInt8)
  | copyWrite (remaining : Nat)
  | copyRead (remaining : Nat)
  | barrierWrite
  | size
  | ack (size : List UInt8)
  deriving DecidableEq, Repr

/-- A compute frame that passed the checks. -/
structure ComputeFrame where
  holder : Holder
  header : List UInt8
  bytes : Nat
  phase : Phase
  deriving DecidableEq, Repr

/-- A frame whose handler has its turn. -/
inductive Running where
  | compute (f : ComputeFrame)
  | other
  deriving DecidableEq, Repr

/-- A handler that waits for its turn in `serialize`. -/
inductive Job where
  | frame (command bytes : Nat)
  | finish (call : Nat)
  deriving DecidableEq, Repr

/-- Where the guard of the connection is. -/
inductive Guard where
  | handshaking
  | reading
  /-- A frame waits for its turn, or has it. -/
  | framing
  /-- `observeRpc` was rejected; its handler has not run yet. -/
  | failed
  /-- The handler waits for a call of `finish`. -/
  | finishing (call : Nat)
  | ending
  deriving DecidableEq, Repr

/-- A connection of the root's engine; its serial number tells apart what the source compares by
identity. -/
structure Connection where
  serial : Nat
  id : Nat
  handshake : Bool
  guard : Guard
  deriving DecidableEq, Repr

/-- Where a call of `finish` is. -/
inductive FinishStage where
  | queued
  /-- It took the lease of that number. -/
  | taken (lease : Nat)
  | storing
  | delivering
  | done
  /-- It ended with the error `receipt_storage`. -/
  | threw
  deriving DecidableEq, Repr

/-- A call of `finish`. -/
structure FinishCall where
  id : SessionId
  state : ReceiptState
  code : Option String
  stage : FinishStage
  deriving DecidableEq, Repr

/-- Where the timer's handler is. -/
inductive Tick where
  | idle
  /-- It waits for the `finish` of an expired lease. -/
  | expiring (call : Nat)
  /-- It waits for a readiness declaration, for a connection and with a nonce. -/
  | renewing (serial generation : Nat) (nonce : String)
  /-- It waits for the list of models of the backend. -/
  | probing
  /-- It waits for the answer to a heartbeat. -/
  | posting (loaded : Bool)
  /-- It waits for the `finish` of a cancelled lease. -/
  | cancelling (call : Nat)
  | delivering
  deriving DecidableEq, Repr

/-- What an agent did. -/
inductive Event where
  /-- A heartbeat found the backend loaded. -/
  | loaded
  /-- A compute frame passed the checks, for that holder. -/
  | checked (h : Holder)
  /-- Bytes of the frame were passed to the worker. -/
  | passed (h : Holder) (bytes : List UInt8)
  /-- The frame was counted, with its bytes in both directions. -/
  | counted (h : Holder) (request response : Nat)
  /-- The receipt of the lease of that number was built. -/
  | receipt (lease : Nat) (r : StageReceiptData)
  deriving DecidableEq, Repr

/-- The variables of `createStageAgent`. -/
structure Agent where
  epoch : Nat
  ready : Bool
  storageHealthy : Bool
  prepared : Option Prepared
  active : Option Nat
  leases : List Lease
  startup : Metered
  startupClosed : Bool
  stopped : Bool
  connections : Nat
  accepted : Nat
  liveRpc : Option Connection
  readinessLease : Option ReadinessLease
  queue : List Job
  running : Option Running
  /-- The leases whose claim waits for its answer. -/
  claiming : List Nat
  finishes : List FinishCall
  tick : Tick
  events : List Event
  deriving DecidableEq

/-- The agent after its registration, with the first heartbeat to come. -/
def Agent.initial {K : Signing} (c : Config K) (epoch : Nat) (clock : Clock) : Agent where
  epoch := epoch
  ready := false
  storageHealthy := true
  prepared := none
  active := none
  leases := []
  startup :=
    { claimed := true, exp := clock.now + 600, cancelled := false
      maxCommands := some c.startupBudget, maxBytes := some (256 * 1024 ^ 2)
      completedCommands := 0, requestBytes := 0, responseBytes := 0, transcript := [] }
  startupClosed := c.startupBudget = 0
  stopped := false
  connections := 0
  accepted := 0
  liveRpc := none
  readinessLease := none
  queue := []
  running := none
  claiming := []
  finishes := []
  tick := .idle
  events := []

namespace Agent

variable {K : Signing}

/-! ### Readiness -/

/-- The declaration that the agent holds is for its connection and in force on both clocks. -/
def declared (s : Agent) (clock : Clock) : Bool :=
  match s.liveRpc, s.readinessLease with
  | some connection, some lease =>
    connection.handshake ∧ lease.generation = connection.id ∧
      clock.date < lease.value.expiresMs ∧ clock.performance < lease.validUntil
  | _, _ => false

/-- `readyNow`. -/
def readyNow (c : Config K) (s : Agent) (clock : Clock) : Bool :=
  match c.mode with
  | .localBackend _ => ¬ s.stopped ∧ s.ready
  | .coordinatorRouteLease _ => ¬ s.stopped ∧ s.ready ∧ s.declared clock

/-! ### Receipts -/

/-- Enter `serialize` with a call of `finish`. -/
def callFinish (s : Agent) (id : SessionId) (state : ReceiptState) (code : Option String) : Agent :=
  { s with
    finishes := s.finishes ++ [⟨id, state, code, .queued⟩]
    queue := s.queue ++ [.finish s.finishes.length] }

/-- A call of `finish` moves on. -/
def setStage (s : Agent) (call : Nat) (stage : FinishStage) : Agent :=
  { s with finishes := s.finishes.modify call fun f => { f with stage } }

/-- The session of the active lease. -/
def activeSession (s : Agent) : Option SessionId := do
  let i ← s.active
  let lease ← s.leases[i]?
  return lease.cap.sessionId

/-- `if (active) await finish(active.cap.session_id, …)`, with the number of the call. -/
def finishActive (s : Agent) (state : ReceiptState) (code : String) : Option Nat × Agent :=
  match s.activeSession with
  | some id => (some s.finishes.length, s.callFinish id state (some code))
  | none => (none, s)

/-- The serialized part of `finish`: take the lease if it is active under that session. -/
def take (s : Agent) (call : Nat) (id : SessionId) : Agent :=
  match s.active with
  | some i =>
    if s.activeSession = some id then
      { s with
        active := none
        leases := s.leases.modify i fun l => { l with cancelled := true } }.setStage call (.taken i)
    else s.setStage call .done
  | none => s.setStage call .done

/-- The receipt of a lease. -/
def receiptOf (c : Config K) (epoch : Nat) (f : FinishCall) (l : Lease) (clock : Clock) :
    StageReceiptData :=
  let success := f.state = .completed ∧ 0 < l.completedCommands
  { sessionId := f.id
    attemptId := l.cap.attemptId
    epoch := epoch
    routeSha256 := l.cap.routeSha256
    state := if success then .completed else if f.state = .completed then .failed else f.state
    completedCommands := l.completedCommands
    requestBytes := l.requestBytes
    responseBytes := l.responseBytes
    transcriptSha256 := c.sha256 l.transcript
    elapsedMs := (min 3600000 (clock.date - l.started)).toNat
    errorCode := if success then none else some (f.code.getD "no_compute_observed") }

/-- `finish` past its serialized part: build the receipt and start to write it. -/
def buildReceipt (c : Config K) (s : Agent) (call : Nat) (clock : Clock) : Agent :=
  match s.finishes[call]? with
  | some f =>
    match f.stage with
    | .taken i =>
      match s.leases[i]? with
      | some l =>
        { s.setStage call .storing with
          events := s.events ++ [.receipt i (receiptOf c s.epoch f l clock)] }
      | none => s
    | _ => s
  | none => s

/-- A call of `finish` is at a stage. -/
def finishAt (s : Agent) (call : Nat) (stage : FinishStage) : Bool :=
  (s.finishes[call]?.map (·.stage)) = some stage

/-- The receipt was written to its file, or could not be. -/
def stored (s : Agent) (call : Nat) (ok : Bool) : Agent :=
  if s.finishAt call .storing then
    if ok then s.setStage call .delivering
    else { s.setStage call .threw with storageHealthy := false, ready := false }
  else s

/-- The delivery of the receipt was answered, or failed. -/
def delivered (s : Agent) (call : Nat) : Agent :=
  if s.finishAt call .delivering then s.setStage call .done else s

/-! ### The guard of the connection -/

/-- The guard moves on. -/
def setGuard (s : Agent) (guard : Guard) : Agent :=
  { s with liveRpc := s.liveRpc.map fun connection => { connection with guard } }

/-- The connection is at a place of its guard. -/
def guardAt (s : Agent) (guard : Guard) : Bool := (s.liveRpc.map (·.guard)) = some guard

/-- A connection arrives; any but the first is destroyed. -/
def connect (s : Agent) (id : Nat) : Agent :=
  if s.stopped ∨ 1 ≤ s.connections then s
  else
    { s with
      connections := s.connections + 1
      accepted := s.accepted + 1
      liveRpc := some ⟨s.accepted, id, false, .handshaking⟩
      readinessLease := none }

/-- The handshake of the engine passed in both directions. -/
def handshook (s : Agent) : Agent :=
  if s.guardAt .handshaking then
    { s with liveRpc := s.liveRpc.map fun connection =>
        { connection with handshake := true, guard := .reading } }
  else s

/-- The header of a frame arrived. -/
def frame (s : Agent) (command bytes : Nat) : Agent :=
  if s.guardAt .reading then
    if bytes ≤ maxFrame ∧ command ≤ 17 ∧ command ≠ 14 then
      { s.setGuard .framing with queue := s.queue ++ [.frame command bytes] }
    else s.setGuard .failed
  else s

/-- The connection was lost between two frames. -/
def drop (s : Agent) : Agent :=
  if s.guardAt .handshaking ∨ s.guardAt .reading then s.setGuard .failed else s

/-- The handler of a rejected `observeRpc`. -/
def guardFailed (s : Agent) : Agent :=
  if s.guardAt .failed then
    let s := { s with ready := false, prepared := none, readinessLease := none }
    match s.finishActive .failed "rpc_link_failed" with
    | (some call, s) => s.setGuard (.finishing call)
    | (none, s) => s.setGuard .ending
  else s

/-- The guard's handler is past its `finish`, which may have thrown. -/
def guardDone (s : Agent) : Guard → Bool
  | .ending => true
  | .finishing call => s.finishAt call .done || s.finishAt call .threw
  | _ => false

/-- The connection ends. -/
def guardEnded (s : Agent) : Agent :=
  match s.liveRpc with
  | some connection =>
    if s.guardDone connection.guard then
      { s with connections := s.connections - 1, liveRpc := none }
    else s
  | none => s

/-! ### Compute frames -/

/-- `leaseForCompute`. -/
def leaseForCompute (s : Agent) : Option Holder :=
  match s.active with
  | some i => some (.lease i)
  | none => if s.startupClosed then none else some .startup

/-- What the guard reads of a holder. -/
def metered (s : Agent) : Holder → Option Metered
  | .startup => some s.startup
  | .lease i => s.leases[i]?.map (·.toMetered)

/-- Write a holder. -/
def meter (s : Agent) (h : Holder) (f : Metered → Metered) : Agent :=
  match h with
  | .startup => { s with startup := f s.startup }
  | .lease i =>
    { s with leases := s.leases.modify i fun l => { l with toMetered := f l.toMetered } }

/-- `lease.transcript.update`. -/
def hash (s : Agent) (h : Holder) (bytes : List UInt8) : Agent :=
  s.meter h fun m => { m with transcript := m.transcript ++ bytes }

/-- `write(worker, …)` for a compute frame, without its wait. -/
def pass (s : Agent) (h : Holder) (bytes : List UInt8) : Agent :=
  { s with events := s.events ++ [.passed h bytes] }

/-- A frame ended well: the guard reads the next one. -/
def frameDone (s : Agent) : Agent := { s.setGuard .reading with running := none }

/-- A frame was refused or failed. -/
def frameFailed (s : Agent) : Agent := { s.setGuard .failed with running := none }

/-- A compute frame waits for its next event. -/
def await (s : Agent) (f : ComputeFrame) (phase : Phase) : Agent :=
  { s with running := some (.compute { f with phase }) }

/-- The first checks of a compute frame. -/
def Admissible (m : Metered) (clock : Clock) (bytes : Nat) : Prop :=
  (m.claimed = true ∧ clock.now < m.exp ∧ m.cancelled = false) ∧
    (4 ≤ bytes ∧ m.completedCommands < m.maxCommands.getD 1000000 ∧
      m.requestBytes + bytes + 22 ≤ m.maxBytes.getD maxSessionBytes)

instance (m : Metered) (clock : Clock) (bytes : Nat) : Decidable (Admissible m clock bytes) :=
  inferInstanceAs (Decidable (_ ∧ _))

/-- The header of a frame. -/
def frameHeader (command bytes : Nat) : List UInt8 := UInt8.ofNat command :: writeLE 8 bytes

/-- A frame's handler has its turn. -/
def beginFrame (s : Agent) (clock : Clock) (command bytes : Nat) : Agent :=
  if command = 10 ∨ command = 16 then
    match s.leaseForCompute with
    | some h =>
      match s.metered h with
      | some m =>
        if Admissible m clock bytes then
          { s with
            running := some (.compute ⟨h, frameHeader command bytes, bytes, .device⟩)
            events := s.events ++ [.checked h] }
        else s.frameFailed
      | none => s.frameFailed
    | none => s.frameFailed
  else { s with running := some .other }

/-- The query of the guard that ends a compute frame. -/
def barrier : List UInt8 := 11 :: writeLE 8 4 ++ [0, 0, 0, 0]

/-- The account of a compute frame. -/
def count (s : Agent) (f : ComputeFrame) : Agent :=
  { s.meter f.holder fun m =>
      { m with
        requestBytes := m.requestBytes + (f.bytes + 9 + 13)
        responseBytes := m.responseBytes + 24
        completedCommands := m.completedCommands + 1 } with
    events := s.events ++ [.counted f.holder (f.bytes + 9 + 13) 24] }

/-- The checks after the account. -/
def Continues (m : Metered) (clock : Clock) : Prop :=
  m.completedCommands ≤ 1000000 ∧ clock.now < m.exp ∧ m.cancelled = false

instance (m : Metered) (clock : Clock) : Decidable (Continues m clock) :=
  inferInstanceAs (Decidable (_ ∧ _))

/-- The guard of a compute frame goes on to its next wait: a write is done, or `bytes` were read.
A read returns as many bytes as it was asked for. -/
def compute (s : Agent) (clock : Clock) (f : ComputeFrame) (bytes : List UInt8) : Agent :=
  match f.phase with
  | .device =>
    if bytes.length ≠ 4 then s
    else if readLE bytes ≠ 0 then s.frameFailed
    else ((s.hash f.holder (f.header ++ bytes)).pass f.holder f.header).await f (.headerWrite bytes)
  | .headerWrite device => (s.pass f.holder device).await f (.copyWrite (f.bytes - 4))
  | .copyWrite remaining =>
    if remaining = 0 then (s.pass f.holder barrier).await f .barrierWrite
    else s.await f (.copyRead remaining)
  | .copyRead remaining =>
    if bytes.length ≠ min 65536 remaining then s
    else ((s.hash f.holder bytes).pass f.holder bytes).await f
      (.copyWrite (remaining - bytes.length))
  | .barrierWrite => s.await f .size
  | .size =>
    if bytes.length ≠ 8 then s
    else if readLE bytes = 16 then s.await f (.ack bytes)
    else s.frameFailed
  | .ack size =>
    if bytes.length ≠ 16 then s
    else
      let s := (s.hash f.holder (barrier ++ size ++ bytes)).count f
      match s.metered f.holder with
      | some m => if Continues m clock then s.frameDone else s.frameFailed
      | none => s.frameFailed

/-- What a frame waits for happened, or failed. -/
def io (s : Agent) (clock : Clock) (result : Option (List UInt8)) : Agent :=
  match s.running, result with
  | some (.compute f), some bytes => s.compute clock f bytes
  | some .other, some _ => s.frameDone
  | some _, none => s.frameFailed
  | none, _ => s

/-- The next handler in `serialize` has its turn, if none has it. -/
def turn (s : Agent) (clock : Clock) : Agent :=
  match s.running, s.queue with
  | none, .frame command bytes :: queue => { s with queue }.beginFrame clock command bytes
  | none, .finish call :: queue =>
    match s.finishes[call]? with
    | some f => { s with queue }.take call f.id
    | none => { s with queue }
  | _, _ => s

/-! ### Requests of the gateway -/

/-- `cap`: the capability of a request. -/
def cap (c : Config K) (epoch : Nat) (clock : Clock) (token : Option (Token K)) (scope : String) :
    Except String Capability := do
  let token ← Checked.require token "capability_format"
  Checked.guard (token.length ≤ 8192) "capability_limit"
  Checked.guard (K.verify token.text token.signature = true) "capability_signature"
  let header ← Checked.require (K.header token.text) "capability_scope"
  let value ← Checked.require (K.capability token.text) "capability_scope"
  Checked.guard ((header.alg = "EdDSA" ∧ header.typ = "NAI-CAP" ∧ header.v = 1) ∧
    (value.network = "network-ai-private-lab" ∧ value.aud = "network-ai-node") ∧
    value.nodeId = c.nodeId ∧ value.epoch = epoch ∧ value.scope = scope ∧
    value.backendModel = c.backendModel ∧
    (clock.now < value.exp ∧ value.exp ≤ clock.now + 190) ∧ isSha256 value.routeSha256)
    "capability_scope"
  Checked.guard (∀ binding ∈ c.mode.routeBinding, value.nodeId = binding.stageNodeId ∧
    value.routeId = binding.routeId ∧ value.routeSha256 = binding.routeSha256 ∧
    value.manifestSha256 = binding.manifestSha256) "transport_route_binding"
  return value

/-- `if (prepared?.until <= now()) prepared = null`. -/
def expirePrepared (s : Agent) (clock : Clock) : Agent :=
  { s with prepared := s.prepared.filter fun p => clock.now < p.validUntil }

/-- `POST /prepare`, with the identifier of the preparation. -/
def prepare (c : Config K) (clock : Clock) (token : Option (Token K)) (id : String) :
    Prog Agent String String := fun s =>
  match cap c s.epoch clock token "stage_prepare" with
  | .error e => (.error e, s)
  | .ok value =>
    let s := s.expirePrepared clock
    if s.readyNow c clock = true ∧ s.storageHealthy = true ∧ s.active = none then
      match s.prepared with
      | some p =>
        if p.cap.sessionId = value.sessionId ∧ p.cap.attemptId = value.attemptId then (.ok p.id, s)
        else (.error "stage_busy", s)
      | none =>
        (.ok id, { s with prepared := some ⟨value, id, min (clock.now + 15) value.exp⟩ })
    else (.error "stage_not_ready", s)

/-- `POST /release`. -/
def release (c : Config K) (clock : Clock) (token : Option (Token K)) :
    Prog Agent String Unit := fun s =>
  match cap c s.epoch clock token "stage_prepare" with
  | .error e => (.error e, s)
  | .ok value =>
    (.ok (), { s with prepared := s.prepared.filter fun p =>
      ¬ (p.cap.sessionId = value.sessionId ∧ p.cap.attemptId = value.attemptId) })

/-- The lease of a session that starts. -/
def newLease (value : Capability) (clock : Clock) : Lease where
  cap := value
  started := clock.date
  claimed := false
  exp := value.exp
  cancelled := false
  maxCommands := none
  maxBytes := none
  completedCommands := 0
  requestBytes := 0
  responseBytes := 0
  transcript := []

/-- `POST /stage/start` up to its claim, with the number of the lease. -/
def start (c : Config K) (clock : Clock) (token : Option (Token K)) :
    Prog Agent String Nat := fun s =>
  match cap c s.epoch clock token "stage_execute" with
  | .error e => (.error e, s)
  | .ok value =>
    match s.prepared with
    | some p =>
      if s.readyNow c clock = true ∧ s.active = none ∧ clock.now < p.validUntil ∧
          value.prepareId = some p.id ∧ value.sessionId = p.cap.sessionId ∧
          value.attemptId = p.cap.attemptId ∧ value.routeSha256 = p.cap.routeSha256 then
        (.ok s.leases.length,
          { s with
            active := some s.leases.length
            prepared := none
            leases := s.leases ++ [newLease value clock]
            claiming := s.claiming ++ [s.leases.length] })
      else (.error "stage_prepare", s)
    | none => (.error "stage_prepare", s)

/-- The answer to the claim of a lease. -/
def claimAnswered (s : Agent) (i : Nat) (ok : Bool) : Agent :=
  if i ∈ s.claiming then
    let s := { s with claiming := s.claiming.erase i }
    if ok then { s with leases := s.leases.modify i fun l => { l with claimed := true } }
    else if s.active = some i then { s with active := none }
    else s
  else s

/-- The attempt of the active lease. -/
def activeAttempt (s : Agent) : Option Nat := do
  let i ← s.active
  let lease ← s.leases[i]?
  return lease.cap.attemptId

/-- `POST /stage/finish`, with the number of its call of `finish`. -/
def finish (c : Config K) (clock : Clock) (token : Option (Token K)) (state : ReceiptState) :
    Prog Agent String Nat := fun s =>
  match cap c s.epoch clock token "stage_finish" with
  | .error e => (.error e, s)
  | .ok value =>
    if state = .interrupted then (.error "stage_rejected", s)
    else if s.active = none ∨ (s.activeSession = some value.sessionId ∧
        s.activeAttempt = some value.attemptId) then
      (.ok s.finishes.length, s.callFinish value.sessionId state
        (if state = .completed then none else some "route_interrupted"))
    else (.error "stage_identity", s)

/-! ### The timer -/

/-- What a heartbeat found: whether the backend is loaded. -/
def found (s : Agent) (loaded : Bool) : Agent :=
  if loaded then
    { s with startupClosed := true, tick := .posting true, events := s.events ++ [.loaded] }
  else { s with tick := .posting false }

/-- A heartbeat that holds no declaration. -/
def undeclared (s : Agent) : Agent := { s with readinessLease := none }.found false

/-- `heartbeat` up to its first wait. -/
def heartbeat (c : Config K) (s : Agent) (clock : Clock) (nonce : String) : Agent :=
  let s := s.expirePrepared clock
  match c.mode with
  | .localBackend _ => { s with tick := .probing }
  | .coordinatorRouteLease _ =>
    match s.liveRpc with
    | some connection =>
      if connection.handshake then { s with tick := .renewing connection.serial connection.id nonce }
      else s.undeclared
    | none => s.undeclared

/-- The active lease has expired. -/
def expired (s : Agent) (clock : Clock) : Bool :=
  match s.active.bind fun i => s.leases[i]? with
  | some lease => lease.exp ≤ clock.now
  | none => false

/-- The timer fires. -/
def fire (c : Config K) (s : Agent) (clock : Clock) (nonce : String) : Agent :=
  if s.tick = .idle ∧ s.stopped = false then
    if s.expired clock then
      match s.finishActive .interrupted "execution_timeout" with
      | (some call, s) => { s with tick := .expiring call }
      | (none, s) => s.heartbeat c clock nonce
    else s.heartbeat c clock nonce
  else s

/-- The answer to a request for a declaration. -/
inductive Answer (K : Signing) where
  | failed
  | notReady
  | ready (lease : Option (Token K))

/-- The connection of that number is live, past its handshake. -/
def live (s : Agent) (serial : Nat) : Bool :=
  match s.liveRpc with
  | some connection => connection.serial = serial ∧ connection.handshake
  | none => false

/-- Hold a declaration, for four seconds of the monotonic clock at most. -/
def hold (s : Agent) (value : ReadinessPayload) (generation : Nat) (clock : Clock) : Agent :=
  { s with readinessLease := some ⟨value, generation,
      clock.performance + (min 4000 (value.expiresMs - clock.date) : Int)⟩ }

/-- The answer to a heartbeat's request for a declaration. -/
def renewed (c : Config K) (s : Agent) (clock : Clock) (answer : Answer K) : Agent :=
  match s.tick, c.mode, answer with
  | .renewing serial generation nonce, .coordinatorRouteLease binding, .ready lease =>
    match verifyReadiness K lease ⟨binding, s.epoch, generation, nonce⟩ clock.date with
    | .ok value =>
      if s.live serial then
        (s.hold value generation clock).found (clock.date < value.expiresMs)
      else s.undeclared
    | .error _ => s.undeclared
  | .renewing _ _ _, _, _ => s.undeclared
  | _, _, _ => s

/-- The backend's list of models, if it answered. -/
def probed (c : Config K) (s : Agent) (models : Option (List String)) : Agent :=
  if s.tick = .probing then
    s.found (0 < s.connections ∧ ∃ ids ∈ models, c.backendModel ∈ ids)
  else s

/-- The answer to a heartbeat. -/
structure BeatAnswer where
  desiredReady : Bool
  stateReady : Bool
  cancelSessions : List SessionId
  deriving DecidableEq, Repr

/-- The timer's handler failed. -/
def tickFailed (s : Agent) : Agent := { s with ready := false, tick := .idle }

/-- The answer to a heartbeat, if there was one. -/
def beat (s : Agent) (answer : Option BeatAnswer) : Agent :=
  match s.tick, answer with
  | .posting loaded, some r =>
    let s := { s with ready := loaded && s.storageHealthy && r.desiredReady && r.stateReady }
    match s.activeSession with
    | some id =>
      if id ∈ r.cancelSessions then
        { s.callFinish id .cancelled (some "cancelled") with tick := .cancelling s.finishes.length }
      else { s with tick := .delivering }
    | none => { s with tick := .delivering }
  | .posting _, none => s.tickFailed
  | _, _ => s

/-- The `finish` that the timer's handler waits for has ended. -/
def tickFinished (c : Config K) (s : Agent) (clock : Clock) (nonce : String) : Agent :=
  match s.tick with
  | .expiring call =>
    if s.finishAt call .done then s.heartbeat c clock nonce
    else if s.finishAt call .threw then s.tickFailed
    else s
  | .cancelling call =>
    if s.finishAt call .done then { s with tick := .delivering }
    else if s.finishAt call .threw then s.tickFailed
    else s
  | _ => s

/-- The timer's handler went through the outbox, or failed to. -/
def outbox (s : Agent) (ok : Bool) : Agent :=
  if s.tick = .delivering then
    if ok then { s with tick := .idle } else s.tickFailed
  else s

/-- `stop`. -/
def stop (s : Agent) : Agent :=
  if s.stopped then s
  else ({ s with stopped := true, ready := false }.finishActive .interrupted "operator_shutdown").2

end Agent

/-! ### The system -/

/-- What happens to an agent between two waits. -/
inductive Input (K : Signing) where
  | connect (id : Nat)
  | handshook
  | frame (command bytes : Nat)
  | drop
  | turn (clock : Clock)
  | io (clock : Clock) (result : Option (List UInt8))
  | guardFailed
  | guardEnded
  | prepare (clock : Clock) (token : Option (Token K)) (id : String)
  | release (clock : Clock) (token : Option (Token K))
  | start (clock : Clock) (token : Option (Token K))
  | claimAnswered (lease : Nat) (ok : Bool)
  | finish (clock : Clock) (token : Option (Token K)) (state : ReceiptState)
  | buildReceipt (call : Nat) (clock : Clock)
  | stored (call : Nat) (ok : Bool)
  | delivered (call : Nat)
  | fire (clock : Clock) (nonce : String)
  | renewed (clock : Clock) (answer : Agent.Answer K)
  | probed (models : Option (List String))
  | beat (answer : Option Agent.BeatAnswer)
  | tickFinished (clock : Clock) (nonce : String)
  | outbox (ok : Bool)
  | stop

/-- One step of an agent. What its state does not wait for leaves it as it is. -/
def Agent.step {K : Signing} (c : Config K) : Input K → Agent → Agent
  | .connect id, s => s.connect id
  | .handshook, s => s.handshook
  | .frame command bytes, s => s.frame command bytes
  | .drop, s => s.drop
  | .turn clock, s => s.turn clock
  | .io clock result, s => s.io clock result
  | .guardFailed, s => s.guardFailed
  | .guardEnded, s => s.guardEnded
  | .prepare clock token id, s => (Agent.prepare c clock token id s).2
  | .release clock token, s => (Agent.release c clock token s).2
  | .start clock token, s => (Agent.start c clock token s).2
  | .claimAnswered lease ok, s => s.claimAnswered lease ok
  | .finish clock token state, s => (Agent.finish c clock token state s).2
  | .buildReceipt call clock, s => s.buildReceipt c call clock
  | .stored call ok, s => s.stored call ok
  | .delivered call, s => s.delivered call
  | .fire clock nonce, s => s.fire c clock nonce
  | .renewed clock answer, s => s.renewed c clock answer
  | .probed models, s => s.probed c models
  | .beat answer, s => s.beat answer
  | .tickFinished clock nonce, s => s.tickFinished c clock nonce
  | .outbox ok, s => s.outbox ok
  | .stop, s => s.stop

/-- The agents of a configuration, after a registration. -/
def stageSystem {K : Signing} (c : Config K) : Machine.System Agent (Input K) where
  init s := ∃ epoch clock, 0 < epoch ∧ s = Agent.initial c epoch clock
  step := Agent.step c

end NetworkAi.Stage
