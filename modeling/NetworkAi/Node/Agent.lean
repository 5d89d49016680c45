import NetworkAi.Lib.Machine
import NetworkAi.Lib.Roster
import NetworkAi.Lib.Table
import NetworkAi.Node.Outbox

set_option relaxedAutoImplicit false
set_option autoImplicit false

/-!
# The node agent

The agent runs one execution at a time. A request to prepare takes the only permit of a semaphore
and keeps it with a reservation in a map; a request to execute takes the reservation out of the map,
claims the session at the coordinator and, when the claim is answered, spawns a task that owns the
reservation from then on. The task leaves a receipt in the outbox, submits it and ends; a background
loop submits the receipts that remained.

## Main definitions

* `NetworkAi.NodeAgent.Agent` — the agent, with the claims that the coordinator has accepted.
* `NetworkAi.NodeAgent.Event`, `NetworkAi.NodeAgent.Agent.step` — what happens between two points
  at which a future waits.
* `NetworkAi.NodeAgent.agentSystem` — its runs, in any order of events.

## Implementation notes

An event is what one future does from one `await` to the next; a handler is dropped at an `await`
when its client disconnects. A request that has been sent may reach the coordinator after its
handler is gone. Nonces are numbers in the order they are drawn. The coordinator accepts at most one
claim for a session (`Sessions.claim` requires the state `AUTHORIZED` and leaves it); everything
else it answers is arbitrary. What the task streams to the client is left out.
-/

namespace NetworkAi.NodeAgent

open Relational

/-! ### Requests -/

/-- `Capability`. -/
structure Capability where
  network : String
  aud : String
  scope : String
  sessionId : String
  attemptId : String
  nodeId : String
  epoch : Nat
  model : String
  backendModel : String
  requestSha256 : String
  maxOutputTokens : Nat
  maxContextTokens : Nat
  maxInputBytes : Nat
  generationProfile : Option String
  prepareId : Option Nat
  exp : Nat
  deriving DecidableEq, Repr

/-- `Chat`, with the number of its messages and of the bytes in them. -/
structure Chat where
  model : String
  maxTokens : Nat
  messages : Nat
  contentBytes : Nat
  deriving DecidableEq, Repr

/-- The configuration of the agent, its epoch, and what it uses from outside. -/
structure Config where
  nodeId : String
  backendModel : String
  generationProfile : Option String
  epoch : Nat
  /-- The decoding of a token and the check of its signature in `verify_cap`. -/
  opened : String → Option Capability
  /-- `Chat::parse`. -/
  chat : List UInt8 → Option Chat
  /-- `hash`. -/
  hash : List UInt8 → String

/-- `verify_cap`. -/
def verifyCap (c : Config) (now : Nat) (token : String) : Option Capability :=
  (c.opened token).filter fun cap => now ≤ cap.exp ∧ cap.exp ≤ now + 190 ∧
    cap.network = "network-ai-private-lab" ∧ cap.aud = "network-ai-node"

/-- `App::cap`. -/
def Config.cap (c : Config) (now : Nat) (token scope : String) : Option Capability :=
  (verifyCap c now token).filter fun cap => cap.nodeId = c.nodeId ∧ cap.epoch = c.epoch ∧
    cap.backendModel = c.backendModel ∧ cap.scope = scope ∧
    cap.generationProfile = c.generationProfile

/-- The body of a request to execute is the one the capability is about, within its limits. -/
def Config.bound (c : Config) (cap : Capability) (body : List UInt8) : Bool :=
  (c.chat body).any fun chat => c.hash body = cap.requestSha256 ∧ chat.model = cap.model ∧
    chat.maxTokens = cap.maxOutputTokens ∧ chat.contentBytes ≤ cap.maxInputBytes ∧
    chat.contentBytes + chat.messages * 64 + chat.maxTokens ≤ cap.maxContextTokens

/-! ### The state -/

/-- `Prepared`: a reservation, with a permit. -/
structure Prepared where
  id : Nat
  cap : Capability
  validUntil : Nat
  deriving DecidableEq, Repr

/-- Where an execution is: its handler awaits the answer to the claim or the lock of `running`, or is
gone; its task runs the engine, submits its receipt, leaves `running`, closes the stream, or has
ended. -/
inductive Phase where
  | claiming
  | claimed
  | dropped
  | engine
  | submitting (receipt : Receipt)
  | unregistering
  | closing
  | finished
  deriving DecidableEq, Repr

/-- An execution holds its permit until its handler is gone or its task has ended. -/
def Phase.holds : Phase → Bool
  | .dropped | .finished => false
  | _ => true

/-- An execution is with its request handler. -/
def Phase.inHandler : Phase → Bool
  | .claiming | .claimed => true
  | _ => false

/-- An execution has left its engine and has built its receipt. -/
def Phase.metered : Phase → Bool
  | .submitting _ | .unregistering | .closing | .finished => true
  | _ => false

/-- An execution, from the request that took its reservation. -/
structure Execution where
  cap : Capability
  prepared : Prepared
  takenAt : Nat
  /-- The coordinator has accepted its claim. -/
  accepted : Bool
  /-- The client still reads its stream. -/
  client : Bool
  /-- Its cancellation token is cancelled. -/
  cancelled : Bool
  phase : Phase
  deriving DecidableEq, Repr

/-- What `engine` has metered when an execution ends. -/
structure Meter where
  prompt : Nat
  completion : Nat
  finish : Option String
  done : Bool
  digest : String
  deriving DecidableEq, Repr

/-- The four ways in which the engine of an execution ends. -/
inductive Outcome where
  | engine (ok : Bool)
  | cancelled
  | disconnected
  | timeout
  deriving DecidableEq, Repr

/-- The state and the error code in the receipt. -/
def Outcome.report : Outcome → String × Option String
  | .engine true => ("COMPLETED", none)
  | .engine false => ("FAILED", some "engine_failed")
  | .cancelled => ("CANCELLED", some "cancelled")
  | .disconnected => ("CANCELLED", some "client_disconnected")
  | .timeout => ("INTERRUPTED", some "execution_timeout")

/-- The receipt that `run` builds. -/
def Execution.receipt (e : Execution) (o : Outcome) (m : Meter) (elapsedMs : Nat) : Receipt where
  sessionId := e.cap.sessionId
  attemptId := e.cap.attemptId
  epoch := e.cap.epoch
  state := o.report.1
  promptTokens := min m.prompt 1000000
  completionTokens := min m.completion 100000
  outputSha256 := m.digest
  streamDone := m.done
  finishReason := m.finish
  errorCode := o.report.2
  elapsedMs := min elapsedMs 3600000

/-- Where the background loop is: it sleeps, asks the backend for its models, awaits the answer to a
heartbeat, or passes over the outbox with some entries left, perhaps awaiting an answer. -/
inductive Loop where
  | sleeping
  | loading
  | beating (ready : Bool)
  | flushing (left : Nat)
  | submitting (name : String) (receipt : Receipt) (left : Nat)
  deriving DecidableEq, Repr

/-- The answer to a heartbeat. -/
structure Beat where
  desiredReady : Bool
  stateReady : Bool
  cancelSessions : List String

/-- The agent. -/
structure Agent where
  now : Nat
  /-- The nonces drawn so far. -/
  drawn : Nat
  permits : Nat
  ready : Bool
  storageHealthy : Bool
  prepared : Table String Prepared
  /-- All executions, in the order they were started. -/
  executions : List Execution
  /-- The execution whose token `running` holds for a session. -/
  running : String → Option Nat
  /-- The file of a session in the outbox. -/
  outbox : String → Option Receipt
  loop : Loop
  /-- The sessions whose claim was accepted before this process. -/
  earlier : List String
  /-- The receipts written to the outbox, and those answered as accepted or terminal. -/
  written : List Receipt
  answered : List Receipt

/-! ### Reservations -/

/-- `prepared.retain(|_, p| p.until >= now())`; the dropped reservations give back their permits. -/
def Agent.retain (s : Agent) : Agent :=
  let kept := s.prepared.deleteWhere fun _ p => p.validUntil < s.now
  { s with
    prepared := kept
    permits := s.permits + (s.prepared.rows.length - kept.rows.length) }

/-- `prepare`, for a capability that passes. -/
def Agent.reserve (s : Agent) (cap : Capability) : Agent :=
  match h : s.prepared.find? cap.sessionId with
  | some _ => s
  | none =>
    if s.permits = 0 then s
    else
      { s with
        permits := s.permits - 1
        drawn := s.drawn + 1
        prepared := s.prepared.insert cap.sessionId
          ⟨s.drawn, cap, min (s.now + 15) cap.exp⟩ h }

/-- `prepare`. -/
def Agent.prepare (c : Config) (s : Agent) (token : String) : Agent :=
  match c.cap s.now token "prepare" with
  | none => s
  | some cap => if s.ready then s.retain.reserve cap else s

/-- `release`. -/
def Agent.release (c : Config) (s : Agent) (token : String) : Agent :=
  match c.cap s.now token "prepare" with
  | none => s
  | some cap =>
    match s.prepared.find? cap.sessionId with
    | some p =>
      if p.cap.attemptId = cap.attemptId then
        { s with prepared := s.prepared.without cap.sessionId, permits := s.permits + 1 }
      else s
    | none => s

/-! ### Executions -/

/-- `execute` up to its claim: the reservation moves from the map to the handler. -/
def Agent.execute (c : Config) (s : Agent) (token : String) (body : List UInt8) : Agent :=
  match c.cap s.now token "execute" with
  | none => s
  | some cap =>
    if c.bound cap body then
      match s.prepared.find? cap.sessionId with
      | none => s
      | some p =>
        if p.validUntil < s.now ∨ some p.id ≠ cap.prepareId ∨ p.cap.attemptId ≠ cap.attemptId then s
        else
          { s with
            prepared := s.prepared.without cap.sessionId
            executions := s.executions ++
              [{ cap, prepared := p, takenAt := s.now, accepted := false, client := true,
                 cancelled := false, phase := .claiming }] }
    else s

/-- An event of an execution that is in one of some phases. -/
def Agent.on (s : Agent) (i : Nat) (p : Execution → Bool) (f : Execution → Agent) : Agent :=
  Roster.act s.executions i p f s

/-- The agent with another record of an execution. -/
def Agent.put (s : Agent) (i : Nat) (e : Execution) : Agent :=
  { s with executions := s.executions.set i e }

/-- The sessions whose claim the coordinator has accepted. -/
def Agent.acceptedSessions (s : Agent) : List String :=
  s.earlier ++ (s.executions.filter (·.accepted)).map (·.cap.sessionId)

/-- The coordinator accepts a claim that it was sent, unless it has accepted one for the session. -/
def Agent.accept (s : Agent) (i : Nat) : Agent :=
  s.on i (fun e => decide (e.cap.sessionId ∉ s.acceptedSessions)) fun e =>
    s.put i { e with accepted := true }

/-- The handler is gone, with its reservation. -/
def Agent.dropHandler (s : Agent) (i : Nat) (e : Execution) : Agent :=
  { s.put i { e with phase := .dropped } with permits := s.permits + 1 }

/-- The claim is answered; an error, also one on the way, ends the request. -/
def Agent.claimAnswered (s : Agent) (i : Nat) (ok : Bool) : Agent :=
  s.on i (fun e => e.phase = .claiming) fun e =>
    if ok then if e.accepted then s.put i { e with phase := .claimed } else s
    else s.dropHandler i e

/-- The handler has the lock of `running`: the token is registered and the task spawned. -/
def Agent.spawn (s : Agent) (i : Nat) : Agent :=
  s.on i (fun e => e.phase = .claimed) fun e =>
    { s.put i { e with phase := .engine } with
      running := Function.update s.running e.cap.sessionId (some i) }

/-- The client disconnects: its handler is dropped, or the stream of its task loses its reader. -/
def Agent.disconnect (s : Agent) (i : Nat) : Agent :=
  s.on i (fun _ => true) fun e =>
    if e.phase.inHandler then s.dropHandler i e else s.put i { e with client := false }

/-- The outcome is possible at an instant: the token was cancelled, the client is gone, or the
capability has expired. -/
def Outcome.possible (now : Nat) (e : Execution) : Outcome → Bool
  | .engine _ => true
  | .cancelled => e.cancelled
  | .disconnected => !e.client
  | .timeout => e.cap.exp ≤ now

/-- The engine ends and the receipt is written, if the storage allows. -/
def Agent.outcome (s : Agent) (i : Nat) (o : Outcome) (m : Meter) (elapsedMs : Nat)
    (persisted : Bool) : Agent :=
  s.on i (fun e => e.phase = .engine ∧ o.possible s.now e = true) fun e =>
    if persisted then
      { s.put i { e with phase := .submitting (e.receipt o m elapsedMs) } with
        outbox := Function.update s.outbox e.cap.sessionId (some (e.receipt o m elapsedMs))
        written := s.written ++ [e.receipt o m elapsedMs] }
    else
      { s.put i { e with phase := .unregistering } with storageHealthy := false, ready := false }

/-- A receipt is answered: when that settles it, its file is removed, if the storage allows. -/
def Agent.settle (s : Agent) (name : String) (receipt : Receipt) (reply : Reply)
    (removed : Bool) : Agent :=
  if reply.signed.any Answer.settles then
    { s with
      answered := s.answered ++ [receipt]
      outbox := if removed then Function.update s.outbox name none else s.outbox }
  else s

/-- The task has the answer to its receipt. -/
def Agent.receiptAnswered (s : Agent) (i : Nat) (reply : Reply) (removed : Bool) : Agent :=
  s.on i (fun _ => true) fun e =>
    match e.phase with
    | .submitting r =>
      (s.put i { e with phase := .unregistering }).settle e.cap.sessionId r reply removed
    | _ => s

/-- The task leaves `running`. -/
def Agent.unregister (s : Agent) (i : Nat) : Agent :=
  s.on i (fun e => e.phase = .unregistering) fun e =>
    { s.put i { e with phase := .closing } with
      running := Function.update s.running e.cap.sessionId none }

/-- The task ends, and its reservation with it. -/
def Agent.finish (s : Agent) (i : Nat) : Agent :=
  s.on i (fun e => e.phase = .closing) fun e =>
    { s.put i { e with phase := .finished } with permits := s.permits + 1 }

/-! ### The background loop -/

/-- Cancel the token that `running` holds for a session. -/
def Agent.cancel (s : Agent) (session : String) : Agent :=
  match s.running session with
  | some i => s.on i (fun _ => true) fun e => s.put i { e with cancelled := true }
  | none => s

/-- `heartbeat` begins: expired reservations are dropped. -/
def Agent.wake (s : Agent) : Agent :=
  if s.loop = .sleeping then { s.retain with loop := .loading } else s

/-- The models of the backend are known, or not. -/
def Agent.loaded (s : Agent) (hasModel : Bool) : Agent :=
  if s.loop = .loading then { s with loop := .beating (hasModel && s.storageHealthy) } else s

/-- The heartbeat is answered; sessions are cancelled, and the pass over the outbox begins. -/
def Agent.beat (s : Agent) (answer : Option Beat) : Agent :=
  match s.loop with
  | .beating ready =>
    match answer with
    | none => { s with ready := false, loop := .flushing 100 }
    | some b =>
      b.cancelSessions.foldl Agent.cancel
        { s with ready := ready && b.desiredReady && b.stateReady, loop := .flushing 100 }
  | _ => s

/-- `flush_outbox` comes to the file of a session, as `read_dir` may yield it. -/
def Agent.entry (s : Agent) (name : String) : Agent :=
  match s.loop with
  | .flushing (left + 1) =>
    match s.outbox name with
    | some r => { s with loop := .submitting name r left }
    | none => { s with loop := .sleeping }
  | _ => s

/-- The pass comes to an entry that is no receipt. -/
def Agent.skip (s : Agent) : Agent :=
  match s.loop with
  | .flushing (left + 1) => { s with loop := .flushing left }
  | _ => s

/-- The pass comes to its end, or to an error. -/
def Agent.flushDone (s : Agent) : Agent :=
  match s.loop with
  | .flushing _ => { s with loop := .sleeping }
  | _ => s

/-- The receipt of the pass is answered; an error ends the pass. -/
def Agent.flushAnswered (s : Agent) (reply : Reply) (removed : Bool) : Agent :=
  match s.loop with
  | .submitting name r left =>
    { s.settle name r reply removed with
      loop := if reply.signed = none ∨ (reply.signed.any Answer.settles = true ∧ removed = false)
        then .sleeping else .flushing left }
  | _ => s

/-! ### Runs -/

/-- The events of an agent. -/
inductive Event where
  | elapse (d : Nat)
  | prepare (token : String)
  | release (token : String)
  | execute (token : String) (body : List UInt8)
  | accept (i : Nat)
  | claimAnswered (i : Nat) (ok : Bool)
  | spawn (i : Nat)
  | disconnect (i : Nat)
  | outcome (i : Nat) (o : Outcome) (m : Meter) (elapsedMs : Nat) (persisted : Bool)
  | receiptAnswered (i : Nat) (reply : Reply) (removed : Bool)
  | unregister (i : Nat)
  | finish (i : Nat)
  | wake
  | loaded (hasModel : Bool)
  | beat (answer : Option Beat)
  | entry (name : String)
  | skip
  | flushAnswered (reply : Reply) (removed : Bool)
  | flushDone

/-- One event; an event that is not possible changes nothing. -/
def Agent.step (c : Config) : Event → Agent → Agent
  | .elapse d, s => { s with now := s.now + d }
  | .prepare token, s => s.prepare c token
  | .release token, s => s.release c token
  | .execute token body, s => s.execute c token body
  | .accept i, s => s.accept i
  | .claimAnswered i ok, s => s.claimAnswered i ok
  | .spawn i, s => s.spawn i
  | .disconnect i, s => s.disconnect i
  | .outcome i o m elapsedMs persisted, s => s.outcome i o m elapsedMs persisted
  | .receiptAnswered i reply removed, s => s.receiptAnswered i reply removed
  | .unregister i, s => s.unregister i
  | .finish i, s => s.finish i
  | .wake, s => s.wake
  | .loaded hasModel, s => s.loaded hasModel
  | .beat answer, s => s.beat answer
  | .entry name, s => s.entry name
  | .skip, s => s.skip
  | .flushAnswered reply removed, s => s.flushAnswered reply removed
  | .flushDone, s => s.flushDone

/-- The start of a process: its permit is free and it has no reservation and no execution; the
outbox may hold receipts of earlier processes, one for a session. -/
structure Agent.Fresh (s : Agent) : Prop where
  permits : s.permits = 1
  prepared : s.prepared = .empty
  executions : s.executions = []
  loop : s.loop = .sleeping
  answered : s.answered = []
  outbox : ∀ name r, s.outbox name = some r ↔ r ∈ s.written ∧ r.sessionId = name
  written : ∀ r ∈ s.written, r.sessionId ∈ s.earlier ∧
    ∀ r' ∈ s.written, r'.sessionId = r.sessionId → r' = r

/-- The runs of an agent. -/
def agentSystem (c : Config) : Machine.System Agent Event where
  init := Agent.Fresh
  step := Agent.step c

end NetworkAi.NodeAgent
