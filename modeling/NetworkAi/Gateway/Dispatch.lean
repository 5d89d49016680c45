import NetworkAi.Lib.Stateful
import NetworkAi.Runtime.Sse

set_option relaxedAutoImplicit false
set_option autoImplicit false

/-!
# The dispatch of a session by the gateway

`dispatch` of the gateway and the task of `chat` that runs it. The record of a run lists the
requests that the gateway sends, the answers it gets and what it sends to the client, in order.

## Main definitions

* `NetworkAi.Gateway.World` — the other parties: the coordinator, the nodes and the client.
* `NetworkAi.Gateway.Event` — what a run records.
* `NetworkAi.Gateway.World.work`, `NetworkAi.Gateway.World.finish`,
  `NetworkAi.Gateway.World.dispatch` — the source's `dispatch` and two parts of it.
* `NetworkAi.Gateway.World.run` — the record of the task of `chat`.

## Implementation notes

Every behaviour of the other parties is a `World`, which answers each request once and for all.
`join_all` and `try_join_all` send their requests in order and hear the answers in an order that
the world chooses; `try_join_all` stops at the first failure it hears. An answer is `none` when
the request fails, times out or has a status or a body that `node_post` and `control` refuse.
-/

namespace NetworkAi.Gateway

open Stateful

/-! ### What is read from JSON values -/

/-- A URL as `reqwest::Url` parses it. -/
structure Url where
  scheme : String
  host : Option String
  username : String
  password : Option String
  query : Option String
  fragment : Option String
  path : String
  port : Option Nat
  deriving DecidableEq, Repr

/-- A participant: each field is there if its value is a text. -/
structure Part where
  nodeId : Option String
  nodeUrl : Option String
  role : Option String
  capability : Option String
  finishCapability : Option String
  deriving DecidableEq, Repr

/-- The answer to an admission: `participants` may be absent, or not be a list. -/
structure Admission where
  state : Option String
  root : Part
  participants : Option (Option (List Part))
  deriving DecidableEq, Repr

/-- The answer of a node: `durable` says that the field is `true`. -/
structure Reply (V : Type) where
  prepareId : V
  durable : Bool
  state : Option String
  deriving DecidableEq, Repr

/-- The answer to an authorization. -/
structure Authorization where
  capability : Option String
  participants : Option (List Part)
  deriving DecidableEq, Repr

/-- The texts of terminal states that are not a success. -/
def failedStates : List (Option String) := [some "FAILED", some "CANCELLED", some "INTERRUPTED"]

/-! ### Records -/

/-- The requests of `node_post`; a finish says whether the work was done. -/
inductive Call where
  | prepare
  | start
  | finish (completed : Bool)
  | release
  deriving DecidableEq, Repr

/-- What a run records. -/
inductive Event (V : Type) where
  /-- The admission of the session was asked for. -/
  | admission
  /-- The session was admitted, with a root and the stages of its route. -/
  | admitted (root : Part) (stages : List Part)
  /-- A request was sent to a node. -/
  | posted (call : Call) (part : Part)
  /-- A node answered, or its answer is not coming. -/
  | answered (call : Call) (part : Part) (reply : Option (Reply V))
  /-- The coordinator was asked to authorize what was prepared. -/
  | authorize (prepareId : V) (stages : Option (List (Option String × V)))
  /-- The coordinator authorized it. -/
  | authorized (auth : Authorization)
  /-- The request was sent to the root. -/
  | execute (url : String) (capability : String)
  /-- A part of the root's stream arrived. -/
  | rootChunk (bytes : List UInt8)
  /-- The root's stream ended. -/
  | rootEnd
  /-- The coordinator said what became of the session, or did not answer. -/
  | status (answer : Option (Option String))
  /-- The coordinator was asked to cancel the session. -/
  | cancel
  /-- The coordinator was told that the delivery failed. -/
  | fail
  /-- A text was sent to the client. -/
  | sent (text : String)
  /-- Bytes of the root were passed to the client. -/
  | passed (bytes : List UInt8)
  deriving DecidableEq, Repr

/-! ### The other parties -/

/-- The other parties of a run, over a type of JSON values, and the libraries that read and write
values. -/
structure World (V : Type) where
  /-- `reqwest::Url::parse`. -/
  url : String → Option Url
  /-- `uuid::Uuid::parse_str` succeeds. -/
  uuid : String → Bool
  /-- `serde_json::from_str`. -/
  parse : List Char → Option V
  /-- The text of a value. -/
  text : V → String
  /-- `value.get("error").is_some()`. -/
  hasError : V → Bool
  /-- The text of a JSON string. -/
  quote : String → String
  /-- The text of the answer to the final query, or of the value that stands for it. -/
  statusText : String
  /-- The session. -/
  id : String
  /-- The answers to the requests for admission. -/
  polls : List (Option Admission)
  /-- The answers of the participants, in the order in which they are asked. -/
  reply : Call → Nat → Option (Reply V)
  /-- The order in which the answers of so many participants arrive. -/
  order : Call → Nat → List Nat
  order_perm : ∀ call n, (order call n).Perm (List.range n)
  /-- The answer of the root to `/prepare`. -/
  rootPrepare : Option (Reply V)
  /-- The answer to the authorization. -/
  authorization : Option Authorization
  /-- The answer of the root to `/execute`: the chunks of a stream, until one fails. -/
  stream : Option (List (Option (List UInt8)))
  /-- The state in the answer to the final query. -/
  reported : Option (Option String)
  /-- The client listens when so much is recorded. -/
  listening : Nat → Bool
  /-- The client is found to have gone away when so much is recorded. -/
  closed : Option Nat

/-- The state of a run: its record, and the authorization it got. -/
structure State (V : Type) where
  log : List (Event V)
  authorization : Option Authorization

/-- The errors of `dispatch`, without their texts; `waiting` is a run that is still queued. -/
inductive Stop where
  | waiting
  | failed
  deriving DecidableEq, Repr

/-- A part of `dispatch`. -/
abbrev Prog (V : Type) := Stateful.Prog (State V) Stop

variable {V : Type}

/-- Record an event. -/
def emit (e : Event V) : Prog V Unit := modify fun s => { s with log := s.log ++ [e] }

/-- The value of an answer, or a failure. -/
def given {α : Type} (o : Option α) : Prog V α :=
  match o with
  | some a => pure a
  | none => Stateful.fail .failed

/-! ### Texts for the client -/

/-- `event`. -/
def event (text : String) : String := "data: " ++ text ++ "\n\n"

/-- The final marker. -/
def marker : String := "data: [DONE]\n\n"

/-- The status that opens the client's stream. -/
def World.queuedText (w : World V) : String :=
  "event: network_ai_status\ndata: \x7b\"session_id\":" ++ w.quote w.id ++
    ",\"state\":\"QUEUED\"\x7d\n\n"

/-- The receipt before the final marker. -/
def World.receiptText (w : World V) : String :=
  "event: network_ai_receipt\ndata: " ++ w.statusText ++ "\n\n"

/-- The error that ends the client's stream. -/
def World.errorText (w : World V) : String :=
  event ("\x7b\"error\":\x7b\"code\":\"inference_interrupted\",\"message\":\"A inferência foi " ++
    "interrompida. Consulte a sessão para acompanhar a devolução.\",\"session_id\":" ++
    w.quote w.id ++ "\x7d\x7d")

namespace World

variable (w : World V)

/-- `tx.send`. -/
def send (e : Event V) : Prog V Unit := do
  let s ← get
  require (w.listening s.log.length) .failed
  emit e

/-! ### Requests to nodes -/

/-- `participant_url`. -/
def participantUrl (p : Part) : Option String := do
  let node ← p.nodeUrl
  let url ← w.url node
  guard (url.scheme = "http" ∧ url.host = some "127.0.0.1" ∧ url.username = "" ∧
    url.password = none ∧ url.query = none ∧ url.fragment = none ∧ url.path = "/" ∧
    url.port.any fun port => 43103 ≤ port ∧ port ≤ 43299)
  return node

/-- The capability that a request needs. -/
def key : Call → Part → Option String
  | .finish _, p => p.finishCapability
  | _, p => p.capability

/-- `node_post` can send a request to a participant. -/
def sendable (call : Call) (p : Part) : Bool :=
  (w.participantUrl p).isSome ∧ ((key call p).filter fun s => s.utf8ByteSize ≤ 8192).isSome

/-- Send requests to participants in order, up to the first that cannot be sent. -/
def tryPost (call : Call) : List Part → Prog V Unit
  | [] => pure ()
  | p :: parts => do
    require (w.sendable call p) .failed
    emit (.posted call p)
    tryPost call parts

/-- The answer of one participant, or a failure. -/
def tryAnswer (call : Call) (parts : List Part) (i : Nat) : Prog V Unit :=
  match parts[i]? with
  | some p => do
    emit (.answered call p (w.reply call i))
    require (w.reply call i).isSome .failed
  | none => pure ()

/-- Hear the answers to requests, up to the first failure. -/
def tryHear (call : Call) (parts : List Part) : List Nat → Prog V Unit
  | [] => pure ()
  | i :: order => do
    w.tryAnswer call parts i
    tryHear call parts order

/-- `try_join_all` of requests: the answers in the order of the participants. -/
def tryJoinAll (call : Call) (parts : List Part) : Prog V (List (Option (Reply V))) := do
  w.tryPost call parts
  w.tryHear call parts (w.order call parts.length)
  return (List.range parts.length).map (w.reply call)

/-- Send requests to the participants to whom they can be sent. -/
def post (call : Call) : List Part → Prog V Unit
  | [] => pure ()
  | p :: parts => do
    when (w.sendable call p) (emit (.posted call p))
    post call parts

/-- The answer of one participant, if it was asked. -/
def answer (call : Call) (parts : List Part) (i : Nat) : Prog V Unit :=
  match parts[i]? with
  | some p => when (w.sendable call p) (emit (.answered call p (w.reply call i)))
  | none => pure ()

/-- Hear the answers to requests. -/
def hear (call : Call) (parts : List Part) : List Nat → Prog V Unit
  | [] => pure ()
  | i :: order => do
    w.answer call parts i
    hear call parts order

/-- `join_all` of requests: the results in the order of the participants. -/
def joinAll (call : Call) (parts : List Part) : Prog V (List (Option (Reply V))) := do
  w.post call parts
  w.hear call parts (w.order call parts.length)
  return parts.mapIdx fun i p => if w.sendable call p then w.reply call i else none

/-! ### Admission -/

/-- Ask for admission until the session is no longer queued. -/
def admission : List (Option Admission) → Prog V Admission
  | [] => Stateful.fail .waiting
  | answer :: answers => do
    emit .admission
    let value ← given answer
    if value.state = some "PREPARING" then
      return value
    else
      require (value.state = some "QUEUED") .failed
      admission answers

/-- One participant of a route: the identities, the roots and the stages so far. -/
def addPart (root : Part) (acc : List String × Nat × List Part) (p : Part) :
    Option (List String × Nat × List Part) := do
  let (ids, roots, stages) := acc
  let id ← p.nodeId
  guard (w.uuid id)
  guard (id ∉ ids)
  let _ ← w.participantUrl p
  if p.role = some "ROOT" then
    guard (p.nodeUrl = root.nodeUrl)
    return (id :: ids, roots + 1, stages)
  else
    guard (p.role = some "STAGE")
    return (id :: ids, roots, stages ++ [p])

/-- The stages of an admission. -/
def route (value : Admission) : Option (List Part) :=
  match value.participants with
  | none => some []
  | some parts => do
    let parts ← parts
    guard (2 ≤ parts.length ∧ parts.length ≤ 16)
    let (_, roots, stages) ← parts.foldlM (w.addPart value.root) ([], 0, [])
    guard (roots = 1)
    return stages

/-! ### The work -/

/-- The limit of the root's stream, in bytes. -/
def outputLimit : Nat := 4 * 1024 * 1024

/-- The data of the root's events, passed on except for the final marker: whether the marker was
among them, and whether one of them is an error. -/
def relayEvents : List (List Char) → Bool × Bool → Prog V (Bool × Bool)
  | [], flags => pure flags
  | data :: rest, (done, failed) =>
    if data = "[DONE]".toList then relayEvents rest (true, failed)
    else do
      let value ← given (w.parse data)
      w.send (.sent (event (w.text value)))
      relayEvents rest (done, failed || w.hasError value)

/-- The root's stream, chunk after chunk. -/
def relay (routed : Bool) :
    List (Option (List UInt8)) → Nat → Sse → Bool × Bool → Prog V (Bool × Bool)
  | [], _, _, flags => do
    emit .rootEnd
    return flags
  | chunk :: chunks, total, parser, flags => do
    let chunk ← given chunk
    emit (.rootChunk chunk)
    require (total + chunk.length ≤ outputLimit) .failed
    if routed then
      let (events, parser) ← given (parser.push chunk).toOption
      let flags ← w.relayEvents events flags
      relay routed chunks (total + chunk.length) parser flags
    else
      w.send (.passed chunk)
      relay routed chunks (total + chunk.length) parser flags

/-- The participants of an authorization are the stages. -/
def bound (stages parts : List Part) : Prop :=
  parts.length = stages.length ∧
    ∀ p ∈ parts, ∃ s ∈ stages, s.nodeId = p.nodeId ∧ s.nodeUrl = p.nodeUrl

instance (stages parts : List Part) : Decidable (bound stages parts) :=
  inferInstanceAs (Decidable (_ ∧ _))

/-- The stages of an authorization are started. -/
def start (stages : List Part) (auth : Authorization) : Prog V Unit := do
  if stages ≠ [] then
    let parts ← given auth.participants
    require (bound stages parts) .failed
    let _ ← w.tryJoinAll .start parts

/-- The root is asked to execute, and its stream is passed on. -/
def execute (node : String) (stages : List Part) (auth : Authorization) : Prog V Unit := do
  emit (.execute node (auth.capability.getD ""))
  let chunks ← given w.stream
  let (done, failed) ← w.relay (stages ≠ []) chunks 0 ⟨[]⟩ (false, false)
  require (stages = [] ∨ (done ∧ ¬ failed)) .failed

/-- The block that prepares, authorizes, starts and executes. -/
def work (node : String) (root : Part) (stages : List Part) : Prog V Unit := do
  let prepared ← w.tryJoinAll .prepare stages
  require (w.sendable .prepare root) .failed
  emit (.posted .prepare root)
  emit (.answered .prepare root w.rootPrepare)
  let own ← given w.rootPrepare
  emit (.authorize own.prepareId (if stages ≠ [] then
    some ((stages.zip prepared).filterMap fun x => x.2.map fun r => (x.1.nodeId, r.prepareId))
  else none))
  let auth ← given w.authorization
  emit (.authorized auth)
  modify fun s => { s with authorization := some auth }
  w.start stages auth
  w.execute node stages auth

/-! ### The end -/

/-- A receipt that is durable and of no failed state. -/
def confirmed (reply : Option (Reply V)) : Bool :=
  reply.any fun r => r.durable ∧ r.state ∉ failedStates

/-- The stages are told how the work ended: all of them have durable receipts. -/
def finish (completed : Bool) (routed : Bool) : Prog V Bool := do
  if routed then
    let s ← get
    match s.authorization.bind Authorization.participants with
    | some parts => do
      let results ← w.joinAll (.finish completed) parts
      return results.all confirmed
    | none => return false
  else
    return true

/-- The preparations are released and the session is cancelled. -/
def release (root : Part) (stages : List Part) : Prog V Unit := do
  let _ ← w.joinAll .release (stages ++ [root])
  emit .cancel

/-- The last query about the session, the receipt and the final marker. -/
def settle : Prog V Unit := do
  emit (.status w.reported)
  require (∀ state ∈ w.reported, state ∉ failedStates) .failed
  w.send (.sent w.receiptText)
  w.send (.sent marker)

/-- `dispatch`. -/
def dispatch : Prog V Unit := do
  w.send (.sent w.queuedText)
  let value ← admission w.polls
  let node ← given (w.participantUrl value.root)
  let stages ← given (w.route value)
  emit (.admitted value.root stages)
  let outcome ← Stateful.attempt (w.work node value.root stages)
  let durable ← w.finish outcome.toBool (stages ≠ [])
  if ¬ outcome.toBool ∨ ¬ durable then
    w.release value.root stages
    Stateful.fail .failed
  else if stages ≠ [] then
    w.settle
  else
    pure ()

/-- The task of `chat` after `dispatch` ended: a failure is reported. -/
def report (r : Except Stop Unit × State V) : List (Event V) :=
  match r.1 with
  | .ok _ => r.2.log
  | .error .waiting => r.2.log
  | .error .failed =>
    r.2.log ++ [.fail] ++
      if w.listening (r.2.log.length + 1) then [.sent w.errorText] else []

/-- The record of the task of `chat`: a client that goes away ends `dispatch`. -/
def run : List (Event V) :=
  let r := w.dispatch ⟨[], none⟩
  match w.closed.filter fun n => n < r.2.log.length with
  | some n => r.2.log.take n ++ [.cancel]
  | none => w.report r

end World

end NetworkAi.Gateway
