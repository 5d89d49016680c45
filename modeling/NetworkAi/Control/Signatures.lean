import NetworkAi.Lib.Machine
import NetworkAi.Lib.Retention
import NetworkAi.Stage.Readiness

set_option relaxedAutoImplicit false
set_option autoImplicit false

/-!
# Signed requests of nodes

Every request of a node carries a timestamp, a nonce and a signature over both, the method, the URL
and the digest of the body.  The coordinator accepts a timestamp within half a minute of its clock
on either side and records the nonce; the reaper deletes nonces after five minutes.

## Main definitions

* `NetworkAi.signed` — the check of one request.
* `NetworkAi.Gate`, `NetworkAi.gateSystem` — the recorded nonces under requests, changes of the
  nodes and the reaper, as the clock advances.

## Main results

* `NetworkAi.signed_ok` — what an accepted request has passed.
* `NetworkAi.no_replay` — no message is accepted twice.

## Implementation notes

`Date.now()` and `now()` read one clock.  The division of `Date.now()` by 1000 is carried to the
other side of the comparison.  The text of a timestamp is read by a parameter, so that several
texts may stand for the same number; the messages that must not repeat hold the number, which is
what is signed.
-/

namespace NetworkAi

open Relational

/-! ### One request -/

/-- The parts of a request that its signature covers, with the body before it is hashed. -/
structure SignedMessage where
  method : String
  url : String
  timestamp : Int
  nonce : String
  body : List UInt8
  deriving DecidableEq, Repr

/-- A request with the headers of its signature. -/
structure SignedRequest where
  method : String
  url : String
  timestamp : Option String
  nonce : Option String
  signature : Option String
  rawBody : Option (List UInt8)
  deriving DecidableEq, Repr

/-- What `signed` uses from outside: the router, the reading of numbers, and cryptography. -/
structure Verifier where
  /-- The node in the path of a URL, when it is a UUID. -/
  node : String → Option NodeId
  /-- `z.coerce.number().int()`. -/
  number : Option String → Option Int
  /-- `hash`. -/
  hash : List UInt8 → String
  /-- `verifyNodeSignature`. -/
  verify : String → String → String → Bool

/-- The columns of a node that `signed` reads. -/
structure NodeKey where
  publicKey : Option String
  revoked : Bool
  deriving DecidableEq, Repr

/-- A header of `min` to `max` characters of `[A-Za-z0-9_-]`. -/
def isToken (min max : Nat) (s : String) : Bool :=
  min ≤ s.toList.length ∧ s.toList.length ≤ max ∧ s.toList.all Stage.isBase64Url

/-- A header that must be such a text. -/
def parseToken (min max : Nat) (header : Option String) : Except Failure String :=
  Checked.require (header.filter (isToken min max)) .invalidRequest

/-- The text that a node signs. -/
def SignedMessage.text (v : Verifier) (m : SignedMessage) : String :=
  "network-ai/node/v1\n" ++ m.method ++ "\n" ++ m.url ++ "\n" ++ toString m.timestamp ++ "\n" ++
    m.nonce ++ "\n" ++ v.hash m.body

/-- The timestamp of a message is within half a minute of the clock. -/
def SignedMessage.inWindow (m : SignedMessage) (now : Micros) : Prop :=
  |toMs now - m.timestamp * 1000| ≤ 30 * 1000

instance (m : SignedMessage) (now : Micros) : Decidable (m.inWindow now) :=
  inferInstanceAs (Decidable (_ ≤ _))

/-- `signed`: the message and its node, with the nonce recorded. -/
def signed (v : Verifier) (now : Micros) (nodes : NodeId → Option NodeKey)
    (nonces : Table (NodeId × String) Micros) (req : SignedRequest) :
    Except Failure (SignedMessage × Table (NodeId × String) Micros) := do
  let id ← Checked.require (v.node req.url) .invalidRequest
  let timestamp ← Checked.require (v.number req.timestamp) .invalidRequest
  let nonce ← parseToken 20 100 req.nonce
  let signature ← parseToken 86 86 req.signature
  let m : SignedMessage := ⟨req.method, req.url, timestamp, nonce, req.rawBody.getD []⟩
  need (m.inWindow now) 401 "signature_expired" "Assinatura fora da janela de validade."
  let key := ((nodes id).filter fun row => !row.revoked).bind NodeKey.publicKey
  need (key.any fun k => k ≠ "" ∧ v.verify k (m.text v) signature) 401 "node_signature"
    "Assinatura do nó inválida."
  let nonces ← needRow (nonces.insert? (id, nonce) now) 409 "nonce_replayed"
    "Esta mensagem já foi processada."
  return (m, nonces)

/-- The key that the nonce of a message is recorded under; a message to no node is not accepted. -/
def SignedMessage.key (v : Verifier) (m : SignedMessage) : NodeId × String :=
  ((v.node m.url).getD 0, m.nonce)

/-- What an accepted request has passed: its timestamp is in the window, and its nonce was not
recorded for its node. -/
theorem signed_ok {v : Verifier} {now : Micros} {nodes : NodeId → Option NodeKey}
    {nonces nonces' : Table (NodeId × String) Micros} {req : SignedRequest} {m : SignedMessage}
    (h : signed v now nodes nonces req = .ok (m, nonces')) :
    m.inWindow now ∧ ∃ hfresh : nonces.find? (m.key v) = none,
      nonces' = nonces.insert (m.key v) now hfresh := by
  simp only [signed, Checked.bind_ok, Checked.require_ok, need_ok, needRow_ok, Checked.pure_ok]
    at h
  obtain ⟨id, hnode, timestamp, -, nonce, -, signature, -, -, hwindow, -, -, table, hinsert,
    heq⟩ := h
  obtain ⟨rfl, rfl⟩ := Prod.mk.inj heq
  obtain ⟨hfresh, rfl⟩ := Table.insert?_eq_some.1 hinsert
  have hkey : SignedMessage.key v ⟨req.method, req.url, timestamp, nonce, req.rawBody.getD []⟩ =
      (id, nonce) := by
    rw [SignedMessage.key, hnode]
    rfl
  refine ⟨hwindow, ?_⟩
  rw [hkey]
  exact ⟨hfresh, rfl⟩

/-! ### Runs -/

/-- The interval after which `reap` deletes a nonce. -/
def nonceRetention : Micros := seconds 300

/-- What the checks of requests read and write, with the messages they accepted and when. -/
structure Gate where
  now : Micros
  nodes : NodeId → Option NodeKey
  nonces : Table (NodeId × String) Micros
  accepted : List (SignedMessage × Micros)

/-- What happens at the gate: time passes, a request arrives, a node changes, the reaper runs. -/
inductive GateEvent where
  | elapse (d : Nat)
  | request (req : SignedRequest)
  | configure (id : NodeId) (row : Option NodeKey)
  | reap

/-- One event. -/
def Gate.step (v : Verifier) : GateEvent → Gate → Gate
  | .elapse d, s => { s with now := s.now + d }
  | .request req, s =>
    match signed v s.now s.nodes s.nonces req with
    | .ok (m, nonces) => { s with nonces, accepted := s.accepted ++ [(m, s.now)] }
    | .error _ => s
  | .configure id row, s => { s with nodes := fun i => if i = id then row else s.nodes i }
  | .reap, s =>
    { s with nonces := s.nonces.deleteWhere fun _ seen => decide (seen + nonceRetention < s.now) }

/-- The gate, before it has accepted a message. -/
def gateSystem (v : Verifier) : Machine.System Gate GateEvent where
  init s := s.accepted = []
  step := Gate.step v

/-- Two instants within half a minute of one timestamp are little more than a minute apart. -/
theorem window_width {t u timestamp : Int} (ht : |t / 1000 - timestamp * 1000| ≤ 30 * 1000)
    (hu : |u / 1000 - timestamp * 1000| ≤ 30 * 1000) : u < t + 60001 * 1000 := by
  rw [abs_le] at ht hu
  omega

/-- The window of timestamps, on both sides of the clock, is narrower than the retention. -/
theorem inWindow_narrow : Retention.Narrow SignedMessage.inWindow nonceRetention := by
  intro m t u ht hu
  have hwidth : u < t + 60001 * 1000 := window_width ht hu
  have hshort : (60001 : Int) * 1000 ≤ 300 * 1000000 := by decide
  exact hwidth.le.trans (Int.add_le_add_left hshort t)

/-- The recorded nonces cover the accepted messages, none of which repeats. -/
structure Gate.Sound (v : Verifier) (s : Gate) : Prop where
  guarded : Retention.Guarded SignedMessage.inWindow (SignedMessage.key v) nonceRetention s.now
    s.nonces s.accepted
  nodup : (s.accepted.map Prod.fst).Nodup

/-- What one event preserves. -/
theorem Gate.Sound.step {v : Verifier} {s : Gate} (h : s.Sound v) (e : GateEvent) :
    (s.step v e).Sound v := by
  cases e with
  | elapse d =>
    have hle : s.now ≤ s.now + d := Int.le_add_of_nonneg_right (Int.natCast_nonneg d)
    exact ⟨h.guarded.later hle, h.nodup⟩
  | request req =>
    cases hsigned : signed v s.now s.nodes s.nonces req with
    | error e =>
      simp only [Gate.step, hsigned]
      exact h
    | ok r =>
      obtain ⟨m, nonces⟩ := r
      obtain ⟨hwindow, hfresh, rfl⟩ := signed_ok hsigned
      simp only [Gate.step, hsigned]
      have hnew := h.guarded.fresh inWindow_narrow hwindow hfresh
      exact ⟨h.guarded.accept hwindow hfresh, Retention.nodup_accept h.nodup hnew⟩
  | configure id row => exact ⟨h.guarded, h.nodup⟩
  | reap => exact ⟨h.guarded.expire, h.nodup⟩

/-- **No replay.** Whatever requests arrive and whenever nonces are deleted, no message is accepted
more than once.

**Proof sketch.** The invariant says that the accepted messages are distinct and that the recorded
nonces cover those that are still in their window, as nonces are retained for longer than a window
is wide (`inWindow_narrow`). A step accepts a message only in its window and under a new nonce. -/
theorem no_replay (v : Verifier) {s : Gate} (h : Machine.Reachable (gateSystem v) s) :
    (s.accepted.map Prod.fst).Nodup := by
  have hsound : s.Sound v := by
    refine h.invariant (fun s hinit => ?_) (fun s e _ hs => hs.step e)
    have hnone : s.accepted = [] := hinit
    refine ⟨?_, ?_⟩
    · rw [hnone]
      exact .nil
    · rw [hnone]
      exact List.nodup_nil
  exact hsound.nodup

/-- A verifier that knows one node, one timestamp and one signature. -/
def labVerifier : Verifier where
  node url := if url = "/api/v1/nodes/7/heartbeat" then some 7 else none
  number text := if text = some "86400" then some 86400 else none
  hash _ := "digest"
  verify key _ signature := key = "key" && signature.toList.all (· = 'A')

/-- A signed request of that node, its timestamp half a minute ahead of the clock of `labGate`. -/
def labRequest : SignedRequest where
  method := "POST"
  url := "/api/v1/nodes/7/heartbeat"
  timestamp := some "86400"
  nonce := some "abcdefghijklmnopqrst"
  signature := some ("AAAAAAAAAAAAAAAAAAAAAAAAAAAAAAAAAAAAAAAAAAA" ++
    "AAAAAAAAAAAAAAAAAAAAAAAAAAAAAAAAAAAAAAAAAAA")
  rawBody := none

/-- A gate that has accepted nothing. -/
def labGate : Gate where
  now := ofMs 86370000
  nodes _ := some ⟨some "key", false⟩
  nonces := .empty
  accepted := []

/-- A request is accepted, and refused when it is sent again at the end of its window. -/
theorem no_replay_resent :
    let s := (gateSystem labVerifier).run labGate
      [.request labRequest, .elapse 60000000, .reap, .request labRequest]
    s.accepted.map Prod.fst =
        [⟨"POST", "/api/v1/nodes/7/heartbeat", 86400, "abcdefghijklmnopqrst", []⟩] ∧
      (s.accepted.map Prod.fst).Nodup :=
  ⟨by decide +kernel, no_replay labVerifier (Machine.reachable_run (.init rfl) _)⟩

end NetworkAi
