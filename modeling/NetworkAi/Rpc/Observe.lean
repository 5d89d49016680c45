import NetworkAi.Rpc.Memory

set_option relaxedAutoImplicit false
set_option autoImplicit false

/-!
# The guard of the engine's protocol

A contributor's guard relays the frames of the root's engine to the local worker and the worker's
replies back. It withholds the capabilities of both sides, refuses the frames that the protocol
does not have, bounds the memory commands by a budget, and lets a compute command through only for
a lease, which it meters; after such a command a memory query of its own says when the worker is
done.

## Main definitions

* `NetworkAi.Rpc.ComputeLease` — what the compute commands are counted to.
* `NetworkAi.Rpc.Observer` — the state of one connection.
* `NetworkAi.Rpc.observeCommand` — the relay of one command.
* `NetworkAi.Rpc.observeRpc` — the handshake, and the commands until one of them fails.

## Main results

* `NetworkAi.Rpc.Reader.read_cases` — a read, by the bytes of the stream.

## Implementation notes

A timeout ends the streams, and is a stream that is short. What the agent does beside the guard
shows in the lease that each compute command finds, in the clock, and in whether the lease is
cancelled while the worker computes; all three are arbitrary.
-/

namespace NetworkAi.Rpc

open Stateful

/-- `MAX_FRAME`. -/
def maxFrame : Nat := 1024 ^ 3

/-- `MAX_SESSION_BYTES`. -/
def maxSessionBytes : Nat := 8 * 1024 ^ 3

/-- The lease of a session, or the budget of the startup. -/
structure ComputeLease where
  claimed : Bool
  exp : Nat
  cancelled : Bool
  maxCommands : Option Nat
  maxBytes : Option Nat
  completedCommands : Nat
  requestBytes : Nat
  responseBytes : Nat
  transcript : List UInt8
  deriving DecidableEq, Repr

/-- What a compute command meets: the lease it finds and the time then, whether the lease is
cancelled while the worker computes, and the time after that. -/
structure Turn where
  lease : Option ComputeLease
  now : Nat
  cancelled : Bool
  nowAfter : Nat

/-- The hooks of a connection, and what its compute commands meet. -/
structure Hooks where
  memoryBudget : Bool
  memoryFreeBytes : Bool
  turns : Nat → Turn

/-- The state of a connection: the guard between its streams, whether the handshake was completed,
how many compute commands asked for a lease, and the leases they were counted to, the last one
first. -/
structure Observer where
  guard : Guard
  handshake : Bool
  asked : Nat
  metered : List ComputeLease

/-- `lease?.claimed && lease.cap.exp > now() && !lease.cancelled`. -/
def Turn.reserved (t : Turn) : Option ComputeLease → Prop
  | none => False
  | some lease => lease.claimed = true ∧ t.now < lease.exp ∧ lease.cancelled = false

instance (t : Turn) : ∀ lease, Decidable (t.reserved lease)
  | none => inferInstanceAs (Decidable False)
  | some _ => inferInstanceAs (Decidable (_ ∧ _))

/-- A frame of `bytes` bytes is within the limits of the lease. -/
def ComputeLease.admits (lease : ComputeLease) (bytes : Nat) : Prop :=
  4 ≤ bytes ∧ lease.completedCommands < lease.maxCommands.getD 1000000 ∧
    lease.requestBytes + bytes + 22 ≤ lease.maxBytes.getD maxSessionBytes

instance (lease : ComputeLease) (bytes : Nat) : Decidable (lease.admits bytes) :=
  inferInstanceAs (Decidable (_ ∧ _))

/-- The check after the worker is done. -/
def ComputeLease.lasts (lease : ComputeLease) (t : Turn) : Prop :=
  lease.completedCommands ≤ 1000000 ∧ t.nowAfter < lease.exp ∧ lease.cancelled = false ∧
    t.cancelled = false

instance (lease : ComputeLease) (t : Turn) : Decidable (lease.lasts t) :=
  inferInstanceAs (Decidable (_ ∧ _))

/-- An operation of the guard between its streams. -/
def onGuard {α : Type} (x : Prog Guard RpcCode α) : Prog Observer RpcCode α :=
  zoom (·.guard) (fun g c => { c with guard := g }) x

/-- `frameLength`. -/
def frameLength {σ : Type} (header : List UInt8) : Prog σ RpcCode Nat := do
  require (readLE header ≤ maxFrame) .rpcFrameLimit
  return readLE header

/-- `copy`, for the reads of at most 64 KiB that are left to do: each chunk goes to `forward`. -/
def copyLoop {σ : Type} (read : Nat → Prog σ RpcCode (List UInt8))
    (forward : List UInt8 → Prog σ RpcCode Unit) : Nat → Nat → Prog σ RpcCode Unit
  | 0, _ => pure ()
  | fuel + 1, remaining =>
    if remaining = 0 then pure ()
    else do
      let chunk ← read (min 65536 remaining)
      forward chunk
      copyLoop read forward fuel (remaining - chunk.length)

/-- `copy`: every read takes at least one byte. -/
def copy {σ : Type} (read : Nat → Prog σ RpcCode (List UInt8))
    (forward : List UInt8 → Prog σ RpcCode Unit) (bytes : Nat) : Prog σ RpcCode Unit :=
  copyLoop read forward bytes bytes

/-- `hello[0] === 14 && frameLength(hello.subarray(1)) === 24`. -/
def checkHello (hello : List UInt8) : Prog Observer RpcCode Unit := do
  require (hello.head? = some 14) .rpcHandshake
  let bytes ← frameLength hello.tail
  require (bytes = 24) .rpcHandshake

/-- The handshake: the capabilities of both sides are withheld. -/
def observeHandshake : Prog Observer RpcCode Unit := do
  let hello ← onGuard (readInput 9)
  checkHello hello
  let _ ← onGuard (readInput 24)
  onGuard (writeWorker (hello ++ List.replicate 24 0))
  let replySize ← onGuard (readOutput 8)
  let bytes ← frameLength replySize
  require (bytes = 28) .rpcHandshake
  let reply ← onGuard (readOutput 28)
  onGuard (writeClient (replySize ++ (reply.take 4 ++ List.replicate 24 0)))
  modify fun c => { c with handshake := true }

/-- `hasResponse`. -/
def hasResponse (command : Nat) : Prop := command ∈ [0, 1, 2, 3, 7, 8, 9, 11, 13, 15]

/-- The commands that compute. -/
def computing (command : Nat) : Prop := command = 10 ∨ command = 16

instance (command : Nat) : Decidable (hasResponse command) :=
  inferInstanceAs (Decidable (_ ∈ _))

instance (command : Nat) : Decidable (computing command) :=
  inferInstanceAs (Decidable (_ ∨ _))

/-- `leaseForCompute()`, for the next compute command. -/
def leaseForCompute (hooks : Hooks) : Prog Observer RpcCode Turn := do
  let c ← get
  modify fun c => { c with asked := c.asked + 1 }
  return hooks.turns c.asked

/-- The lease that a compute command is counted to from now on. -/
def beginMetering (lease : ComputeLease) : Prog Observer RpcCode Unit :=
  modify fun c => { c with metered := lease :: c.metered }

/-- An assignment to the lease of the compute command. -/
def onLease (f : ComputeLease → ComputeLease) : Prog Observer RpcCode Unit :=
  modify fun c => { c with metered := (c.metered.take 1).map f ++ c.metered.drop 1 }

/-- `lease.transcript.update(bytes)`. -/
def updateTranscript (bytes : List UInt8) : Prog Observer RpcCode Unit :=
  onLease fun lease => { lease with transcript := lease.transcript ++ bytes }

/-- The counters of a lease after a compute frame of `bytes` bytes. -/
def ComputeLease.count (lease : ComputeLease) (bytes : Nat) : ComputeLease :=
  { lease with
    requestBytes := lease.requestBytes + (bytes + 9 + 13)
    responseBytes := lease.responseBytes + 24
    completedCommands := lease.completedCommands + 1 }

/-- The relay of a compute frame that was reserved and is within the limits: the frame, and the
memory query that says when the worker is done. -/
def relayCompute (lease : ComputeLease) (turn : Turn) (header : List UInt8) (bytes : Nat) :
    Prog Observer RpcCode Unit := do
  let device ← onGuard (readInput 4)
  require (readU32 device = 0) .rpcDevice
  beginMetering lease
  updateTranscript (header ++ device)
  onGuard (writeWorker header)
  onGuard (writeWorker device)
  copy (fun n => onGuard (readInput n))
    (fun chunk => do
      updateTranscript chunk
      onGuard (writeWorker chunk))
    (bytes - 4)
  onGuard (writeWorker memoryQuery)
  let size ← onGuard (readOutput 8)
  let length ← frameLength size
  require (length = 16) .rpcBarrier
  let ack ← onGuard (readOutput 16)
  updateTranscript (memoryQuery ++ size ++ ack)
  onLease (·.count bytes)
  require ((lease.count bytes).lasts turn) .rpcComputeExpired

/-- A compute command. -/
def observeCompute (hooks : Hooks) (header : List UInt8) (bytes : Nat) :
    Prog Observer RpcCode Unit := do
  let turn ← leaseForCompute hooks
  require (turn.reserved turn.lease) .computeUnreserved
  match turn.lease with
  | none => Stateful.fail .computeUnreserved
  | some lease => do
    require (lease.admits bytes) .rpcComputeLimit
    relayCompute lease turn header bytes

/-- Any other command: the frame, and the reply if it has one. -/
def relayCommand (header : List UInt8) (command bytes : Nat) : Prog Guard RpcCode Unit := do
  writeWorker header
  copy readInput writeWorker bytes
  when (hasResponse command) (do
    let size ← readOutput 8
    let length ← frameLength size
    writeClient size
    copy readOutput writeClient length)

/-- The relay of one command. -/
def observeCommand (hooks : Hooks) : Prog Observer RpcCode Unit := do
  let commandByte ← onGuard (readInput 1)
  let length ← onGuard (readInput 8)
  let command := readLE commandByte
  let bytes ← frameLength length
  require (command ≤ 17 ∧ command ≠ 14) .rpcCommand
  if computing command then observeCompute hooks (commandByte ++ length) bytes
  else if hooks.memoryBudget = true ∧ memoryRequestLength command ≠ none then
    onGuard (observeMemoryCommand hooks.memoryFreeBytes command bytes (commandByte ++ length))
  else onGuard (relayCommand (commandByte ++ length) command bytes)

/-- The loop over the commands; only a failure ends it. -/
def observeCommands (hooks : Hooks) : Nat → Prog Observer RpcCode Unit
  | 0 => pure ()
  | fuel + 1 => do
    observeCommand hooks
    observeCommands hooks fuel

/-- `observeRpc`: every command takes a byte of the client's stream at least. -/
def observeRpc (hooks : Hooks) : Prog Observer RpcCode Unit := do
  observeHandshake
  let c ← get
  observeCommands hooks (c.guard.input.bytes.length + 1)

/-- A connection at its start. -/
def Observer.start (input output : Reader) (physical : Nat → Physical)
    (budget : RpcMemoryBudget) : Observer :=
  ⟨⟨input, output, physical, 0, [], [], budget⟩, false, 0, []⟩

/-! ### Reads -/

/-- What a read takes, by the bytes of the stream. -/
theorem Reader.take_cases (n : Nat) (pending : List UInt8) (chunks : List (List UInt8)) :
    (n ≤ (pending ++ chunks.flatten).length ∧ ∃ r, Reader.take n pending chunks =
      some ((pending ++ chunks.flatten).take n, r) ∧
        r.bytes = (pending ++ chunks.flatten).drop n) ∨
    ((pending ++ chunks.flatten).length < n ∧ Reader.take n pending chunks = none) := by
  induction chunks generalizing n pending with
  | nil =>
    rw [Reader.take, List.flatten_nil, List.append_nil]
    by_cases h : n ≤ pending.length
    · rw [if_pos h]
      exact .inl ⟨h, _, rfl, by simp [Reader.bytes]⟩
    · rw [if_neg h]
      exact .inr ⟨not_le.1 h, rfl⟩
  | cons chunk chunks ih =>
    rw [Reader.take, List.flatten_cons]
    by_cases h : n ≤ pending.length
    · rw [if_pos h, List.take_append_of_le_length h, List.drop_append_of_le_length h]
      refine .inl ⟨?_, _, rfl, by simp [Reader.bytes]⟩
      rw [List.length_append]
      omega
    · rw [if_neg h]
      have hlt : pending.length ≤ n := by omega
      have htaken : ∀ rest, (pending ++ rest).take n = pending ++ rest.take (n - pending.length) :=
        fun rest => by rw [List.take_append, List.take_of_length_le hlt]
      have hdropped : ∀ rest, (pending ++ rest).drop n = rest.drop (n - pending.length) :=
        fun rest => by rw [List.drop_append, List.drop_of_length_le hlt, List.nil_append]
      rcases ih (n - pending.length) chunk with ⟨hle, r, htake, hrest⟩ | ⟨hshort, hnone⟩
      · refine .inl ⟨?_, r, ?_, ?_⟩
        · rw [List.length_append]
          omega
        · rw [htake, Option.map_some, htaken]
        · rw [hrest, hdropped]
      · refine .inr ⟨?_, by rw [hnone, Option.map_none]⟩
        rw [List.length_append]
        omega

/-- A read, by the bytes of the stream. -/
theorem Reader.read_cases (n : Nat) (r : Reader) :
    (n ≤ r.bytes.length ∧ ∃ r', Reader.read n r = (.ok (r.bytes.take n), r') ∧
      r'.bytes = r.bytes.drop n) ∨
    (r.bytes.length < n ∧ Reader.read n r = (.error .rpcEof, r)) := by
  unfold Reader.read
  rcases Reader.take_cases n r.pending r.chunks with ⟨hle, r', htake, hrest⟩ | ⟨hshort, hnone⟩
  · rw [htake]
    exact .inl ⟨hle, r', rfl, hrest⟩
  · rw [hnone]
    exact .inr ⟨hshort, rfl⟩

end NetworkAi.Rpc
