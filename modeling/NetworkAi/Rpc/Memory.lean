import NetworkAi.Lib.Machine
import NetworkAi.Lib.Stateful
import NetworkAi.Lib.Table

set_option relaxedAutoImplicit false
set_option autoImplicit false

/-!
# The memory commands of the guard

A contributor's guard stands between the root's engine and the local worker. It bounds the device
memory that the engine may allocate: an allocation is checked before it is forwarded, again after
a memory query of the guard's own, and again on the worker's reply; a free is credited only after
such a query has come back.

## Main definitions

* `NetworkAi.Rpc.Reader` — a stream of bytes that arrives in chunks.
* `NetworkAi.Rpc.RpcMemoryBudget` — the account of live buffers.
* `NetworkAi.Rpc.Guard` — the state of the guard between its two streams.
* `NetworkAi.Rpc.observeMemoryCommand` — the handling of one memory command.

## Implementation notes

Writes to a stream do not fail, and a read that the stream cannot satisfy ends with `rpc_eof`.
The observations of physical memory are a function of how many were made before.
-/

namespace NetworkAi.Rpc

open Relational Stateful

/-- The codes of the guard's errors. -/
inductive RpcCode where
  | rpcEof
  | rpcHandshake
  | rpcCommand
  | rpcFrameLimit
  | computeUnreserved
  | rpcComputeLimit
  | rpcComputeExpired
  | rpcDevice
  | rpcBarrier
  | rpcMemoryRequest
  | rpcMemoryResponse
  | rpcPhysicalMemoryUnavailable
  | rpcBufferBudget
  | rpcMemoryHeadroom
  | rpcAllocationResponse
  | rpcBufferUnknown
  | rpcDeviceCount
  | rangeError
  deriving DecidableEq, Repr

/-! ### Numbers in little-endian order -/

/-- `readUInt32LE` and `readBigUInt64LE`, over the bytes they read. -/
def readLE : List UInt8 → Nat
  | [] => 0
  | b :: bs => b.toNat + 256 * readLE bs

/-- `writeBigUInt64LE` for `k = 8`. -/
def writeLE : Nat → Nat → List UInt8
  | 0, _ => []
  | k + 1, n => UInt8.ofNat n :: writeLE k (n / 256)

/-- The number at `offset`. -/
def readU64 (bytes : List UInt8) (offset : Nat) : Nat := readLE ((bytes.drop offset).take 8)

/-- The number at the start. -/
def readU32 (bytes : List UInt8) : Nat := readLE (bytes.take 4)

/-- The bytes with a number written at `offset`. -/
def setU64 (bytes : List UInt8) (offset : Nat) (n : Nat) : List UInt8 :=
  bytes.take offset ++ writeLE 8 n ++ bytes.drop (offset + 8)

/-- A number is written in as many bytes as it was given. -/
@[simp] theorem writeLE_length (k n : Nat) : (writeLE k n).length = k := by
  induction k generalizing n with
  | zero => rfl
  | succ k ih => rw [writeLE, List.length_cons, ih]

/-- A number is read as it was written. -/
theorem readLE_writeLE {k n : Nat} (h : n < 256 ^ k) : readLE (writeLE k n) = n := by
  induction k generalizing n with
  | zero =>
    rw [Nat.pow_zero] at h
    rw [writeLE, readLE]
    omega
  | succ k ih =>
    rw [Nat.pow_succ] at h
    rw [writeLE, readLE, ih (by omega), UInt8.toNat_ofNat']
    omega

/-! ### Streams -/

/-- `Reader`: the bytes of the last chunk that are left, and the chunks to come. -/
structure Reader where
  pending : List UInt8
  chunks : List (List UInt8)
  deriving DecidableEq, Repr

/-- The bytes of a stream. -/
def Reader.bytes (r : Reader) : List UInt8 := r.pending ++ r.chunks.flatten

/-- The bytes that `Reader.read` copies, and what it leaves; nothing when the stream ends first. -/
def Reader.take (length : Nat) (pending : List UInt8) :
    List (List UInt8) → Option (List UInt8 × Reader)
  | [] =>
    if length ≤ pending.length then some (pending.take length, ⟨pending.drop length, []⟩)
    else none
  | chunk :: chunks =>
    if length ≤ pending.length then
      some (pending.take length, ⟨pending.drop length, chunk :: chunks⟩)
    else
      (Reader.take (length - pending.length) chunk chunks).map fun r => (pending ++ r.1, r.2)

/-- `Reader.read`. -/
def Reader.read (length : Nat) : Prog Reader RpcCode (List UInt8) := fun r =>
  match Reader.take length r.pending r.chunks with
  | some (bytes, r') => (.ok bytes, r')
  | none => (.error .rpcEof, r)

/-! ### The budget -/

/-- `RpcMemoryBudget`: the live buffers by their pointers. -/
structure RpcMemoryBudget where
  limit : Int
  reserve : Int
  buffers : Table Nat Int
  used : Int
  peak : Int
  rejected : Nat

/-- The constructor, with its two decimal numbers. -/
def RpcMemoryBudget.create (limitBytes reserveBytes : Nat) : Option RpcMemoryBudget :=
  if (1 ≤ limitBytes ∧ limitBytes < 10 ^ 16) ∧ reserveBytes < 10 ^ 16 then
    some ⟨limitBytes, reserveBytes, Table.empty, 0, 0, 0⟩
  else none

/-- `remaining`. -/
def RpcMemoryBudget.remaining (b : RpcMemoryBudget) : Int := b.limit - b.used

/-- `withinBudget` of `requireAllocation`. -/
def RpcMemoryBudget.withinBudget (b : RpcMemoryBudget) (size : Int) : Prop :=
  size ≤ b.remaining ∧ b.buffers.rows.length < 4096

/-- `hasHeadroom` of `requireAllocation`. -/
def RpcMemoryBudget.hasHeadroom (b : RpcMemoryBudget) (size : Int) : Option Int → Prop
  | none => True
  | some free => b.reserve ≤ free ∧ size ≤ free - b.reserve

instance (b : RpcMemoryBudget) (size : Int) : Decidable (b.withinBudget size) :=
  inferInstanceAs (Decidable (_ ∧ _))

instance (b : RpcMemoryBudget) (size : Int) :
    ∀ free, Decidable (b.hasHeadroom size free)
  | none => inferInstanceAs (Decidable True)
  | some _ => inferInstanceAs (Decidable (_ ∧ _))

/-- `requireAllocation`. -/
def requireAllocation (size : Int) (free : Option Int) : Prog RpcMemoryBudget RpcCode Unit := do
  let b ← get
  when (¬ (b.withinBudget size ∧ b.hasHeadroom size free))
    (modify fun b => { b with rejected := b.rejected + 1 })
  require (b.withinBudget size) .rpcBufferBudget
  require (b.hasHeadroom size free) .rpcMemoryHeadroom

/-- `this.buffers.set(pointer, actual)` with the running totals. -/
def RpcMemoryBudget.add (b : RpcMemoryBudget) (pointer : Nat) (actual : Int) : RpcMemoryBudget :=
  match b.buffers.insert? pointer actual with
  | some buffers =>
    { b with buffers, used := b.used + actual, peak := max b.peak (b.used + actual) }
  | none => b

/-- `allocated`. -/
def allocated (requested : Int) (response : List UInt8) : Prog RpcMemoryBudget RpcCode Unit := do
  let b ← get
  let pointer := readU64 response 0
  let actual : Int := readU64 response 8
  if pointer = 0 then
    require (actual = 0) .rpcAllocationResponse
  else do
    require (b.buffers.find? pointer = none ∧ requested ≤ actual) .rpcAllocationResponse
    requireAllocation actual none
    modify (·.add pointer actual)

/-- `requireBuffer`. -/
def requireBuffer (pointer : Nat) : Prog RpcMemoryBudget RpcCode Unit := do
  let b ← get
  require (b.buffers.find? pointer ≠ none) .rpcBufferUnknown

/-- `this.buffers.delete(pointer)` with the running total. -/
def RpcMemoryBudget.drop (b : RpcMemoryBudget) (pointer : Nat) : RpcMemoryBudget :=
  { b with
    buffers := b.buffers.deleteWhere fun p _ => p = pointer
    used := b.used - (b.buffers.find? pointer).getD 0 }

/-- `freed`. -/
def freed (pointer : Nat) : Prog RpcMemoryBudget RpcCode Unit := do
  requireBuffer pointer
  modify (·.drop pointer)

/-- `memory`: the free and total amounts that the engine is shown. -/
def memory (free total : Int) : Prog RpcMemoryBudget RpcCode (Int × Int) := do
  require (free ≤ total) .rpcMemoryResponse
  let b ← get
  let visibleTotal := min total b.limit
  let physicalFree := if b.reserve < free then free - b.reserve else 0
  return (min (min physicalFree b.remaining) visibleTotal, visibleTotal)

/-! ### The guard -/

/-- An observation of the physical free memory. -/
inductive Physical where
  | unavailable
  | free (bytes : Int)
  deriving DecidableEq, Repr

/-- The guard of one connection: the streams of the client and the worker, what was written to
each of them, the observations of physical memory, and the budget. -/
structure Guard where
  input : Reader
  output : Reader
  physical : Nat → Physical
  observed : Nat
  toWorker : List UInt8
  toClient : List UInt8
  budget : RpcMemoryBudget

/-- `input.read`. -/
def readInput (length : Nat) : Prog Guard RpcCode (List UInt8) :=
  zoom (·.input) (fun r g => { g with input := r }) (Reader.read length)

/-- `output.read`. -/
def readOutput (length : Nat) : Prog Guard RpcCode (List UInt8) :=
  zoom (·.output) (fun r g => { g with output := r }) (Reader.read length)

/-- `write(worker, bytes)`. -/
def writeWorker (bytes : List UInt8) : Prog Guard RpcCode Unit :=
  modify fun g => { g with toWorker := g.toWorker ++ bytes }

/-- `write(client, bytes)`. -/
def writeClient (bytes : List UInt8) : Prog Guard RpcCode Unit :=
  modify fun g => { g with toClient := g.toClient ++ bytes }

/-- An operation on the budget. -/
def onBudget {α : Type} (x : Prog RpcMemoryBudget RpcCode α) : Prog Guard RpcCode α :=
  zoom (·.budget) (fun b g => { g with budget := b }) x

/-- `freeBytes()`. -/
def observePhysical : Prog Guard RpcCode Physical := do
  let g ← get
  modify fun g => { g with observed := g.observed + 1 }
  return g.physical g.observed

/-- `isMemoryCommand`, with the lengths of the requests. -/
def memoryRequestLength (command : Nat) : Option Nat :=
  match command with
  | 0 => some 12
  | 2 => some 4
  | 4 => some 8
  | 11 => some 4
  | 15 => some 0
  | _ => none

/-- `response`: a reply of the expected length, with the bytes of its length. -/
def response (expected : Nat) : Prog Guard RpcCode (List UInt8 × List UInt8) := do
  let size ← readOutput 8
  require (readU64 size 0 = expected) .rpcMemoryResponse
  let body ← readOutput expected
  return (size, body)

/-- `conservativeFree`, when a probe of physical memory is there or not. -/
def conservativeFree (probe : Bool) (reported : Int) : Prog Guard RpcCode Int :=
  if probe then do
    match ← observePhysical with
    | .unavailable => Stateful.fail .rpcPhysicalMemoryUnavailable
    | .free physical => do
      require (0 ≤ physical) .rpcPhysicalMemoryUnavailable
      return min reported physical
  else pure reported

/-- The memory query that the guard sends of its own. -/
def memoryQuery : List UInt8 := 11 :: writeLE 8 4 ++ [0, 0, 0, 0]

/-- `memoryBarrier`: the free memory that the worker reports now. -/
def memoryBarrier (probe : Bool) : Prog Guard RpcCode Int := do
  writeWorker memoryQuery
  let (_, body) ← response 16
  require (readU64 body 0 ≤ readU64 body 8) .rpcMemoryResponse
  conservativeFree probe (readU64 body 0)

/-- The checks of an allocation before it is forwarded, with the free memory they found. -/
def checkAllocation (probe : Bool) (requested : Int) : Prog Guard RpcCode Int := do
  onBudget (requireAllocation requested none)
  let freeBefore ← memoryBarrier probe
  onBudget (requireAllocation requested (some freeBefore))
  return freeBefore

/-- The free memory before an allocation; the other commands do not ask for it. -/
def beforeAllocation (probe : Bool) (command : Nat) (requested : Int) : Prog Guard RpcCode Int :=
  if command = 0 then checkAllocation probe requested else pure 0

/-- The reply to an allocation: the worker's, once it is accounted for. -/
def allocationReply (requested freeBefore : Int) (body : List UInt8) :
    Prog Guard RpcCode (List UInt8) := do
  onBudget (requireAllocation (readU64 body 8) (some freeBefore))
  onBudget (allocated requested body)
  return body

/-- `writeBigUInt64LE` of a computed value. -/
def writeBigUInt64LE (body : List UInt8) (offset : Nat) (value : Int) :
    Prog Guard RpcCode (List UInt8) := do
  require (0 ≤ value ∧ value < 2 ^ 64) .rangeError
  return setU64 body offset value.toNat

/-- The reply to a query of the greatest size: no more than what remains. -/
def sizeReply (body : List UInt8) : Prog Guard RpcCode (List UInt8) := do
  let g ← get
  writeBigUInt64LE body 0 (min (readU64 body 0 : Int) g.budget.remaining)

/-- The reply to a query of the memory: what the budget leaves visible. -/
def memoryReply (probe : Bool) (body : List UInt8) : Prog Guard RpcCode (List UInt8) := do
  require (readU64 body 0 ≤ readU64 body 8) .rpcMemoryResponse
  let free ← conservativeFree probe (readU64 body 0)
  let visible ← onBudget (memory free (readU64 body 8))
  let withFree ← writeBigUInt64LE body 0 visible.1
  writeBigUInt64LE withFree 8 visible.2

/-- The reply to a query of the devices: there is one. -/
def deviceReply (body : List UInt8) : Prog Guard RpcCode (List UInt8) := do
  require (readU32 body = 1) .rpcDeviceCount
  return body

/-- The length of the reply to a memory command. -/
def memoryReplyLength (command : Nat) : Nat :=
  if command = 15 then 4 else if command = 2 then 8 else 16

/-- What the client is answered for the worker's reply. -/
def answer (probe : Bool) (command : Nat) (requested freeBefore : Int) (body : List UInt8) :
    Prog Guard RpcCode (List UInt8) :=
  if command = 0 then allocationReply requested freeBefore body
  else if command = 2 then sizeReply body
  else if command = 11 then memoryReply probe body
  else if command = 15 then deviceReply body
  else pure body

/-- The forwarding of a free, credited after the worker has processed it. -/
def forwardFree (probe : Bool) (pointer : Nat) : Prog Guard RpcCode Unit := do
  let _ ← memoryBarrier probe
  onBudget (freed pointer)

/-- The forwarding of a reply. -/
def forwardReply (probe : Bool) (command : Nat) (requested freeBefore : Int) :
    Prog Guard RpcCode Unit := do
  let (size, body) ← response (memoryReplyLength command)
  let body ← answer probe command requested freeBefore body
  writeClient size
  writeClient body

/-- `observeMemoryCommand`. -/
def observeMemoryCommand (probe : Bool) (command bytes : Nat) (header : List UInt8) :
    Prog Guard RpcCode Unit := do
  require (memoryRequestLength command = some bytes) .rpcMemoryRequest
  let request ← readInput bytes
  when (command ∈ [0, 2, 11]) (require (readU32 request = 0) .rpcDevice)
  let freeBefore ← beforeAllocation probe command (readU64 request 4)
  when (command = 4) (onBudget (requireBuffer (readU64 request 0)))
  writeWorker header
  writeWorker request
  if command = 4 then forwardFree probe (readU64 request 0)
  else forwardReply probe command (readU64 request 4) freeBefore

end NetworkAi.Rpc
