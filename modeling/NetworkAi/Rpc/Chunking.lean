import NetworkAi.Rpc.Observe

set_option relaxedAutoImplicit false
set_option autoImplicit false

/-!
# The guard does not depend on the chunks

TCP delivers the bytes of the engine and of the worker in chunks of any sizes. What the guard does
depends on the bytes alone: every operation of it gives the same result from two states that
differ in nothing but the chunks, and leaves two such states behind.

## Main definitions

* `NetworkAi.Rpc.Observer.Same` — two connections that differ in nothing but the chunks.

## Main results

* `NetworkAi.Rpc.respects_observeCommand` — one command does not depend on the chunks.
* `NetworkAi.Rpc.rpc_chunk_independence` — a connection does not.
-/

namespace NetworkAi.Rpc

open Relational Stateful

/-! ### The same bytes -/

/-- Two streams of the same bytes. -/
def Reader.Same (r r' : Reader) : Prop := r.bytes = r'.bytes

/-- A read takes the same bytes however the stream is cut. -/
theorem Reader.respects_read (n : Nat) : Respects Reader.Same (Reader.read n) := by
  intro r r' h
  have hbytes : r.bytes = r'.bytes := h
  rcases Reader.read_cases n r with ⟨hle, t, hread, hrest⟩ | ⟨hshort, hread⟩
  · rcases Reader.read_cases n r' with ⟨-, t', hread', hrest'⟩ | ⟨hshort', -⟩
    · rw [hread, hread', hbytes]
      refine ⟨rfl, ?_⟩
      show t.bytes = t'.bytes
      rw [hrest, hrest', hbytes]
    · rw [hbytes] at hle
      omega
  · rcases Reader.read_cases n r' with ⟨hle', -⟩ | ⟨-, hread'⟩
    · rw [hbytes] at hshort
      omega
    · rw [hread, hread']
      exact ⟨rfl, h⟩

/-- Two guards that differ in nothing but the chunks of their streams. -/
def Guard.Same (g g' : Guard) : Prop :=
  g.input.Same g'.input ∧ g.output.Same g'.output ∧
    g' = { g with input := g'.input, output := g'.output }

/-- Two connections that differ in nothing but the chunks of their streams. -/
def Observer.Same (c c' : Observer) : Prop :=
  c.guard.Same c'.guard ∧ c' = { c with guard := c'.guard }

/-! ### The guard -/

/-- A read from the client does not depend on the cut. -/
theorem respects_readInput (n : Nat) : Respects Guard.Same (readInput n) := by
  refine .zoom (Reader.respects_read n) (fun _ _ h => h.1) ?_
  rintro g g' r r' ⟨-, hout, heq⟩ hr
  exact ⟨hr, hout, by rw [heq]⟩

/-- A read from the worker does not depend on the cut. -/
theorem respects_readOutput (n : Nat) : Respects Guard.Same (readOutput n) := by
  refine .zoom (Reader.respects_read n) (fun _ _ h => h.2.1) ?_
  rintro g g' r r' ⟨hin, -, heq⟩ hr
  exact ⟨hin, hr, by rw [heq]⟩

/-- A change of the state that does not look at the streams. -/
theorem respects_modify {f : Guard → Guard} (hinput : ∀ g, (f g).input = g.input)
    (houtput : ∀ g, (f g).output = g.output)
    (hf : ∀ g i o, f { g with input := i, output := o } = { f g with input := i, output := o }) :
    Respects (ε := RpcCode) Guard.Same (modify f) := by
  refine .modify ?_
  rintro g g' ⟨hin, hout, heq⟩
  refine ⟨?_, ?_, ?_⟩
  · rw [hinput, hinput]
    exact hin
  · rw [houtput, houtput]
    exact hout
  · rw [hinput, houtput]
    rw [heq, hf]

/-- A write to the worker does not depend on the cut. -/
theorem respects_writeWorker (bytes : List UInt8) : Respects Guard.Same (writeWorker bytes) :=
  respects_modify (fun _ => rfl) (fun _ => rfl) fun _ _ _ => rfl

/-- A write to the client does not depend on the cut. -/
theorem respects_writeClient (bytes : List UInt8) : Respects Guard.Same (writeClient bytes) :=
  respects_modify (fun _ => rfl) (fun _ => rfl) fun _ _ _ => rfl

/-- What is done to the account does not depend on the cut. -/
theorem respects_onBudget {α : Type} {x : Prog RpcMemoryBudget RpcCode α} :
    Respects Guard.Same (onBudget x) := by
  refine .zoom .eq ?_ ?_
  · rintro g g' ⟨-, -, heq⟩
    rw [heq]
  · rintro g g' b _ ⟨hin, hout, heq⟩ rfl
    exact ⟨hin, hout, by rw [heq]⟩

/-- A reading of the free memory does not depend on the cut. -/
theorem respects_observePhysical : Respects Guard.Same observePhysical := by
  refine .get_bind ?_ fun g => .bind ?_ fun _ => .pure
  · rintro g g' ⟨-, -, heq⟩
    rw [heq]
  · exact respects_modify (fun _ => rfl) (fun _ => rfl) fun _ _ _ => rfl

/-- The free memory that is reported does not depend on the cut. -/
theorem respects_conservativeFree (probe : Bool) (reported : Int) :
    Respects Guard.Same (conservativeFree probe reported) := by
  refine .ite (fun _ => .bind respects_observePhysical fun seen => ?_) fun _ => .pure
  cases seen with
  | unavailable => exact .fail
  | free physical => exact .bind .require fun _ => .pure

/-- A response of the worker does not depend on the cut. -/
theorem respects_response (expected : Nat) : Respects Guard.Same (response expected) :=
  .bind (respects_readOutput 8) fun _ => .bind .require fun _ =>
    .bind (respects_readOutput expected) fun _ => .pure

/-- The barrier does not depend on the cut. -/
theorem respects_memoryBarrier (probe : Bool) : Respects Guard.Same (memoryBarrier probe) :=
  .bind (respects_writeWorker _) fun _ => .bind (respects_response 16) fun _ =>
    .bind .require fun _ => respects_conservativeFree probe _

/-- Writing a number into a body does not depend on the cut. -/
theorem respects_writeBigUInt64LE (body : List UInt8) (offset : Nat) (value : Int) :
    Respects Guard.Same (writeBigUInt64LE body offset value) := .bind .require fun _ => .pure

/-- The answer to a command about memory does not depend on the cut. -/
theorem respects_answer (probe : Bool) (command : Nat) (requested freeBefore : Int)
    (body : List UInt8) : Respects Guard.Same (answer probe command requested freeBefore body) := by
  refine .ite (fun _ => ?_) fun _ => .ite (fun _ => ?_) fun _ => .ite (fun _ => ?_) fun _ =>
    .ite (fun _ => ?_) fun _ => .pure
  · exact .bind respects_onBudget fun _ => .bind respects_onBudget fun _ => .pure
  · refine .get_bind ?_ fun _ => respects_writeBigUInt64LE _ _ _
    rintro g g' ⟨-, -, heq⟩
    rw [heq]
  · exact .bind .require fun _ => .bind (respects_conservativeFree probe _) fun _ =>
      .bind respects_onBudget fun _ => .bind (respects_writeBigUInt64LE _ _ _) fun _ =>
        respects_writeBigUInt64LE _ _ _
  · exact .bind .require fun _ => .pure

/-- A command about memory does not depend on the cut. -/
theorem respects_observeMemoryCommand (probe : Bool) (command bytes : Nat) (header : List UInt8) :
    Respects Guard.Same (observeMemoryCommand probe command bytes header) := by
  refine .bind .require fun _ => .bind (respects_readInput bytes) fun request => ?_
  refine .bind (.when .require) fun _ => .bind (.ite (fun _ => ?_) fun _ => .pure) fun free => ?_
  · exact .bind respects_onBudget fun _ => .bind (respects_memoryBarrier probe) fun _ =>
      .bind respects_onBudget fun _ => .pure
  refine .bind (.when respects_onBudget) fun _ => .bind (respects_writeWorker header) fun _ =>
    .bind (respects_writeWorker request) fun _ => .ite (fun _ => ?_) fun _ => ?_
  · exact .bind (respects_memoryBarrier probe) fun _ => respects_onBudget
  · exact .bind (respects_response _) fun _ => .bind (respects_answer probe command _ _ _)
      fun _ => .bind (respects_writeClient _) fun _ => respects_writeClient _

/-! ### The connection -/

/-- What is done to the guard does not depend on the cut. -/
theorem respects_onGuard {α : Type} {x : Prog Guard RpcCode α} (h : Respects Guard.Same x) :
    Respects Observer.Same (onGuard x) := by
  refine .zoom h (fun _ _ hc => hc.1) ?_
  rintro c c' g g' ⟨-, heq⟩ hg
  exact ⟨hg, by rw [heq]⟩

/-- A change of the connection that leaves the guard alone. -/
theorem respects_beside {f : Observer → Observer} (hguard : ∀ c, (f c).guard = c.guard)
    (hf : ∀ c g, f { c with guard := g } = { f c with guard := g }) :
    Respects (ε := RpcCode) Observer.Same (modify f) := by
  refine .modify ?_
  rintro c c' ⟨hg, heq⟩
  refine ⟨?_, ?_⟩
  · rw [hguard, hguard]
    exact hg
  · rw [hguard]
    rw [heq, hf]

/-- The length of a frame does not depend on the cut. -/
theorem respects_frameLength {σ : Type} {R : σ → σ → Prop} (header : List UInt8) :
    Respects R (frameLength header) := .bind .require fun _ => .pure

/-- A loop that copies does not depend on the cut, if its reads and writes do not. -/
theorem respects_copyLoop {σ : Type} {R : σ → σ → Prop}
    {read : Nat → Prog σ RpcCode (List UInt8)} {forward : List UInt8 → Prog σ RpcCode Unit}
    (hread : ∀ n, Respects R (read n)) (hforward : ∀ chunk, Respects R (forward chunk))
    (fuel remaining : Nat) : Respects R (copyLoop read forward fuel remaining) := by
  induction fuel generalizing remaining with
  | zero => exact .pure
  | succ fuel ih =>
    exact .ite (fun _ => .pure) fun _ => .bind (hread _) fun chunk =>
      .bind (hforward chunk) fun _ => ih _

/-- The handshake does not depend on the cut. -/
theorem respects_observeHandshake : Respects Observer.Same observeHandshake := by
  have hcheck : ∀ hello, Respects Observer.Same (checkHello hello) := fun hello =>
    .bind .require fun _ => .bind (respects_frameLength _) fun _ => .require
  refine .bind (respects_onGuard (respects_readInput 9)) fun hello => .bind (hcheck hello) fun _ =>
    .bind (respects_onGuard (respects_readInput 24)) fun _ =>
      .bind (respects_onGuard (respects_writeWorker _)) fun _ => ?_
  exact .bind (respects_onGuard (respects_readOutput 8)) fun size =>
    .bind (respects_frameLength size) fun _ => .bind .require fun _ =>
      .bind (respects_onGuard (respects_readOutput 28)) fun _ =>
        .bind (respects_onGuard (respects_writeClient _)) fun _ =>
          respects_beside (fun _ => rfl) fun _ _ => rfl

/-- The transcript does not depend on the cut. -/
theorem respects_updateTranscript (bytes : List UInt8) :
    Respects Observer.Same (updateTranscript bytes) :=
  respects_beside (fun _ => rfl) fun _ _ => rfl

/-- A relayed computation does not depend on the cut. -/
theorem respects_relayCompute (lease : ComputeLease) (turn : Turn) (header : List UInt8)
    (bytes : Nat) : Respects Observer.Same (relayCompute lease turn header bytes) := by
  refine .bind (respects_onGuard (respects_readInput 4)) fun device => .bind .require fun _ =>
    .bind (respects_beside (fun _ => rfl) fun _ _ => rfl) fun _ =>
      .bind (respects_updateTranscript _) fun _ =>
        .bind (respects_onGuard (respects_writeWorker _)) fun _ =>
          .bind (respects_onGuard (respects_writeWorker _)) fun _ => .bind ?_ fun _ => ?_
  · exact respects_copyLoop (fun n => respects_onGuard (respects_readInput n)) (fun chunk =>
      .bind (respects_updateTranscript chunk) fun _ =>
        respects_onGuard (respects_writeWorker _)) _ _
  · exact .bind (respects_onGuard (respects_writeWorker _)) fun _ =>
      .bind (respects_onGuard (respects_readOutput 8)) fun size =>
        .bind (respects_frameLength size) fun _ => .bind .require fun _ =>
          .bind (respects_onGuard (respects_readOutput 16)) fun _ =>
            .bind (respects_updateTranscript _) fun _ =>
              .bind (respects_beside (fun _ => rfl) fun _ _ => rfl) fun _ => .require

/-- An observed computation does not depend on the cut. -/
theorem respects_observeCompute (hooks : Hooks) (header : List UInt8) (bytes : Nat) :
    Respects Observer.Same (observeCompute hooks header bytes) := by
  have hlease : Respects Observer.Same (leaseForCompute hooks) := by
    refine .get_bind ?_ fun c => .bind ?_ fun _ => .pure
    rotate_left
    · exact respects_beside (fun _ => rfl) fun _ _ => rfl
    rintro c c' ⟨-, heq⟩
    rw [heq]
  refine .bind hlease fun turn => .bind .require fun _ => ?_
  cases turn.lease with
  | none => exact .fail
  | some lease => exact .bind .require fun _ => respects_relayCompute lease turn header bytes

/-- A relayed command does not depend on the cut. -/
theorem respects_relayCommand (header : List UInt8) (command bytes : Nat) :
    Respects Guard.Same (relayCommand header command bytes) := by
  refine .bind (respects_writeWorker header) fun _ =>
    .bind (respects_copyLoop respects_readInput respects_writeWorker _ _) fun _ => .when ?_
  exact .bind (respects_readOutput 8) fun size => .bind (respects_frameLength size) fun _ =>
    .bind (respects_writeClient size) fun _ =>
      respects_copyLoop respects_readOutput respects_writeClient _ _

/-- An observed command does not depend on the cut. -/
theorem respects_observeCommand (hooks : Hooks) : Respects Observer.Same (observeCommand hooks) :=
  .bind (respects_onGuard (respects_readInput 1)) fun _ =>
    .bind (respects_onGuard (respects_readInput 8)) fun length =>
      .bind (respects_frameLength length) fun _ => .bind .require fun _ =>
        .ite (fun _ => respects_observeCompute hooks _ _) fun _ =>
          .ite (fun _ => respects_onGuard (respects_observeMemoryCommand _ _ _ _)) fun _ =>
            respects_onGuard (respects_relayCommand _ _ _)

/-- The loop over the commands does not depend on the cut. -/
theorem respects_observeCommands (hooks : Hooks) (fuel : Nat) :
    Respects Observer.Same (observeCommands hooks fuel) := by
  induction fuel with
  | zero => exact .pure
  | succ fuel ih => exact .bind (respects_observeCommand hooks) fun _ => ih

/-- The observer does not depend on the cut. -/
theorem respects_observeRpc (hooks : Hooks) : Respects Observer.Same (observeRpc hooks) := by
  refine .bind respects_observeHandshake fun _ => .get_bind ?_ fun _ =>
    respects_observeCommands hooks _
  rintro c c' ⟨⟨hin, -⟩, -⟩
  have hbytes : c.guard.input.bytes = c'.guard.input.bytes := hin
  rw [hbytes]

/-- **Chunk independence.** However the bytes of the two streams are cut into chunks, the guard ends
with the same error, has written the same bytes to the worker and to the client, and leaves the
same budget and the same metered leases behind.

**Proof sketch.** The observer is built of reads, which depend on the remaining bytes of a reader
only, and of steps that read nothing. So it respects the relation of two observers whose readers
have the same remaining bytes and which agree in all else (`respects_observeRpc`), and the two runs
start related. -/
theorem rpc_chunk_independence (hooks : Hooks) (physical : Nat → Physical)
    (budget : RpcMemoryBudget) (input output input' output' : Reader)
    (hin : input.bytes = input'.bytes) (hout : output.bytes = output'.bytes) :
    let run := observeRpc hooks (.start input output physical budget)
    let run' := observeRpc hooks (.start input' output' physical budget)
    run.1 = run'.1 ∧ run.2.guard.toWorker = run'.2.guard.toWorker ∧
      run.2.guard.toClient = run'.2.guard.toClient ∧ run.2.guard.budget = run'.2.guard.budget ∧
      run.2.handshake = run'.2.handshake ∧ run.2.metered = run'.2.metered := by
  have hstart : Observer.Same (.start input output physical budget)
      (.start input' output' physical budget) := ⟨⟨hin, hout, rfl⟩, rfl⟩
  obtain ⟨hresult, ⟨-, -, hguard⟩, hrest⟩ := respects_observeRpc hooks _ _ hstart
  refine ⟨hresult, ?_, ?_, ?_, ?_, ?_⟩
  · rw [hguard]
  · rw [hguard]
  · rw [hguard]
  · rw [hrest]
  · rw [hrest]

/-- A hello and a query of the devices, cut into chunks. -/
def helloClient : Reader :=
  ⟨[], [14 :: writeLE 8 24 ++ [1, 2, 3], List.replicate 21 0 ++ [15], writeLE 8 0]⟩

/-- The greeting and the reply to the query, cut into chunks. -/
def helloWorker : Reader :=
  ⟨[], [writeLE 8 28 ++ List.replicate 28 9, writeLE 8 4, [1, 0, 0, 0]]⟩

/-- A budget of a kilobyte, and no lease. -/
def helloHooks : Hooks := ⟨true, false, fun _ => ⟨none, 0, false, 0⟩⟩

/-- The connection of one query, from the chunks and from the same bytes in one chunk. -/
theorem rpc_chunk_independence_hello :
    ((observeRpc helloHooks (.start helloClient helloWorker (fun _ => .unavailable)
        ⟨1024, 128, Table.empty, 0, 0, 0⟩)).1 = .error .rpcEof ∧
      (observeRpc helloHooks (.start helloClient helloWorker (fun _ => .unavailable)
        ⟨1024, 128, Table.empty, 0, 0, 0⟩)).2.guard.toClient.length = 48) ∧
    (observeRpc helloHooks (.start helloClient helloWorker (fun _ => .unavailable)
      ⟨1024, 128, Table.empty, 0, 0, 0⟩)).2.guard.toClient =
      (observeRpc helloHooks (.start ⟨[], [helloClient.bytes]⟩ ⟨[], [helloWorker.bytes]⟩
        (fun _ => .unavailable) ⟨1024, 128, Table.empty, 0, 0, 0⟩)).2.guard.toClient := by
  refine ⟨by decide +kernel, ?_⟩
  exact (rpc_chunk_independence helloHooks (fun _ => .unavailable) _ helloClient helloWorker
    ⟨[], [helloClient.bytes]⟩ ⟨[], [helloWorker.bytes]⟩ (by simp [Reader.bytes])
    (by simp [Reader.bytes])).2.2.1

end NetworkAi.Rpc
