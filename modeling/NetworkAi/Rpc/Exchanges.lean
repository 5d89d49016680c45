import NetworkAi.Rpc.Budget
import NetworkAi.Rpc.Observe

set_option relaxedAutoImplicit false
set_option autoImplicit false

/-!
# The exchanges of the guard

What one command of the engine makes of the two streams. A command that is relayed is an exchange:
its frame, the replies that were read from the worker for it, and the answer of the engine. A
command that fails is cut short in one of a few ways. Whatever was forwarded of a frame, the frame
had passed the checks of its command, against the account of the buffers as it was then and the
free memory that the worker had just reported.

## Main definitions

* `NetworkAi.Rpc.Exchange` — what happens for one frame; `NetworkAi.Rpc.Exchange.Served` — one
  that the guard completes.
* `NetworkAi.Rpc.Check` — what the checks of a command go by.
* `NetworkAi.Rpc.Frame.Passes` — a frame that passes them.
* `NetworkAi.Rpc.Cut` — what a command that fails leaves behind.
* `NetworkAi.Rpc.Moved` — what moved on the streams since the start of a command.
* `NetworkAi.Rpc.Metered` — the leases that the compute frames were charged to.

## Main results

* `NetworkAi.Rpc.ensures_memoryCommand`, `NetworkAi.Rpc.ensures_relayCommand` and
  `NetworkAi.Rpc.ensures_relayCompute` — the three kinds of commands.
-/

namespace NetworkAi.Rpc

open Stateful

/-! ### Frames and exchanges -/

/-- A frame of the client. -/
structure Frame where
  command : UInt8
  body : List UInt8
  deriving DecidableEq, Repr

/-- The bytes of a frame. -/
def Frame.encode (f : Frame) : List UInt8 := f.command :: (writeLE 8 f.body.length ++ f.body)

/-- The bytes of a reply. -/
def reply (body : List UInt8) : List UInt8 := writeLE 8 body.length ++ body

/-- What happens for one frame: the replies of the worker to the query before the frame, to the
frame itself and to the query after it, and the answer of the client. -/
structure Exchange where
  frame : Frame
  before : Option (List UInt8)
  own : Option (List UInt8)
  after : Option (List UInt8)
  answer : Option (List UInt8)

/-- A query of the guard's own, if there is one. -/
def queryIf (query : Bool) : List UInt8 := if query then memoryQuery else []

/-- What reaches the worker for the frame. -/
def Exchange.sent (x : Exchange) : List UInt8 :=
  queryIf x.before.isSome ++ x.frame.encode ++ queryIf x.after.isSome

/-- The replies of the worker, in order. -/
def Exchange.replies (x : Exchange) : List (List UInt8) :=
  x.before.toList ++ x.own.toList ++ x.after.toList

/-- What is read from the worker for the frame. -/
def Exchange.received (x : Exchange) : List UInt8 := x.replies.flatMap reply

/-- What reaches the client for the frame. -/
def Exchange.answered (x : Exchange) : List UInt8 := x.answer.toList.flatMap reply

/-- The answer that the client gets for a reply: the reply, but for the sizes that the memory
budget clips. -/
inductive Clipped (hooks : Hooks) (command : Nat) (body : List UInt8) : List UInt8 → Prop where
  | same : Clipped hooks command body body
  | size {n : Nat} (hbudget : hooks.memoryBudget = true) (hcommand : command = 2)
      (hn : n ≤ readU64 body 0) : Clipped hooks command body (setU64 body 0 n)
  | memory {free total : Nat} (hbudget : hooks.memoryBudget = true) (hcommand : command = 11)
      (hfree : free ≤ readU64 body 0) (htotal : total ≤ readU64 body 8) :
      Clipped hooks command body (setU64 (setU64 body 0 free) 8 total)

/-- An exchange that the guard completes. -/
structure Exchange.Served (hooks : Hooks) (x : Exchange) : Prop where
  command : x.frame.command.toNat ≤ 17 ∧ x.frame.command.toNat ≠ 14
  length : x.frame.body.length ≤ maxFrame
  before : x.before.isSome = true ↔ hooks.memoryBudget = true ∧ x.frame.command.toNat = 0
  own : x.own.isSome = true ↔ hasResponse x.frame.command.toNat
  after : x.after.isSome = true ↔ computing x.frame.command.toNat ∨
    (hooks.memoryBudget = true ∧ x.frame.command.toNat = 4)
  answer : Option.Rel (Clipped hooks x.frame.command.toNat) x.own x.answer
  replies : ∀ body ∈ x.replies, body.length ≤ maxFrame

/-! ### What the checks go by -/

/-- What the guard knows beside its streams: the account of the buffers, and how many observations
of the physical memory it has made. -/
structure Stock where
  account : RpcMemoryBudget
  observed : Nat

/-- The stock of a guard. -/
def Guard.stock (g : Guard) : Stock := ⟨g.budget, g.observed⟩

/-- The stock after an observation of the physical memory, if there is a probe. -/
def Stock.probed (hooks : Hooks) (s : Stock) : Stock :=
  if hooks.memoryFreeBytes = true then { s with observed := s.observed + 1 } else s

/-- The stock after the reply to a memory command. -/
def Stock.replied (hooks : Hooks) (s : Stock) (command : Nat) (body : List UInt8) : Stock :=
  if command = 0 then { s with account := s.account.allocation body }
  else if command = 11 then s.probed hooks
  else s

/-- The stock after the query before a frame. -/
def Stock.queried (hooks : Hooks) (s : Stock) (command : Nat) : Stock :=
  if command = 0 then s.probed hooks else s

/-- **The stock after an exchange**: the reply to an allocation is accounted for, and a free takes
out its buffer. -/
def Exchange.stock (hooks : Hooks) (x : Exchange) (s : Stock) : Stock :=
  if hooks.memoryBudget = true ∧ memoryRequestLength x.frame.command.toNat ≠ none then
    if x.frame.command.toNat = 4 then
      { s.probed hooks with account := s.account.drop (readU64 x.frame.body 0) }
    else (s.queried hooks x.frame.command.toNat).replied hooks x.frame.command.toNat
      (x.own.getD [])
  else s

/-- What the checks of a command go by: the account, the next observation of the physical memory,
and what a compute command meets. -/
structure Check where
  hooks : Hooks
  account : RpcMemoryBudget
  physical : Physical
  turn : Turn

/-- The check of the next command, for what was observed and how many compute commands came. -/
def Stock.check (s : Stock) (hooks : Hooks) (physical : Nat → Physical) (asked : Nat) : Check :=
  ⟨hooks, s.account, physical s.observed, hooks.turns asked⟩

/-- The check of the next command of a guard. -/
def Guard.check (g : Guard) (hooks : Hooks) (asked : Nat) : Check :=
  g.stock.check hooks g.physical asked

/-- The bytes that an observation found free. -/
def Physical.bytes : Physical → Int
  | .unavailable => 0
  | .free n => n

/-- The free memory that the guard goes by when the worker has reported some. -/
def Check.free (k : Check) (reported : Int) : Int :=
  if k.hooks.memoryFreeBytes = true then min reported k.physical.bytes else reported

/-- **A frame passes the checks** that are made before anything of it is forwarded: its command is
one of the protocol; a compute frame has a lease that is reserved and admits it; a memory command
has its length; both are for the first device; an allocation is within the budget, and within the
headroom of the free memory that the worker replied to the query before it; and a free names a live
buffer. -/
structure Frame.Passes (k : Check) (f : Frame) (query : List UInt8) : Prop where
  command : f.command.toNat ≤ 17 ∧ f.command.toNat ≠ 14
  length : f.body.length ≤ maxFrame
  compute : computing f.command.toNat → readU32 f.body = 0 ∧
    ∃ lease, k.turn.lease = some lease ∧ k.turn.reserved (some lease) ∧
      lease.admits f.body.length
  memory : k.hooks.memoryBudget = true → ∀ n, memoryRequestLength f.command.toNat = some n →
    f.body.length = n
  device : k.hooks.memoryBudget = true → f.command.toNat ∈ [0, 2, 11] → readU32 f.body = 0
  allocation : k.hooks.memoryBudget = true → f.command.toNat = 0 →
    k.account.withinBudget (readU64 f.body 4) ∧
      k.account.hasHeadroom (readU64 f.body 4) (some (k.free (readU64 query 0)))
  buffer : k.hooks.memoryBudget = true → f.command.toNat = 4 →
    k.account.buffers.find? (readU64 f.body 0) ≠ none

/-- The frame of an exchange passes the checks, with the reply to the query before it. -/
def Exchange.Passes (k : Check) (x : Exchange) : Prop := x.frame.Passes k (x.before.getD [])

/-- A frame that is checked by the account of the buffers. -/
def Check.accounts (k : Check) (f : Frame) : Prop :=
  k.hooks.memoryBudget = true ∧ memoryRequestLength f.command.toNat ≠ none

/-- The replies to the queries that may come before a frame. -/
def repliesOf (before : Option (List UInt8)) : List UInt8 := before.toList.flatMap reply

/-- **What the frame that ends a connection leaves behind**: nothing, if it is refused; the query
before an allocation that is within the budget; a part of a frame that is not checked by the
account and passes the other checks, if the stream of the client ends in it; or a frame that
passes the checks, with the queries that belong to it, and a part of the reply of the worker. -/
inductive Cut (k : Check) (input output : List UInt8) :
    RpcCode → List UInt8 → List UInt8 → Prop where
  | refused {e : RpcCode} : Cut k input output e [] []
  | unfit {f : Frame} {e : RpcCode} (hf : f.encode <+: input) (hcommand : f.command.toNat = 0)
      (hbudget : k.hooks.memoryBudget = true) (hlength : f.body.length = 12)
      (hdevice : readU32 f.body = 0) (hwithin : k.account.withinBudget (readU64 f.body 4))
      (he : e.refusal = false) : Cut k input output e memoryQuery []
  | short {f : Frame} {sent : List UInt8} (hf : input <+: f.encode)
      (hshort : input.length < f.encode.length) (hpasses : f.Passes k [])
      (hplain : ¬ k.accounts f) (hsent : sent <+: input) : Cut k input output .rpcEof sent []
  | unanswered {f : Frame} {before : Option (List UInt8)} {after : Bool} {e : RpcCode}
      {answered : List UInt8} (hf : f.encode <+: input) (hpasses : f.Passes k (before.getD []))
      (hbefore : before.isSome = true ↔ k.hooks.memoryBudget = true ∧ f.command.toNat = 0)
      (hquery : repliesOf before <+: output)
      (hafter : after = true → computing f.command.toNat ∨ f.command.toNat = 4)
      (he : e.refusal = false) (hanswered : answered <+: output) :
      Cut k input output e (queryIf before.isSome ++ f.encode ++ queryIf after) answered

/-! ### What moved since the start of a command -/

/-- Since the guard was `g₀`, `read` was read from the client and `received` from the worker,
`sent` was written to the worker and `answered` to the client, and the stock has become `s`. -/
structure Moved (g₀ : Guard) (s : Stock) (read received sent answered : List UInt8) (g : Guard) :
    Prop where
  input : g₀.input.bytes = read ++ g.input.bytes
  output : g₀.output.bytes = received ++ g.output.bytes
  toWorker : g.toWorker = g₀.toWorker ++ sent
  toClient : g.toClient = g₀.toClient ++ answered
  physical : g.physical = g₀.physical
  stock : g.stock = s

/-- The command failed, and left behind what a cut frame does. -/
def Failed (hooks : Hooks) (asked : Nat) (g₀ : Guard) (e : RpcCode) (g : Guard) : Prop :=
  ∃ sent answered, g.toWorker = g₀.toWorker ++ sent ∧ g.toClient = g₀.toClient ++ answered ∧
    Cut (g₀.check hooks asked) g₀.input.bytes g₀.output.bytes e sent answered

/-- What moved until a command failed is what its cut frame left behind. -/
theorem Moved.failed {hooks : Hooks} {asked : Nat} {g₀ g : Guard} {s : Stock}
    {read received sent answered : List UInt8} {e : RpcCode}
    (h : Moved g₀ s read received sent answered g)
    (hcut : Cut (g₀.check hooks asked) g₀.input.bytes g₀.output.bytes e sent answered) :
    Failed hooks asked g₀ e g :=
  ⟨sent, answered, h.toWorker, h.toClient, hcut⟩

/-- Nothing has moved yet. -/
theorem Moved.start (g₀ : Guard) : Moved g₀ g₀.stock [] [] [] [] g₀ :=
  ⟨rfl, rfl, by simp, by simp, rfl, rfl⟩

section Steps

variable {g₀ : Guard} {s : Stock} {read received sent answered : List UInt8} {α : Type}
  {E : RpcCode → Guard → Prop}

/-- A read from the client moves bytes, or finds fewer than it was to read. -/
theorem ensures_readInput (n : Nat) :
    Ensures (Moved g₀ s read received sent answered) (readInput n)
      (fun bytes g => Moved g₀ s (read ++ bytes) received sent answered g ∧ bytes.length = n)
      fun e g => e = .rpcEof ∧ Moved g₀ s read received sent answered g ∧
        g.input.bytes.length < n := by
  intro g hg
  unfold readInput zoom
  rcases Reader.read_cases n g.input with ⟨hle, r, hread, hrest⟩ | ⟨hshort, hread⟩
  · rw [hread]
    refine ⟨⟨?_, hg.output, hg.toWorker, hg.toClient, hg.physical, hg.stock⟩,
      List.length_take_of_le hle⟩
    show _ = read ++ g.input.bytes.take n ++ r.bytes
    rw [hrest, List.append_assoc, List.take_append_drop]
    exact hg.input
  · rw [hread]
    exact ⟨rfl, ⟨hg.input, hg.output, hg.toWorker, hg.toClient, hg.physical, hg.stock⟩, hshort⟩

/-- A read from the worker moves bytes, or fails. -/
theorem ensures_readOutput (n : Nat) :
    Ensures (Moved g₀ s read received sent answered) (readOutput n)
      (fun bytes g => Moved g₀ s read (received ++ bytes) sent answered g ∧ bytes.length = n)
      fun e g => e = .rpcEof ∧ Moved g₀ s read received sent answered g := by
  intro g hg
  unfold readOutput zoom
  rcases Reader.read_cases n g.output with ⟨hle, r, hread, hrest⟩ | ⟨hshort, hread⟩
  · rw [hread]
    refine ⟨⟨hg.input, ?_, hg.toWorker, hg.toClient, hg.physical, hg.stock⟩,
      List.length_take_of_le hle⟩
    show _ = received ++ g.output.bytes.take n ++ r.bytes
    rw [hrest, List.append_assoc, List.take_append_drop]
    exact hg.output
  · rw [hread]
    exact ⟨rfl, hg.input, hg.output, hg.toWorker, hg.toClient, hg.physical, hg.stock⟩

/-- A write to the worker moves its bytes. -/
theorem ensures_writeWorker (bytes : List UInt8) :
    Ensures (Moved g₀ s read received sent answered) (writeWorker bytes)
      (fun _ => Moved g₀ s read received (sent ++ bytes) answered) E :=
  .modify fun _ hg => ⟨hg.input, hg.output, by rw [← List.append_assoc, ← hg.toWorker],
    hg.toClient, hg.physical, hg.stock⟩

/-- A write to the client moves its bytes. -/
theorem ensures_writeClient (bytes : List UInt8) :
    Ensures (Moved g₀ s read received sent answered) (writeClient bytes)
      (fun _ => Moved g₀ s read received sent (answered ++ bytes)) E :=
  .modify fun _ hg => ⟨hg.input, hg.output, hg.toWorker, by
    rw [← List.append_assoc, ← hg.toClient], hg.physical, hg.stock⟩

/-- A line that reads from the client. -/
theorem ensures_readInput_bind {n : Nat} {f : List UInt8 → Prog Guard RpcCode α}
    {Q : α → Guard → Prop}
    (hshort : ∀ g, Moved g₀ s read received sent answered g → g.input.bytes.length < n →
      E .rpcEof g)
    (hf : ∀ bytes, bytes.length = n →
      Ensures (Moved g₀ s (read ++ bytes) received sent answered) (f bytes) Q E) :
    Ensures (Moved g₀ s read received sent answered) (readInput n >>= f) Q E := by
  refine .bind ((ensures_readInput n).mono (fun _ h => h) (fun _ _ h => h) ?_) fun bytes =>
    .assume (hf bytes)
  rintro e g ⟨rfl, hg, hlt⟩
  exact hshort g hg hlt

/-- A line that reads from the worker. -/
theorem ensures_readOutput_bind {n : Nat} {f : List UInt8 → Prog Guard RpcCode α}
    {Q : α → Guard → Prop}
    (hshort : ∀ g, Moved g₀ s read received sent answered g → E .rpcEof g)
    (hf : ∀ bytes, bytes.length = n →
      Ensures (Moved g₀ s read (received ++ bytes) sent answered) (f bytes) Q E) :
    Ensures (Moved g₀ s read received sent answered) (readOutput n >>= f) Q E := by
  refine .bind ((ensures_readOutput n).mono (fun _ h => h) (fun _ _ h => h) ?_) fun bytes =>
    .assume (hf bytes)
  rintro e g ⟨rfl, hg⟩
  exact hshort g hg

/-- A line that checks the length of a frame. -/
theorem ensures_frameLength_bind {σ : Type} {P : σ → Prop} {E : RpcCode → σ → Prop}
    {header : List UInt8} {f : Nat → Prog σ RpcCode α} {Q : α → σ → Prop}
    (hfail : ∀ s, P s → E .rpcFrameLimit s)
    (hf : readLE header ≤ maxFrame → Ensures P (f (readLE header)) Q E) :
    Ensures P (frameLength header >>= f) Q E := by
  refine .bind (R := fun n s => P s ∧ (readLE header ≤ maxFrame ∧ n = readLE header))
    (.check (fun _ => hfail) fun hc => .pure fun s hs => ⟨hs, hc, rfl⟩) fun n => .assume ?_
  rintro ⟨hc, rfl⟩
  exact hf hc

end Steps

/-! ### Numbers and frames -/

/-- The bytes of a number are those that it was read from. -/
theorem writeLE_readLE (bytes : List UInt8) : writeLE bytes.length (readLE bytes) = bytes := by
  induction bytes with
  | nil => rfl
  | cons b bytes ih =>
    have hb := b.toNat_lt
    have hdiv : (b.toNat + 256 * readLE bytes) / 256 = readLE bytes := by omega
    have hmod : UInt8.ofNat (b.toNat + 256 * readLE bytes) = b := by
      refine UInt8.toNat_inj.1 ?_
      rw [UInt8.toNat_ofNat']
      omega
    rw [List.length_cons, readLE, writeLE, hdiv, hmod, ih]

/-- Eight bytes are the length they stand for. -/
theorem writeLE_of_readLE {bytes : List UInt8} {n : Nat} (hlength : bytes.length = 8)
    (hn : readLE bytes = n) : writeLE 8 n = bytes := by
  rw [← hn, ← hlength]
  exact writeLE_readLE bytes

/-- Eight bytes are one number. -/
theorem readU64_eq_readLE {bytes : List UInt8} (h : bytes.length = 8) :
    readU64 bytes 0 = readLE bytes := by
  rw [readU64, List.drop_zero, List.take_of_length_le (by omega)]

/-- A header and a body of the length that it announces are a frame. -/
theorem header_append_body {commandByte length body : List UInt8} {command : UInt8}
    (hcommand : commandByte = [command]) (hlength : length.length = 8)
    (hbody : body.length = readLE length) :
    commandByte ++ length ++ body = Frame.encode ⟨command, body⟩ := by
  rw [hcommand, Frame.encode, hbody, writeLE_of_readLE hlength rfl]
  rfl

/-- A size and a body of that size are a reply. -/
theorem reply_of_size {size body : List UInt8} (hsize : size.length = 8)
    (hbody : readLE size = body.length) : size ++ body = reply body := by
  rw [reply, writeLE_of_readLE hsize hbody]

/-- A number is written over bytes that are there. -/
theorem setU64_length {body : List UInt8} {offset n : Nat} (h : offset + 8 ≤ body.length) :
    (setU64 body offset n).length = body.length := by
  simp only [setU64, List.length_append, List.length_take, writeLE_length, List.length_drop]
  omega

/-! ### Copies -/

/-- **A copy**: what is done is extended by chunks, until all of it is done. -/
theorem ensures_copyLoop {σ : Type} (read : Nat → Prog σ RpcCode (List UInt8))
    (forward : List UInt8 → Prog σ RpcCode Unit) (bytes : Nat) {P : List UInt8 → σ → Prop}
    {R : List UInt8 → List UInt8 → σ → Prop} {E : RpcCode → σ → Prop}
    (hread : ∀ n done, done.length + n ≤ bytes →
      Ensures (P done) (read n) (fun chunk s => R done chunk s ∧ chunk.length = n) E)
    (hforward : ∀ done chunk, Ensures (R done chunk) (forward chunk) (fun _ => P (done ++ chunk)) E)
    (fuel remaining : Nat) (done : List UInt8) (hdone : done.length + remaining = bytes)
    (hfuel : remaining ≤ fuel) :
    Ensures (P done) (copyLoop read forward fuel remaining)
      (fun _ s => ∃ all, P all s ∧ all.length = bytes) E := by
  induction fuel generalizing remaining done with
  | zero => exact .pure fun s hs => ⟨done, hs, by omega⟩
  | succ fuel ih =>
    refine .ite (fun hzero => .pure fun s hs => ⟨done, hs, by omega⟩) fun hmore => ?_
    refine .bind (hread _ done (by omega)) fun chunk => .assume fun hchunk => ?_
    refine .bind (hforward done chunk) fun _ => ih _ _ ?_ ?_
    · rw [List.length_append]
      omega
    · omega

/-! ### The parts of a memory command -/

/-- The worker's side of a command failed: what was written is written, and at least `received` was
read from the worker. -/
def Stuck (g₀ : Guard) (read received sent answered : List UInt8) (e : RpcCode) (g : Guard) : Prop :=
  e.refusal = false ∧ ∃ s all, received <+: all ∧ Moved g₀ s read all sent answered g

/-- A reading of the free memory leaves the account alone. -/
@[simp] theorem Stock.probed_account (hooks : Hooks) (s : Stock) :
    (s.probed hooks).account = s.account := by
  unfold probed
  split
  · rfl
  · rfl

section Worker

variable {hooks : Hooks} {g₀ : Guard} {s : Stock}
  {read received sent answered : List UInt8}

/-- A command may fail wherever it is, after what was read from the worker. -/
theorem Moved.stuck {more : List UInt8} {e : RpcCode} {g : Guard}
    (h : Moved g₀ s read (received ++ more) sent answered g) (he : e.refusal = false) :
    Stuck g₀ read received sent answered e g :=
  ⟨he, s, _, List.prefix_append _ _, h⟩

/-- A command may fail where it is. -/
theorem Moved.stuck_here {e : RpcCode} {g : Guard} (h : Moved g₀ s read received sent answered g)
    (he : e.refusal = false) : Stuck g₀ read received sent answered e g :=
  ⟨he, s, received, List.prefix_rfl, h⟩

/-- What was read for a part of a command was read for the whole. -/
theorem Stuck.weaken {more : List UInt8} {e : RpcCode} {g : Guard}
    (h : Stuck g₀ read (received ++ more) sent answered e g) :
    Stuck g₀ read received sent answered e g := by
  obtain ⟨he, s, all, hall, hg⟩ := h
  exact ⟨he, s, all, (List.prefix_append _ _).trans hall, hg⟩

/-- A reply of the worker is of the length that was expected. -/
theorem ensures_response (n : Nat) :
    Ensures (Moved g₀ s read received sent answered) (response n)
      (fun r g => Moved g₀ s read (received ++ reply r.2) sent answered g ∧
        (r.1 = writeLE 8 n ∧ r.2.length = n))
      (Stuck g₀ read received sent answered) := by
  refine ensures_readOutput_bind (fun g hg => hg.stuck_here rfl) fun size hsize => ?_
  refine .check (fun _ g hg => hg.stuck rfl) fun hlength => ?_
  refine ensures_readOutput_bind (fun g hg => hg.stuck rfl) fun body hbody => .pure fun g hg => ?_
  rw [readU64_eq_readLE hsize] at hlength
  refine ⟨?_, (writeLE_of_readLE hsize hlength).symm, hbody⟩
  rw [← reply_of_size hsize (hlength.trans hbody.symm), ← List.append_assoc]
  exact hg

/-- An operation on the account of the guard. -/
theorem ensures_onBudget {α : Type} {x : Prog RpcMemoryBudget RpcCode α} {b : RpcMemoryBudget}
    {Q : α → Prop} (h : Accounts s.account b x Q) :
    Ensures (Moved g₀ s read received sent answered) (onBudget x)
      (fun a g => Moved g₀ { s with account := b } read received sent answered g ∧ Q a)
      (Stuck g₀ read received sent answered) := by
  refine .zoom fun g hg => ?_
  have haccount : g.budget = s.account := congrArg Stock.account hg.stock
  have hobserved : g.observed = s.observed := congrArg Stock.observed hg.stock
  refine Ensures.mono h (fun _ hb => hb.trans haccount) ?_ fun e b' hx => ?_
  · rintro a b' ⟨rfl, hQ⟩
    exact ⟨⟨hg.input, hg.output, hg.toWorker, hg.toClient, hg.physical,
      congrArg (Stock.mk b') hobserved⟩, hQ⟩
  · exact ⟨hx.1, _, received, List.prefix_rfl, hg.input, hg.output, hg.toWorker, hg.toClient,
      hg.physical, rfl⟩

/-- A line that operates on the account. -/
theorem ensures_onBudget_bind {α β : Type} {x : Prog RpcMemoryBudget RpcCode α}
    {b : RpcMemoryBudget} {Q : α → Prop} {f : α → Prog Guard RpcCode β} {R : β → Guard → Prop}
    (h : Accounts s.account b x Q)
    (hf : ∀ a, Q a → Ensures (Moved g₀ { s with account := b } read received sent answered) (f a) R
      (Stuck g₀ read received sent answered)) :
    Ensures (Moved g₀ s read received sent answered) (onBudget x >>= f) R
      (Stuck g₀ read received sent answered) :=
  .bind (ensures_onBudget h) fun a => .assume (hf a)

/-- An observation of the physical memory is the next one. -/
theorem ensures_observePhysical :
    Ensures (Moved g₀ s read received sent answered) observePhysical
      (fun seen g => Moved g₀ { s with observed := s.observed + 1 } read received sent answered g ∧
        seen = g₀.physical s.observed) (Stuck g₀ read received sent answered) := by
  refine .bind (R := fun g' g => Moved g₀ s read received sent answered g ∧
    g'.physical g'.observed = g₀.physical s.observed) (.get fun g h => ⟨h, ?_⟩) fun g' =>
      .assume fun hseen => .bind (R := fun _ => Moved g₀ { s with observed := s.observed + 1 } read
        received sent answered) (.modify fun g h => ?_) fun _ => .pure fun g h => ⟨h, hseen⟩
  · rw [h.physical, ← h.stock]
    rfl
  · exact ⟨h.input, h.output, h.toWorker, h.toClient, h.physical, by rw [← h.stock]; rfl⟩

/-- **The free memory** that the guard goes by, after an observation if there is a probe. -/
theorem ensures_conservativeFree (asked : Nat) (reported : Int) :
    Ensures (Moved g₀ s read received sent answered)
      (conservativeFree hooks.memoryFreeBytes reported)
      (fun free g => Moved g₀ (s.probed hooks) read received sent answered g ∧
        free = (s.check hooks g₀.physical asked).free reported)
      (Stuck g₀ read received sent answered) := by
  refine .ite (fun hprobe => .bind ensures_observePhysical fun seen => .assume ?_)
    fun hprobe => .pure fun g hg => ⟨?_, (if_neg hprobe).symm⟩
  · rintro rfl
    have hfree : (s.check hooks g₀.physical asked).free reported =
        min reported (g₀.physical s.observed).bytes := if_pos hprobe
    rw [hfree, Stock.probed, if_pos hprobe]
    cases g₀.physical s.observed with
    | unavailable => exact .fail fun g hg => hg.stuck_here rfl
    | free physical =>
      exact .check (fun _ g hg => hg.stuck_here rfl) fun _ => .pure fun g hg => ⟨hg, rfl⟩
  · rw [Stock.probed, if_neg hprobe]
    exact hg

/-- The guard's own query, and the reply to it. -/
theorem ensures_memoryBarrier (asked : Nat) :
    Ensures (Moved g₀ s read received sent answered) (memoryBarrier hooks.memoryFreeBytes)
      (fun free g => ∃ body : List UInt8,
        Moved g₀ (s.probed hooks) read (received ++ reply body) (sent ++ memoryQuery) answered g ∧
          (body.length = 16 ∧ free = (s.check hooks g₀.physical asked).free (readU64 body 0)))
      (Stuck g₀ read received (sent ++ memoryQuery) answered) := by
  refine .bind (ensures_writeWorker memoryQuery) fun _ => .bind (ensures_response 16) fun r =>
    .assume fun hr => .check (fun _ g hg => hg.stuck rfl) fun _ => ?_
  exact (ensures_conservativeFree asked _).mono (fun _ h => h) (fun _ _ h => ⟨r.2, h.1, hr.2, h.2⟩)
    fun _ _ h => h.weaken

/-- The free memory that the guard goes by is no more than was reported. -/
theorem Check.free_le (k : Check) (reported : Int) : k.free reported ≤ reported := by
  unfold free
  split
  · exact min_le_left _ _
  · exact le_refl _

/-- **What the client is answered** for a reply, which is accounted for if it is an allocation's.

**Proof sketch.** By the command. The reply to an allocation is answered as it is, once the account
has it. The greatest size and the free memory are clipped by what remains of the budget, which
never shows more than the worker said. -/
theorem ensures_answer (hbudget : hooks.memoryBudget = true) {command : Nat}
    (requested freeBefore : Int) {body : List UInt8} (hreserve : 0 ≤ s.account.reserve)
    (hbody : body.length = memoryReplyLength command) :
    Ensures (Moved g₀ s read received sent answered)
      (answer hooks.memoryFreeBytes command requested freeBefore body)
      (fun out g => Moved g₀ (s.replied hooks command body) read received sent answered g ∧
        (Clipped hooks command body out ∧ out.length = body.length))
      (Stuck g₀ read received sent answered) := by
  have hwrite (s : Stock) (body : List UInt8) (offset : Nat) (value : Int) :
      Ensures (Moved g₀ s read received sent answered) (writeBigUInt64LE body offset value)
        (fun out g => Moved g₀ s read received sent answered g ∧
          (0 ≤ value ∧ out = setU64 body offset value.toNat))
        (Stuck g₀ read received sent answered) :=
    .check (fun _ g hg => hg.stuck_here rfl) fun hv => .pure fun g hg => ⟨hg, hv.1, rfl⟩
  -- the stock is as it was after a command that is not accounted for
  have hsame (h0 : command ≠ 0) (h11 : command ≠ 11) : s.replied hooks command body = s := by
    rw [Stock.replied, if_neg h0, if_neg h11]
  refine .ite (fun h0 => ?_) fun h0 => .ite (fun h2 => ?_) fun h2 => .ite (fun h11 => ?_)
    fun h11 => .ite (fun _ => ?_) fun _ => .pure fun g hg => ⟨?_, .same, rfl⟩
  · rw [Stock.replied, if_pos h0]
    refine ensures_onBudget_bind (accounts_requireAllocation _ _ _) fun _ _ => ?_
    refine ensures_onBudget_bind (accounts_allocated _ _ _) fun _ _ => ?_
    exact .pure fun g hg => ⟨hg, .same, rfl⟩
  · -- the greatest size: no more than the worker said
    have hlength : body.length = 8 := by rw [hbody, h2]; rfl
    rw [hsame h0 (by omega)]
    refine .bind (R := fun _ => Moved g₀ s read received sent answered) (.get fun _ h => h) fun g =>
      (hwrite s body 0 _).mono (fun _ h => h) ?_ fun _ _ h => h
    rintro out g' ⟨hg', hpos, rfl⟩
    refine ⟨hg', .size hbudget h2 ?_, setU64_length (by omega)⟩
    have hle := min_le_left (readU64 body 0 : Int) g.budget.remaining
    omega
  · have hlength : body.length = 16 := by rw [hbody, h11]; rfl
    rw [Stock.replied, if_neg h0, if_pos h11]
    refine .check (fun _ g hg => hg.stuck_here rfl) fun _ => ?_
    refine .bind (ensures_conservativeFree 0 _) fun free => .assume fun hfree => ?_
    refine ensures_onBudget_bind (accounts_memory _ _ _) fun visible hvisible => ?_
    rw [Stock.probed_account] at hvisible
    refine .bind (hwrite _ body 0 _) fun withFree => .assume ?_
    rintro ⟨hpos, rfl⟩
    refine (hwrite _ _ 8 _).mono (fun _ h => h) ?_ fun _ _ h => h
    rintro out g' ⟨hg', htotal, rfl⟩
    have hfirst : (setU64 body 0 visible.1.toNat).length = body.length :=
      setU64_length (by omega)
    have hle := (s.check hooks g₀.physical 0).free_le (readU64 body 0)
    rw [← hfree] at hle
    refine ⟨hg', .memory hbudget h11 ?_ ?_, (setU64_length (by omega)).trans hfirst⟩
    · have hshown := hvisible.1
      split at hshown
      · omega
      · omega
    · omega
  · rw [hsame h0 h11]
    exact .check (fun _ g hg => hg.stuck_here rfl) fun _ => .pure fun g hg => ⟨hg, .same, rfl⟩
  · rw [hsame h0 h11]
    exact hg

end Worker

/-- The command was relayed: its exchange is complete, and its frame passed the checks. -/
def Completed (hooks : Hooks) (asked : Nat) (g₀ : Guard) (command : UInt8) (g : Guard) : Prop :=
  ∃ x : Exchange, x.Served hooks ∧ x.frame.command = command ∧ x.Passes (g₀.check hooks asked) ∧
    Moved g₀ (x.stock hooks g₀.stock) x.frame.encode x.received x.sent x.answered g

/-- The commands that the budget bounds. -/
theorem memoryRequestLength_ne_none {command : Nat} (h : memoryRequestLength command ≠ none) :
    command = 0 ∨ command = 2 ∨ command = 4 ∨ command = 11 ∨ command = 15 := by
  unfold memoryRequestLength at h
  split at h
  · exact .inl rfl
  · exact .inr (.inl rfl)
  · exact .inr (.inr (.inl rfl))
  · exact .inr (.inr (.inr (.inl rfl)))
  · exact .inr (.inr (.inr (.inr rfl)))
  · exact absurd rfl h

section Memory

variable {hooks : Hooks} {asked : Nat} {g₀ : Guard} {f : Frame}

/-- What follows a frame that was forwarded does not refuse it. -/
theorem Stuck.failed (before : Option (List UInt8)) (after : Bool) {e : RpcCode} {g : Guard}
    (h : Stuck g₀ f.encode (repliesOf before)
      (queryIf before.isSome ++ f.encode ++ queryIf after) [] e g)
    (hpasses : f.Passes (g₀.check hooks asked) (before.getD []))
    (hbefore : before.isSome = true ↔ hooks.memoryBudget = true ∧ f.command.toNat = 0)
    (hafter : after = true → computing f.command.toNat ∨ f.command.toNat = 4) :
    Failed hooks asked g₀ e g := by
  obtain ⟨he, s, all, hall, hg⟩ := h
  have houtput : all <+: g₀.output.bytes := ⟨g.output.bytes, hg.output.symm⟩
  refine hg.failed (.unanswered ⟨g.input.bytes, hg.input.symm⟩ hpasses hbefore
    (hall.trans houtput) hafter he ?_)
  exact List.nil_prefix

/-- A command that fails before anything was written. -/
theorem Stuck.refused {read received : List UInt8} {e : RpcCode} {g : Guard}
    (h : Stuck g₀ read received [] [] e g) : Failed hooks asked g₀ e g := by
  obtain ⟨he, s, all, -, hg⟩ := h
  exact hg.failed .refused

/-- What the checks of a memory request leave open until the account is looked at. -/
structure Frame.Requests (hooks : Hooks) (f : Frame) : Prop where
  budget : hooks.memoryBudget = true
  memory : memoryRequestLength f.command.toNat = some f.body.length
  device : f.command.toNat ∈ [0, 2, 11] → readU32 f.body = 0
  length : f.body.length ≤ maxFrame

/-- A memory request passes the checks once the account allows it. -/
theorem Frame.Requests.passes {k : Check} {query : List UInt8} (h : f.Requests hooks)
    (hallocation : f.command.toNat = 0 → k.account.withinBudget (readU64 f.body 4) ∧
      k.account.hasHeadroom (readU64 f.body 4) (some (k.free (readU64 query 0))))
    (hbuffer : f.command.toNat = 4 → k.account.buffers.find? (readU64 f.body 0) ≠ none) :
    f.Passes k query := by
  have hcases := memoryRequestLength_ne_none (h.memory.trans_ne (Option.some_ne_none _))
  refine ⟨⟨by omega, by omega⟩, h.length, fun hcompute => ?_, fun _ n hn => ?_,
    fun _ hdevice => h.device hdevice, fun _ => hallocation, fun _ => hbuffer⟩
  · unfold computing at hcompute
    omega
  · rw [h.memory, Option.some.injEq] at hn
    exact hn

/-- **Before an allocation** the guard asks for the free memory, and the allocation is within the
budget and the headroom; the other requests have no query before them.

**Proof sketch.** A request that is no allocation has nothing before it. An allocation is checked
against the budget, the worker is asked for its free memory, and the allocation is checked again
with the answer; a failure after the query leaves an unfit frame, of which nothing was sent. -/
theorem ensures_beforeAllocation (h : f.Requests hooks) :
    Ensures (Moved g₀ g₀.stock f.encode [] [] [])
      (beforeAllocation hooks.memoryFreeBytes f.command.toNat (readU64 f.body 4))
      (fun _ g => ∃ before : Option (List UInt8),
        Moved g₀ (g₀.stock.queried hooks f.command.toNat) f.encode (repliesOf before)
          (queryIf before.isSome) [] g ∧
          (((before.isSome = true ↔ f.command.toNat = 0) ∧ ∀ body ∈ before, body.length = 16) ∧
            (f.command.toNat = 0 → g₀.budget.withinBudget (readU64 f.body 4) ∧
              g₀.budget.hasHeadroom (readU64 f.body 4)
                (some ((g₀.check hooks asked).free (readU64 (before.getD []) 0))))))
      (Failed hooks asked g₀) := by
  refine .ite (fun hzero => ?_) fun hother => .pure fun g hg => ⟨none, ?_, ⟨by simp [hother],
    by simp⟩, fun hzero => absurd hzero hother⟩
  swap
  · rw [Stock.queried, if_neg hother]
    exact hg
  have hlength : f.body.length = 12 := by
    have hmemory := h.memory
    rw [hzero] at hmemory
    exact (Option.some.inj hmemory).symm
  refine .bind ((ensures_onBudget (accounts_requireAllocation _ _ _)).mono (fun _ h => h)
    (fun _ _ h => h) fun _ _ => Stuck.refused) fun _ => .assume fun hwithin => ?_
  have hunfit : ∀ e g, Stuck g₀ f.encode [] memoryQuery [] e g → Failed hooks asked g₀ e g := by
    rintro e g ⟨he, s, all, -, hg⟩
    exact hg.failed (.unfit ⟨g.input.bytes, hg.input.symm⟩ hzero h.budget hlength
      (h.device (by rw [hzero]; decide)) hwithin.1 he)
  refine .bind ((ensures_memoryBarrier asked).mono (fun _ h => h) (fun _ _ h => h)
    hunfit) fun free => .exists fun body => .assume ?_
  rintro ⟨hbody, rfl⟩
  refine .bind ((ensures_onBudget (accounts_requireAllocation _ _ _)).mono (fun _ h => h)
    (fun _ _ h => h) fun e g hstuck => hunfit e g hstuck.weaken) fun _ => .assume fun hroom =>
      .pure fun g hg => ?_
  refine ⟨some body, ?_, ⟨by simp [hzero], ?_⟩, fun _ => ⟨hwithin.1, ?_⟩⟩
  · have hmoved : Moved g₀ (g₀.stock.probed hooks) f.encode ([] ++ reply body)
        ([] ++ memoryQuery) [] g := hg
    rw [Stock.queried, if_pos hzero]
    simpa [repliesOf, queryIf] using hmoved
  · rintro _ ⟨⟩
    exact hbody
  · have hheadroom := hroom.2
    rw [Stock.probed_account] at hheadroom
    exact hheadroom

/-- A free that was forwarded is relayed, once the worker has processed it. -/
theorem ensures_forwardFree (h : f.Requests hooks) (hfour : f.command.toNat = 4)
    (hlive : g₀.budget.buffers.find? (readU64 f.body 0) ≠ none) :
    Ensures (Moved g₀ g₀.stock f.encode [] f.encode [])
      (forwardFree hooks.memoryFreeBytes (readU64 f.body 0))
      (fun _ => Completed hooks asked g₀ f.command) (Failed hooks asked g₀) := by
  have hzero : f.command.toNat ≠ 0 := by omega
  have hpasses : f.Passes (g₀.check hooks asked) [] :=
    h.passes (fun hzero' => absurd hzero' hzero) fun _ => hlive
  have hfailed : ∀ e g, Stuck g₀ f.encode [] (f.encode ++ memoryQuery) [] e g →
      Failed hooks asked g₀ e g := fun e g hstuck =>
    Stuck.failed none true hstuck hpasses (by simp [hzero]) fun _ => .inr hfour
  refine .bind ((ensures_memoryBarrier asked).mono (fun _ h => h) (fun _ _ h => h)
    hfailed) fun _ => .exists fun body => .assume fun hbody =>
      (ensures_onBudget (accounts_freed _ _)).mono (fun _ h => h) ?_ fun e g hstuck =>
        hfailed e g hstuck.weaken
  rintro - g ⟨hg, -⟩
  have hmemory : memoryRequestLength f.command.toNat ≠ none := by
    rw [h.memory]
    exact Option.some_ne_none _
  refine ⟨⟨f, none, none, some body, none⟩, ⟨hpasses.command, h.length, ?_, ?_, ?_, .none, ?_⟩, rfl,
    hpasses, ?_⟩
  · simp [hzero]
  · simp [hasResponse, hfour]
  · simp [h.budget, hfour]
  · simp [Exchange.replies, hbody.1, maxFrame]
  · rw [Exchange.stock, if_pos ⟨h.budget, hmemory⟩, if_pos hfour]
    simpa [Exchange.received, Exchange.replies, Exchange.sent, Exchange.answered, queryIf] using hg

/-- Another memory command that was forwarded is relayed, once its reply has come.

**Proof sketch.** The frame was sent whole. A failure of the worker's reply, or of its check, leaves
the exchange without an answer. A reply that passes is answered in the two writes to the client. -/
theorem ensures_forwardReply {freeBefore : Int} {before : Option (List UInt8)}
    (h : f.Requests hooks) (hreserve : 0 ≤ g₀.budget.reserve) (hother : f.command.toNat ≠ 4)
    (hpasses : f.Passes (g₀.check hooks asked) (before.getD []))
    (hbefore : before.isSome = true ↔ f.command.toNat = 0)
    (hquery : ∀ body ∈ before, body.length = 16) :
    Ensures (Moved g₀ (g₀.stock.queried hooks f.command.toNat) f.encode (repliesOf before)
        (queryIf before.isSome ++ f.encode) [])
      (forwardReply hooks.memoryFreeBytes f.command.toNat (readU64 f.body 4) freeBefore)
      (fun _ => Completed hooks asked g₀ f.command) (Failed hooks asked g₀) := by
  have hfailed : ∀ e g, Stuck g₀ f.encode (repliesOf before)
      (queryIf before.isSome ++ f.encode) [] e g → Failed hooks asked g₀ e g := by
    intro e g hstuck
    rw [← List.append_nil (queryIf before.isSome ++ f.encode)] at hstuck
    exact Stuck.failed before false hstuck hpasses (by simp [h.budget, hbefore])
      fun hfalse => absurd hfalse Bool.false_ne_true
  have haccount : (g₀.stock.queried hooks f.command.toNat).account = g₀.budget := by
    unfold Stock.queried
    split
    · exact Stock.probed_account hooks g₀.stock
    · rfl
  refine .bind ((ensures_response _).mono (fun _ h => h) (fun _ _ h => h) hfailed) fun r =>
    .assume fun hr => ?_
  refine .bind ((ensures_answer h.budget _ _ (by rw [haccount]; exact hreserve)
    hr.2).mono (fun _ h => h) (fun _ _ h => h) fun e g hstuck => hfailed e g hstuck.weaken)
    fun out => .assume fun hout => ?_
  refine .bind (ensures_writeClient _) fun _ =>
    (ensures_writeClient (E := Failed hooks asked g₀) _).mono
      (fun _ h => h) (fun _ g hg => ?_) fun _ _ h => h
  have hmemory : memoryRequestLength f.command.toNat ≠ none := by
    rw [h.memory]
    exact Option.some_ne_none _
  have hcases := memoryRequestLength_ne_none hmemory
  refine ⟨⟨f, before, some r.2, none, some out⟩, ⟨hpasses.command, h.length, ?_, ?_, ?_,
    .some hout.1, ?_⟩, rfl, hpasses, ?_⟩
  · simpa [h.budget] using hbefore
  · simp only [Option.isSome_some, true_iff, hasResponse, List.mem_cons, List.not_mem_nil,
      or_false]
    omega
  · have hnot : ¬ computing f.command.toNat := by
      rintro (h | h)
      · omega
      · omega
    simp [hnot, hother]
  · intro body hbody
    rw [Exchange.replies, Option.toList_none, List.append_nil, Option.toList_some,
      List.mem_append, Option.mem_toList, List.mem_singleton] at hbody
    rcases hbody with hbody | rfl
    · rw [hquery body hbody, maxFrame]
      omega
    · rw [hr.2, memoryReplyLength, maxFrame]
      split
      · omega
      · split
        · omega
        · omega
  · have hreply : r.1 ++ out = reply out := by rw [reply, hout.2, hr.2, hr.1]
    rw [List.nil_append, hreply] at hg
    rw [Exchange.stock, if_pos ⟨h.budget, hmemory⟩, if_neg hother]
    simpa [Exchange.received, Exchange.replies, Exchange.sent, Exchange.answered, queryIf,
      repliesOf] using hg

/-- **A memory command** is relayed, or it fails.

**Proof sketch.** Until the frame is forwarded a failure leaves behind nothing, or the query before
an allocation that is within the budget. When it is forwarded it has passed the checks: an
allocation those with the free memory that the worker replied, and a free those of the account. -/
theorem ensures_memoryCommand {commandByte length : List UInt8} {command : UInt8}
    (hbudget : hooks.memoryBudget = true) (hreserve : 0 ≤ g₀.budget.reserve)
    (hcommand : commandByte = [command]) (hlength : length.length = 8)
    (hframe : readLE length ≤ maxFrame) :
    Ensures (Moved g₀ g₀.stock (commandByte ++ length) [] [] [])
      (observeMemoryCommand hooks.memoryFreeBytes command.toNat (readLE length)
        (commandByte ++ length))
      (fun _ => Completed hooks asked g₀ command) (Failed hooks asked g₀) := by
  refine .check (fun _ g hg => hg.failed .refused) fun hmemory =>
    ensures_readInput_bind (fun g hg _ => hg.failed .refused) fun request hrequest => ?_
  obtain ⟨f, rfl, rfl, hencode⟩ : ∃ f : Frame, f.command = command ∧ f.body = request ∧
      commandByte ++ length ++ request = f.encode :=
    ⟨⟨command, request⟩, rfl, rfl, header_append_body hcommand hlength hrequest⟩
  rw [hencode]
  refine .bind (R := fun _ g => Moved g₀ g₀.stock f.encode [] [] [] g ∧
    (f.command.toNat ∈ [0, 2, 11] → readU32 f.body = 0)) (.ite (fun _ => .require
      (fun _ hdevice h => ⟨h, fun _ => hdevice⟩) fun _ _ h => h.failed .refused)
      fun hnot => .pure fun _ h => ⟨h, fun hdevice => absurd hdevice hnot⟩) fun _ =>
      .assume fun hdevice => ?_
  have hrequests : f.Requests hooks :=
    ⟨hbudget, by rw [hmemory, hrequest], hdevice, hrequest.trans_le hframe⟩
  refine .bind (ensures_beforeAllocation hrequests) fun freeBefore =>
    .exists fun before => .assume ?_
  rintro ⟨hbefore, hallocation⟩
  refine .bind (R := fun _ g => Moved g₀ (g₀.stock.queried hooks f.command.toNat) f.encode
    (repliesOf before) (queryIf before.isSome) [] g ∧ (f.command.toNat = 4 →
      g₀.budget.buffers.find? (readU64 f.body 0) ≠ none))
    (.ite (fun hfour => ?_) fun hother => .pure fun _ h =>
      ⟨h, fun hfour => absurd hfour hother⟩) fun _ => .assume fun hbuffer => ?_
  · -- a free has no query before it, so nothing was written yet
    have hnone : before.isSome = false := by
      refine Bool.eq_false_iff.2 fun h => ?_
      have hzero := hbefore.1.1 h
      omega
    rw [Stock.queried, if_neg (by omega)]
    refine (ensures_onBudget (accounts_requireBuffer _ _)).mono (fun _ h => h)
      (fun _ _ h => ⟨h.1, fun _ => h.2⟩) fun e g h => ?_
    rw [hnone] at h
    exact h.refused
  have hpasses : f.Passes (g₀.check hooks asked) (before.getD []) :=
    hrequests.passes hallocation hbuffer
  refine .bind (ensures_writeWorker _) fun _ => .bind (ensures_writeWorker _) fun _ => ?_
  have hwritten : queryIf before.isSome ++ (commandByte ++ length) ++ f.body =
      queryIf before.isSome ++ f.encode := by
    rw [← hencode, List.append_assoc]
  rw [hwritten]
  refine .ite (fun hfour => ?_) fun hother => ?_
  · obtain rfl : before = none := by
      cases before with
      | none => rfl
      | some body =>
        have hzero := hbefore.1.1 rfl
        omega
    rw [Stock.queried, if_neg (by omega)]
    exact ensures_forwardFree hrequests hfour (hbuffer hfour)
  · exact ensures_forwardReply hrequests hreserve hother hpasses hbefore.1 hbefore.2

end Memory

/-! ### Other commands -/

section Relay

variable {hooks : Hooks} {asked : Nat} {g₀ : Guard} {commandByte length : List UInt8}
  {command : UInt8}

/-- A frame that the account does not check passes its checks, unless it computes. -/
theorem Frame.passes_of_plain {k : Check} {f : Frame} {query : List UInt8}
    (hrange : f.command.toNat ≤ 17 ∧ f.command.toNat ≠ 14) (hlength : f.body.length ≤ maxFrame)
    (hplain : ¬ k.accounts f) (hcompute : computing f.command.toNat → readU32 f.body = 0 ∧
      ∃ lease, k.turn.lease = some lease ∧ k.turn.reserved (some lease) ∧
        lease.admits f.body.length) : f.Passes k query := by
  -- no command of the account
  have hnone (hbudget : k.hooks.memoryBudget = true) {n : Nat} (hn : f.command.toNat = n)
      (hmemory : memoryRequestLength n ≠ none) : False :=
    hplain ⟨hbudget, by rw [hn]; exact hmemory⟩
  refine ⟨hrange, hlength, hcompute, fun hbudget n hn => ?_, fun hbudget hdevice => ?_,
    fun hbudget hzero => (hnone hbudget hzero (Option.some_ne_none _)).elim,
    fun hbudget hfour => (hnone hbudget hfour (Option.some_ne_none _)).elim⟩
  · exact (hnone hbudget rfl (by rw [hn]; exact Option.some_ne_none _)).elim
  · simp only [List.mem_cons, List.not_mem_nil, or_false] at hdevice
    rcases hdevice with h | h | h
    · exact (hnone hbudget h (Option.some_ne_none _)).elim
    · exact (hnone hbudget h (Option.some_ne_none _)).elim
    · exact (hnone hbudget h (Option.some_ne_none _)).elim

/-- The stream of the client ended in the body of a frame, which passes the checks however it would
have gone on. -/
theorem Moved.short {s : Stock} {done received sent : List UInt8} {g : Guard}
    (h : Moved g₀ s (commandByte ++ length ++ done) received sent [] g)
    (hcommand : commandByte = [command]) (hlength : length.length = 8)
    (hshort : done.length + g.input.bytes.length < readLE length)
    (hpasses : ∀ body : List UInt8, body.length = readLE length → done <+: body →
      Frame.Passes (g₀.check hooks asked) ⟨command, body⟩ [])
    (hplain : ¬ (hooks.memoryBudget = true ∧ memoryRequestLength command.toNat ≠ none))
    (hsent : sent <+: commandByte ++ length ++ done) : Failed hooks asked g₀ .rpcEof g := by
  -- any frame that goes on where the stream ended
  obtain ⟨missing, hmissing⟩ : ∃ missing : List UInt8,
      (done ++ g.input.bytes ++ missing).length = readLE length :=
    ⟨List.replicate (readLE length - (done.length + g.input.bytes.length)) 0, by
      rw [List.length_append, List.length_append, List.length_replicate]
      omega⟩
  have hencode := header_append_body hcommand hlength hmissing
  have hinput : g₀.input.bytes ++ missing =
      Frame.encode ⟨command, done ++ g.input.bytes ++ missing⟩ := by
    rw [← hencode, h.input]
    simp only [List.append_assoc]
  have hgoes : done <+: done ++ g.input.bytes ++ missing := by
    rw [List.append_assoc]
    exact List.prefix_append _ _
  refine h.failed (.short ⟨missing, hinput⟩ ?_ (hpasses _ hmissing hgoes) hplain ?_)
  · rw [← hinput, List.length_append]
    have hmore := hmissing
    rw [List.length_append, List.length_append] at hmore
    omega
  · rw [h.input]
    exact hsent.trans (List.prefix_append _ _)

/-- The body of a frame is copied to the worker. -/
theorem ensures_copyInput (hcommand : commandByte = [command]) (hlength : length.length = 8)
    (hpasses : ∀ body : List UInt8, body.length = readLE length →
      Frame.Passes (g₀.check hooks asked) ⟨command, body⟩ [])
    (hplain : ¬ (hooks.memoryBudget = true ∧ memoryRequestLength command.toNat ≠ none)) :
    Ensures (Moved g₀ g₀.stock (commandByte ++ length) [] (commandByte ++ length) [])
      (copy readInput writeWorker (readLE length))
      (fun _ g => ∃ body, Moved g₀ g₀.stock (commandByte ++ length ++ body) []
        (commandByte ++ length ++ body) [] g ∧ body.length = readLE length)
      (Failed hooks asked g₀) := by
  have hcopy := ensures_copyLoop readInput writeWorker (readLE length)
    (E := Failed hooks asked g₀)
    (P := fun done => Moved g₀ g₀.stock (commandByte ++ length ++ done) []
      (commandByte ++ length ++ done) [])
    (R := fun done chunk => Moved g₀ g₀.stock (commandByte ++ length ++ (done ++ chunk)) []
      (commandByte ++ length ++ done) []) (fun n done hn => ?_) (fun done chunk => ?_)
    (readLE length) (readLE length) [] (Nat.zero_add _) (le_refl _)
  · rw [List.append_nil] at hcopy
    exact hcopy
  · refine (ensures_readInput n).mono (fun _ h => h) ?_ ?_
    · rintro chunk g ⟨hg, hchunk⟩
      rw [List.append_assoc (commandByte ++ length)] at hg
      exact ⟨hg, hchunk⟩
    · rintro e g ⟨rfl, hg, hlt⟩
      exact hg.short hcommand hlength (by omega) (fun body hbody _ => hpasses body hbody) hplain
        List.prefix_rfl
  · refine (ensures_writeWorker chunk).mono (fun _ h => h) (fun _ g hg => ?_) fun _ _ h => h
    rw [List.append_assoc (commandByte ++ length)] at hg
    exact hg

/-- A frame that was forwarded, while its reply is relayed. -/
theorem Moved.unanswered {s : Stock} {f : Frame} {received answered : List UInt8} {e : RpcCode}
    {g : Guard} (h : Moved g₀ s f.encode received f.encode answered g)
    (hpasses : f.Passes (g₀.check hooks asked) []) (hplain : ¬ (g₀.check hooks asked).accounts f)
    (hanswered : answered <+: received) (he : e.refusal = false) : Failed hooks asked g₀ e g := by
  have hcut : Cut (g₀.check hooks asked) g₀.input.bytes g₀.output.bytes e
      (queryIf (none : Option (List UInt8)).isSome ++ f.encode ++ queryIf false) answered := by
    refine .unanswered ⟨g.input.bytes, h.input.symm⟩ hpasses ?_ List.nil_prefix
      (fun hfalse => absurd hfalse Bool.false_ne_true) he ?_
    · refine ⟨fun hfalse => absurd hfalse Bool.false_ne_true, fun hzero => ?_⟩
      exact (hplain ⟨hzero.1, by rw [hzero.2]; exact Option.some_ne_none _⟩).elim
    · rw [h.output]
      exact hanswered.trans (List.prefix_append _ _)
  rw [Option.isSome_none, queryIf, if_neg (by decide), List.nil_append, List.append_nil] at hcut
  exact h.failed hcut

/-- The reply of the worker is copied to the client. -/
theorem ensures_relayReply {f : Frame} (hpasses : f.Passes (g₀.check hooks asked) [])
    (hplain : ¬ (g₀.check hooks asked).accounts f) :
    Ensures (Moved g₀ g₀.stock f.encode [] f.encode [])
      (do
        let size ← readOutput 8
        let length ← frameLength size
        writeClient size
        copy readOutput writeClient length)
      (fun _ g => ∃ body : List UInt8,
        Moved g₀ g₀.stock f.encode (reply body) f.encode (reply body) g ∧ body.length ≤ maxFrame)
      (Failed hooks asked g₀) := by
  refine ensures_readOutput_bind (fun g hg => hg.unanswered hpasses hplain List.prefix_rfl rfl)
    fun size hsize => ?_
  rw [List.nil_append]
  refine ensures_frameLength_bind
    (fun g hg => hg.unanswered hpasses hplain List.nil_prefix rfl) fun hmax => ?_
  refine .bind (ensures_writeClient size) fun _ => ?_
  rw [List.nil_append]
  have hcopy := ensures_copyLoop readOutput writeClient (readLE size)
    (E := Failed hooks asked g₀)
    (P := fun done => Moved g₀ g₀.stock f.encode (size ++ done) f.encode (size ++ done))
    (R := fun done chunk =>
      Moved g₀ g₀.stock f.encode (size ++ (done ++ chunk)) f.encode (size ++ done))
    (fun n done hn => ?_) (fun done chunk => ?_) (readLE size) (readLE size) [] (Nat.zero_add _)
    (le_refl _)
  · rw [List.append_nil] at hcopy
    refine hcopy.mono (fun _ h => h) ?_ fun _ _ h => h
    rintro - g ⟨body, hg, hbody⟩
    rw [reply_of_size hsize hbody.symm] at hg
    exact ⟨body, hg, hbody.trans_le hmax⟩
  · refine (ensures_readOutput n).mono (fun _ h => h) ?_ ?_
    · rintro chunk g ⟨hg, hchunk⟩
      rw [List.append_assoc size] at hg
      exact ⟨hg, hchunk⟩
    · rintro e g ⟨rfl, hg⟩
      exact hg.unanswered hpasses hplain List.prefix_rfl rfl
  · refine (ensures_writeClient chunk).mono (fun _ h => h) (fun _ g hg => ?_) fun _ _ h => h
    rw [List.append_assoc size] at hg
    exact hg

/-- **A command that is only copied** is relayed, or it fails.

**Proof sketch.** The frame is copied to the worker as it is read. If the command has a response, it
is copied back; otherwise the exchange is complete. No check concerns such a frame, so that it
passes whatever it holds. -/
theorem ensures_relayCommand (hcommand : commandByte = [command]) (hlength : length.length = 8)
    (hframe : readLE length ≤ maxFrame) (hrange : command.toNat ≤ 17 ∧ command.toNat ≠ 14)
    (hcompute : ¬ computing command.toNat)
    (hmemory : ¬ (hooks.memoryBudget = true ∧ memoryRequestLength command.toNat ≠ none)) :
    Ensures (Moved g₀ g₀.stock (commandByte ++ length) [] [] [])
      (relayCommand (commandByte ++ length) command.toNat (readLE length))
      (fun _ => Completed hooks asked g₀ command) (Failed hooks asked g₀) := by
  have hall : ∀ body : List UInt8, body.length = readLE length →
      Frame.Passes (g₀.check hooks asked) ⟨command, body⟩ [] := fun body hbody =>
    Frame.passes_of_plain hrange (hbody.trans_le hframe) hmemory fun h => absurd h hcompute
  refine .bind (ensures_writeWorker _) fun _ => ?_
  rw [List.nil_append]
  refine .bind (ensures_copyInput hcommand hlength hall hmemory) fun _ =>
    .exists fun body => .assume fun hbody => ?_
  obtain ⟨f, rfl, hfbody, hencode⟩ : ∃ f : Frame, f.command = command ∧ f.body = body ∧
      commandByte ++ length ++ body = f.encode :=
    ⟨⟨command, body⟩, rfl, rfl, header_append_body hcommand hlength hbody⟩
  rw [hencode]
  have hpasses : f.Passes (g₀.check hooks asked) [] := by
    rw [← hfbody] at hbody
    exact hall f.body hbody
  have hsize : f.body.length ≤ maxFrame := by
    rw [hfbody]
    exact hbody.trans_le hframe
  have hbudget : ∀ {n : Nat}, memoryRequestLength n ≠ none →
      ¬ (hooks.memoryBudget = true ∧ f.command.toNat = n) := by
    rintro n hn ⟨hb, rfl⟩
    exact hmemory ⟨hb, hn⟩
  have hserved : ∀ own : Option (List UInt8), (own.isSome = true ↔ hasResponse f.command.toNat) →
      (∀ body ∈ own, body.length ≤ maxFrame) → Exchange.Served hooks ⟨f, none, own, none, own⟩ := by
    intro own hown hmax
    refine ⟨hrange, hsize, ?_, hown, ?_, ?_, ?_⟩
    · simpa using hbudget (n := 0) (by decide)
    · simpa [hcompute] using hbudget (n := 4) (by decide)
    · cases own with
      | none => exact .none
      | some body => exact .some .same
    · simpa [Exchange.replies] using hmax
  -- the stock is that of a frame that the account does not check
  have hstock (x : Exchange) (hx : x.frame = f) : x.stock hooks g₀.stock = g₀.stock := by
    rw [Exchange.stock, hx, if_neg hmemory]
  refine .ite (fun hresponse => ?_) fun hnone => .pure fun g hg => ?_
  · refine (ensures_relayReply hpasses hmemory).mono (fun _ h => h) ?_ fun _ _ h => h
    rintro - g ⟨answer, hg, hmax⟩
    refine ⟨⟨f, none, some answer, none, some answer⟩, hserved _ (by simp [hresponse])
      (by simpa using hmax), rfl, hpasses, ?_⟩
    rw [hstock _ rfl]
    simpa [Exchange.received, Exchange.replies, Exchange.sent, Exchange.answered, queryIf] using hg
  · refine ⟨⟨f, none, none, none, none⟩, hserved _ (by simp [hnone]) (by simp), rfl, hpasses, ?_⟩
    rw [hstock _ rfl]
    simpa [Exchange.received, Exchange.replies, Exchange.sent, Exchange.answered, queryIf] using hg

end Relay

/-! ### Compute commands -/

/-- The lease after a compute frame: the counters grow by what went to the worker and came back,
and the transcript goes on with it. -/
def ComputeLease.charged (lease : ComputeLease) (x : Exchange) : ComputeLease :=
  { lease with
    requestBytes := lease.requestBytes + x.sent.length
    responseBytes := lease.responseBytes + x.received.length
    completedCommands := lease.completedCommands + 1
    transcript := lease.transcript ++ (x.sent ++ x.received) }

/-- The lease with more in its transcript. -/
def ComputeLease.noted (lease : ComputeLease) (bytes : List UInt8) : ComputeLease :=
  { lease with transcript := lease.transcript ++ bytes }

/-- **What some exchanges came to**, from a stock on: the frame of each passed the checks against the
stock as the exchanges before it had left it; each compute frame was charged to the lease that it
found, and nothing else was. -/
inductive Metered (hooks : Hooks) (physical : Nat → Physical) (start : Stock) :
    List Exchange → Stock → Nat → List ComputeLease → Prop where
  | nil : Metered hooks physical start [] start 0 []
  | compute {xs : List Exchange} {x : Exchange} {s : Stock} {asked : Nat}
      {metered : List ComputeLease} {lease : ComputeLease}
      (h : Metered hooks physical start xs s asked metered)
      (hpasses : x.Passes (s.check hooks physical asked))
      (hcompute : computing x.frame.command.toNat)
      (hlease : (hooks.turns asked).lease = some lease) :
      Metered hooks physical start (xs ++ [x]) (x.stock hooks s) (asked + 1)
        (lease.charged x :: metered)
  | other {xs : List Exchange} {x : Exchange} {s : Stock} {asked : Nat}
      {metered : List ComputeLease} (h : Metered hooks physical start xs s asked metered)
      (hpasses : x.Passes (s.check hooks physical asked))
      (hother : ¬ computing x.frame.command.toNat) :
      Metered hooks physical start (xs ++ [x]) (x.stock hooks s) asked metered

/-- What moved at the guard, with the rest of the connection. -/
structure Within (g₀ : Guard) (handshake : Bool) (asked : Nat) (metered : List ComputeLease)
    (read received sent answered : List UInt8) (c : Observer) : Prop where
  moved : Moved g₀ g₀.stock read received sent answered c.guard
  handshake : c.handshake = handshake
  asked : c.asked = asked
  metered : c.metered = metered

/-- The command failed, while at most one lease was being metered. -/
structure Broken (hooks : Hooks) (c₀ : Observer) (e : RpcCode) (c : Observer) : Prop where
  failed : Failed hooks c₀.asked c₀.guard e c.guard
  handshake : c.handshake = c₀.handshake
  metered : ∃ unfinished, unfinished.length ≤ 1 ∧ c.metered = unfinished ++ c₀.metered

section Compute

variable {hooks : Hooks} {g₀ : Guard} {handshake : Bool} {asked : Nat}
  {metered : List ComputeLease}
  {read received sent answered : List UInt8} {α : Type} {E : RpcCode → Observer → Prop}

/-- An operation between the streams leaves the rest of the connection alone. -/
theorem ensures_onGuard {x : Prog Guard RpcCode α} {P : Guard → Prop} {Q : α → Guard → Prop}
    {F : RpcCode → Guard → Prop} (h : Ensures P x Q F) :
    Ensures (fun c => P c.guard ∧ c.handshake = handshake ∧ c.asked = asked ∧ c.metered = metered)
      (onGuard x)
      (fun a c => Q a c.guard ∧ c.handshake = handshake ∧ c.asked = asked ∧ c.metered = metered)
      fun e c => F e c.guard ∧ c.handshake = handshake ∧ c.asked = asked ∧
        c.metered = metered := by
  refine .zoom fun c hc => h.mono ?_ (fun _ _ hg => ⟨hg, hc.2⟩) fun _ _ hg => ⟨hg, hc.2⟩
  rintro g rfl
  exact hc.1

/-- What moved at the guard, and the rest of the connection. -/
theorem Within.iff {c : Observer} :
    Within g₀ handshake asked metered read received sent answered c ↔
      Moved g₀ g₀.stock read received sent answered c.guard ∧ c.handshake = handshake ∧
        c.asked = asked ∧ c.metered = metered :=
  ⟨fun h => ⟨h.moved, h.handshake, h.asked, h.metered⟩, fun h => ⟨h.1, h.2.1, h.2.2.1, h.2.2.2⟩⟩

/-- A line that reads from the client. -/
theorem observe_readInput {n : Nat} {f : List UInt8 → Prog Observer RpcCode α}
    {Q : α → Observer → Prop}
    (hshort : ∀ c, Within g₀ handshake asked metered read received sent answered c →
      c.guard.input.bytes.length < n → E .rpcEof c)
    (hf : ∀ bytes, bytes.length = n →
      Ensures (Within g₀ handshake asked metered (read ++ bytes) received sent answered) (f bytes)
        Q E) :
    Ensures (Within g₀ handshake asked metered read received sent answered)
      (onGuard (readInput n) >>= f) Q E := by
  refine .bind (R := fun bytes c =>
    Within g₀ handshake asked metered (read ++ bytes) received sent answered c ∧ bytes.length = n)
    ((ensures_onGuard (ensures_readInput n)).mono (fun _ h => Within.iff.1 h)
      (fun _ _ h => ⟨Within.iff.2 ⟨h.1.1, h.2⟩, h.1.2⟩) ?_) fun bytes => .assume (hf bytes)
  rintro e c ⟨⟨rfl, hg, hlt⟩, hrest⟩
  exact hshort c (Within.iff.2 ⟨hg, hrest⟩) hlt

/-- A line that reads from the worker. -/
theorem observe_readOutput {n : Nat} {f : List UInt8 → Prog Observer RpcCode α}
    {Q : α → Observer → Prop}
    (hshort : ∀ c, Within g₀ handshake asked metered read received sent answered c → E .rpcEof c)
    (hf : ∀ bytes, bytes.length = n →
      Ensures (Within g₀ handshake asked metered read (received ++ bytes) sent answered) (f bytes)
        Q E) :
    Ensures (Within g₀ handshake asked metered read received sent answered)
      (onGuard (readOutput n) >>= f) Q E := by
  refine .bind (R := fun bytes c =>
    Within g₀ handshake asked metered read (received ++ bytes) sent answered c ∧ bytes.length = n)
    ((ensures_onGuard (ensures_readOutput n)).mono (fun _ h => Within.iff.1 h)
      (fun _ _ h => ⟨Within.iff.2 ⟨h.1.1, h.2⟩, h.1.2⟩) ?_) fun bytes => .assume (hf bytes)
  rintro e c ⟨⟨rfl, hg⟩, hrest⟩
  exact hshort c (Within.iff.2 ⟨hg, hrest⟩)

/-- A write to the worker. -/
theorem observe_writeWorker (bytes : List UInt8) :
    Ensures (Within g₀ handshake asked metered read received sent answered)
      (onGuard (writeWorker bytes))
      (fun _ => Within g₀ handshake asked metered read received (sent ++ bytes) answered) E :=
  (ensures_onGuard (ensures_writeWorker (E := fun _ _ => False) bytes)).mono
    (fun _ h => Within.iff.1 h) (fun _ _ h => Within.iff.2 h) fun _ _ h => h.1.elim

/-- A write to the client. -/
theorem observe_writeClient (bytes : List UInt8) :
    Ensures (Within g₀ handshake asked metered read received sent answered)
      (onGuard (writeClient bytes))
      (fun _ => Within g₀ handshake asked metered read received sent (answered ++ bytes)) E :=
  (ensures_onGuard (ensures_writeClient (E := fun _ _ => False) bytes)).mono
    (fun _ h => Within.iff.1 h) (fun _ _ h => Within.iff.2 h) fun _ _ h => h.1.elim

/-- An assignment to the lease that is being metered. -/
theorem observe_onLease {lease : ComputeLease} (f : ComputeLease → ComputeLease) :
    Ensures (Within g₀ handshake asked (lease :: metered) read received sent answered) (onLease f)
      (fun _ => Within g₀ handshake asked (f lease :: metered) read received sent answered) E := by
  refine .modify fun c h => ⟨h.moved, h.handshake, h.asked, ?_⟩
  show (c.metered.take 1).map f ++ c.metered.drop 1 = f lease :: metered
  rw [h.metered]
  rfl

/-- A compute command is no allocation and no free, and has no response. -/
theorem other_of_computing {command : Nat} (hcompute : computing command) :
    command ≠ 0 ∧ command ≠ 4 ∧ ¬ hasResponse command := by
  rcases hcompute with rfl | rfl
  · exact ⟨by decide, by decide, by decide⟩
  · exact ⟨by decide, by decide, by decide⟩

/-- A compute frame is none that the account checks. -/
theorem not_accounts_of_computing {command : Nat} (hcompute : computing command) :
    ¬ (hooks.memoryBudget = true ∧ memoryRequestLength command ≠ none) := by
  rintro ⟨-, hmemory⟩
  have hcases := memoryRequestLength_ne_none hmemory
  unfold computing at hcompute
  omega

/-- The first number of a body is that of its first four bytes. -/
theorem readU32_of_begins {device body : List UInt8} (hdevice : device.length = 4)
    (h : device <+: body) : readU32 body = readU32 device := by
  obtain ⟨rest, rfl⟩ := h
  rw [readU32, readU32, List.take_append_of_le_length (by omega)]

/-- What is left of a compute frame is copied to the worker and into the transcript. -/
theorem ensures_copyCompute {c₀ : Observer} {commandByte length device : List UInt8}
    {command : UInt8} {lease : ComputeLease} (hcommand : commandByte = [command])
    (hlength : length.length = 8) (hdevice : device.length = 4) (hleast : 4 ≤ readLE length)
    (hpasses : ∀ body : List UInt8, body.length = readLE length → device <+: body →
      Frame.Passes (c₀.guard.check hooks c₀.asked) ⟨command, body⟩ [])
    (hcompute : computing command.toNat) :
    Ensures (Within c₀.guard c₀.handshake asked
        (lease.noted (commandByte ++ length ++ device) :: c₀.metered)
        (commandByte ++ length ++ device) [] (commandByte ++ length ++ device) [])
      (copy (fun n => onGuard (readInput n))
        (fun chunk => do
          updateTranscript chunk
          onGuard (writeWorker chunk))
        (readLE length - 4))
      (fun _ c => ∃ body : List UInt8, Within c₀.guard c₀.handshake asked
        (lease.noted (commandByte ++ length ++ body) :: c₀.metered)
        (commandByte ++ length ++ body) [] (commandByte ++ length ++ body) [] c ∧
          (body.length = readLE length ∧ device <+: body))
      (Broken hooks c₀) := by
  have hcopy := ensures_copyLoop (fun n => onGuard (readInput n))
    (fun chunk => do
      updateTranscript chunk
      onGuard (writeWorker chunk))
    (readLE length - 4) (E := Broken hooks c₀)
    (P := fun done => Within c₀.guard c₀.handshake asked
      (lease.noted (commandByte ++ length ++ (device ++ done)) :: c₀.metered)
      (commandByte ++ length ++ (device ++ done)) [] (commandByte ++ length ++ (device ++ done)) [])
    (R := fun done chunk => Within c₀.guard c₀.handshake asked
      (lease.noted (commandByte ++ length ++ (device ++ done)) :: c₀.metered)
      (commandByte ++ length ++ (device ++ (done ++ chunk))) []
      (commandByte ++ length ++ (device ++ done)) []) (fun n done hn => ?_) (fun done chunk => ?_)
    (readLE length - 4) (readLE length - 4) [] (Nat.zero_add _) (le_refl _)
  · rw [List.append_nil] at hcopy
    refine hcopy.mono (fun _ h => h) ?_ fun _ _ h => h
    rintro - c ⟨rest, hc, hrest⟩
    refine ⟨device ++ rest, hc, ?_, List.prefix_append _ _⟩
    rw [List.length_append]
    omega
  · refine (ensures_onGuard (ensures_readInput n)).mono (fun _ h => Within.iff.1 h) ?_ ?_
    · rintro chunk c ⟨⟨hg, hchunk⟩, hrest⟩
      rw [List.append_assoc (commandByte ++ length), List.append_assoc device] at hg
      exact ⟨Within.iff.2 ⟨hg, hrest⟩, hchunk⟩
    · rintro e c ⟨⟨rfl, hg, hlt⟩, hshake, -, hmetered⟩
      refine ⟨hg.short hcommand hlength ?_ (fun body hbody hgoes => hpasses body hbody
        ((List.prefix_append _ _).trans hgoes)) (not_accounts_of_computing hcompute)
        List.prefix_rfl, hshake, [_], le_rfl, hmetered⟩
      rw [List.length_append]
      omega
  · refine .bind (observe_onLease _) fun _ => (observe_writeWorker (E := Broken hooks c₀) chunk).mono
      (fun _ h => h) (fun _ c hc => ?_) fun _ _ h => h
    have hnoted : (lease.noted (commandByte ++ length ++ (device ++ done))).noted chunk =
        lease.noted (commandByte ++ length ++ (device ++ (done ++ chunk))) := by
      simp only [ComputeLease.noted, List.append_assoc]
    have hsent : commandByte ++ length ++ (device ++ done) ++ chunk =
        commandByte ++ length ++ (device ++ (done ++ chunk)) := by simp only [List.append_assoc]
    rw [hsent] at hc
    rw [← hnoted]
    exact hc

/-- The query after a compute frame: the frame is metered when its reply has come. -/
theorem ensures_computeBarrier {c₀ : Observer} {f : Frame} {lease : ComputeLease} (turn : Turn)
    (hcompute : computing f.command.toNat)
    (hpasses : f.Passes (c₀.guard.check hooks c₀.asked) []) :
    Ensures (Within c₀.guard c₀.handshake asked (lease.noted f.encode :: c₀.metered) f.encode []
        f.encode [])
      (do
        onGuard (writeWorker memoryQuery)
        let size ← onGuard (readOutput 8)
        let length ← frameLength size
        require (length = 16) .rpcBarrier
        let ack ← onGuard (readOutput 16)
        updateTranscript (memoryQuery ++ size ++ ack)
        onLease (·.count f.body.length)
        require ((lease.count f.body.length).lasts turn) .rpcComputeExpired)
      (fun _ c => ∃ ack : List UInt8, Within c₀.guard c₀.handshake asked
        (lease.charged ⟨f, none, none, some ack, none⟩ :: c₀.metered) f.encode (reply ack)
          (f.encode ++ memoryQuery) [] c ∧ ack.length = 16)
      (Broken hooks c₀) := by
  have hbroken : ∀ {e : RpcCode} {received : List UInt8} {l : ComputeLease} {c : Observer},
      e.refusal = false → Within c₀.guard c₀.handshake asked (l :: c₀.metered) f.encode received
        (f.encode ++ memoryQuery) [] c → Broken hooks c₀ e c := by
    intro e received l c he hc
    refine ⟨?_, hc.handshake, [l], le_rfl, hc.metered⟩
    have hstuck : Stuck c₀.guard f.encode [] (f.encode ++ memoryQuery) [] e c.guard :=
      ⟨he, _, received, List.nil_prefix, hc.moved⟩
    refine Stuck.failed none true hstuck hpasses ?_ fun _ => .inl hcompute
    exact ⟨fun hfalse => absurd hfalse Bool.false_ne_true,
      fun hzero => absurd hzero.2 (other_of_computing hcompute).1⟩
  refine .bind (observe_writeWorker _) fun _ => ?_
  refine observe_readOutput (fun c hc => hbroken rfl hc) fun size hsize => ?_
  refine ensures_frameLength_bind (fun c hc => hbroken rfl hc) fun _ => ?_
  refine .check (fun _ c hc => hbroken rfl hc) fun hsixteen => ?_
  refine observe_readOutput (fun c hc => hbroken rfl hc) fun ack hack => ?_
  rw [List.nil_append, reply_of_size hsize (hsixteen.trans hack.symm)]
  refine .bind (observe_onLease _) fun _ => .bind (observe_onLease _) fun _ => ?_
  refine .require (fun c _ hc => ⟨ack, ?_, hack⟩) fun c _ hc => hbroken rfl hc
  have hreply : size ++ ack = reply ack := reply_of_size hsize (hsixteen.trans hack.symm)
  have hquery : memoryQuery.length = 13 := by decide
  have hcharged : ComputeLease.count { lease.noted f.encode with
      transcript := (lease.noted f.encode).transcript ++ (memoryQuery ++ size ++ ack) }
        f.body.length = lease.charged ⟨f, none, none, some ack, none⟩ := by
    simp only [ComputeLease.count, ComputeLease.charged, ComputeLease.noted, Exchange.sent,
      Exchange.received, Exchange.replies, queryIf, Frame.encode, List.append_assoc, hreply]
    simp [hquery, reply, hack]
    omega
  rw [← hcharged]
  exact hc

/-- **A compute frame** that was reserved and is within the limits is relayed and metered, or the
command fails.

**Proof sketch.** Nothing is written before the device is checked. From then on the frame passes
the checks however the client goes on with it, so that its part, or the whole of it, may have
reached the worker when the command fails. -/
theorem ensures_relayCompute {c₀ : Observer} {commandByte length : List UInt8}
    {command : UInt8} {lease : ComputeLease} (hcommand : commandByte = [command])
    (hlength : length.length = 8) (hframe : readLE length ≤ maxFrame)
    (hrange : command.toNat ≤ 17 ∧ command.toNat ≠ 14) (hcompute : computing command.toNat)
    (hlease : (hooks.turns c₀.asked).lease = some lease)
    (hreserved : (hooks.turns c₀.asked).reserved (some lease))
    (hadmits : lease.admits (readLE length)) :
    Ensures (Within c₀.guard c₀.handshake asked c₀.metered (commandByte ++ length) [] [] [])
      (relayCompute lease (hooks.turns c₀.asked) (commandByte ++ length) (readLE length))
      (fun _ c => ∃ x : Exchange, x.Served hooks ∧ x.frame.command = command ∧
        x.Passes (c₀.guard.check hooks c₀.asked) ∧
        Within c₀.guard c₀.handshake asked (lease.charged x :: c₀.metered) x.frame.encode
          x.received x.sent x.answered c)
      (Broken hooks c₀) := by
  -- nothing is metered before the device is checked
  have hrefused : ∀ {e : RpcCode} {read : List UInt8} {c : Observer},
      Within c₀.guard c₀.handshake asked c₀.metered read [] [] [] c → Broken hooks c₀ e c :=
    fun hc => ⟨hc.moved.failed .refused, hc.handshake, [], by simp, hc.metered⟩
  refine observe_readInput (fun c hc _ => hrefused hc) fun device hdevice => ?_
  refine .check (fun _ c hc => hrefused hc) fun hzero => ?_
  have hpasses (body : List UInt8) (hbody : body.length = readLE length) (hgoes : device <+: body) :
      Frame.Passes (c₀.guard.check hooks c₀.asked) ⟨command, body⟩ [] := by
    refine Frame.passes_of_plain hrange (hbody.trans_le hframe)
      (not_accounts_of_computing hcompute) fun _ => ⟨?_, lease, hlease, hreserved, ?_⟩
    · show readU32 body = 0
      rw [readU32_of_begins hdevice hgoes, hzero]
    · show lease.admits body.length
      rw [hbody]
      exact hadmits
  refine .bind (R := fun _ => Within c₀.guard c₀.handshake asked (lease :: c₀.metered)
    (commandByte ++ length ++ device) [] [] []) (.modify fun c hc => ?_) fun _ => ?_
  · exact ⟨hc.moved, hc.handshake, hc.asked, congrArg (lease :: ·) hc.metered⟩
  refine .bind (observe_onLease _) fun _ => .bind (observe_writeWorker _) fun _ =>
    .bind (observe_writeWorker _) fun _ => ?_
  rw [List.nil_append]
  refine .bind (ensures_copyCompute hcommand hlength hdevice hadmits.1 hpasses hcompute) fun _ =>
    .exists fun body => .assume ?_
  rintro ⟨hbody, hgoes⟩
  have hbodyPasses := hpasses body hbody hgoes
  obtain ⟨f, rfl, rfl, hencode⟩ : ∃ f : Frame, f.command = command ∧ f.body = body ∧
      commandByte ++ length ++ body = f.encode :=
    ⟨⟨command, body⟩, rfl, rfl, header_append_body hcommand hlength hbody⟩
  rw [hencode, ← hbody]
  refine (ensures_computeBarrier (hooks.turns c₀.asked) hcompute hbodyPasses).mono (fun _ h => h) ?_
    fun _ _ h => h
  rintro - c ⟨ack, hc, hack⟩
  obtain ⟨hzero', -, hsilent⟩ := other_of_computing hcompute
  refine ⟨⟨f, none, none, some ack, none⟩, ⟨hrange, hbody.trans_le hframe, ?_, ?_, ?_, .none, ?_⟩,
    rfl, hbodyPasses, ?_⟩
  · simp [hzero']
  · simp [hsilent]
  · simp [hcompute]
  · simp [Exchange.replies, hack, maxFrame]
  · simpa [Exchange.received, Exchange.replies, Exchange.sent, Exchange.answered, queryIf] using hc

end Compute

end NetworkAi.Rpc
