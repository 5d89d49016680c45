import NetworkAi.Rpc.Memory

set_option relaxedAutoImplicit false
set_option autoImplicit false

/-!
# The memory budget of a contributor

The account of live buffers is right whatever the engine asks, the worker answers and the probe of
physical memory observes; what is refused leaves it as it was. The amount of free memory that the
engine is shown is one that it can allocate.

## Main definitions

* `NetworkAi.Rpc.RpcMemoryBudget.Sound` — the account agrees with its buffers, within the limits.
* `NetworkAi.Rpc.Accounts` — what an operation makes of an account, exactly.
* `NetworkAi.Rpc.Accepted` — what an accepted command makes of it.
* `NetworkAi.Rpc.memorySystem` — any sequence of memory commands against any worker.

## Main results

* `NetworkAi.Rpc.observeMemoryCommand_ensures` — what one command does to the account.
* `NetworkAi.Rpc.MemoryCommand.run_accepted` — an accepted allocation adds its buffer, and an
  accepted free takes out its own.
* `NetworkAi.Rpc.memory_budget` — the account after any sequence of commands.
-/

namespace NetworkAi.Rpc

open Relational Stateful

/-! ### The account -/

/-- The account agrees with its live buffers, within the limits. -/
structure RpcMemoryBudget.Sound (b : RpcMemoryBudget) : Prop where
  used : b.used = b.buffers.sum fun _ size => size
  limit : b.used ≤ b.limit
  live : b.buffers.rows.length ≤ 4096
  peak : b.used ≤ b.peak
  sizes : ∀ p size, (p, size) ∈ b.buffers.rows → 0 ≤ size

/-- The same account, apart from the count of refused allocations. -/
def SameAccount (b₀ b : RpcMemoryBudget) : Prop := b = { b₀ with rejected := b.rejected }

/-- An account that is sound and has the limits of another. -/
structure Settled (b₀ b : RpcMemoryBudget) : Prop where
  sound : b.Sound
  limit : b.limit = b₀.limit
  reserve : b.reserve = b₀.reserve

/-- Every account is the same as itself. -/
theorem SameAccount.refl (b : RpcMemoryBudget) : SameAccount b b := rfl

/-- A refused allocation is only counted. -/
theorem SameAccount.reject {b₀ b : RpcMemoryBudget} (h : SameAccount b₀ b) :
    SameAccount b₀ { b with rejected := b.rejected + 1 } := by
  rw [SameAccount] at h ⊢
  rw [h]

/-- The same account is as sound, with the same limits. -/
theorem SameAccount.settled {b₀ b : RpcMemoryBudget} (h : SameAccount b₀ b) (hs : b₀.Sound) :
    Settled b₀ b := by
  rw [SameAccount] at h
  rw [h]
  exact ⟨⟨hs.used, hs.limit, hs.live, hs.peak, hs.sizes⟩, rfl, rfl⟩

/-- A buffer within the budget is added to a sound account. -/
theorem RpcMemoryBudget.Sound.add {b : RpcMemoryBudget} (h : b.Sound) {pointer : Nat}
    {actual : Int} (hfresh : b.buffers.find? pointer = none) (hsize : 0 ≤ actual)
    (hwithin : b.withinBudget actual) : Settled b (b.add pointer actual) := by
  have hinsert : b.buffers.insert? pointer actual = some (b.buffers.insert pointer actual hfresh) :=
    Table.insert?_eq_some.2 ⟨hfresh, rfl⟩
  obtain ⟨hremaining, hlive⟩ := hwithin
  rw [RpcMemoryBudget.remaining] at hremaining
  rw [RpcMemoryBudget.add, hinsert]
  refine ⟨⟨?_, ?_, ?_, le_max_right _ _, ?_⟩, rfl, rfl⟩
  · show b.used + actual = (b.buffers.insert pointer actual hfresh).sum _
    rw [Table.sum_insert, h.used]
  · show b.used + actual ≤ b.limit
    omega
  · show (b.buffers.rows ++ [(pointer, actual)]).length ≤ 4096
    rw [List.length_append, List.length_singleton]
    omega
  · intro p size hmem
    rcases List.mem_append.1 hmem with hmem | hmem
    · exact h.sizes p size hmem
    · obtain ⟨-, rfl⟩ := Prod.mk.inj (List.mem_singleton.1 hmem)
      exact hsize

/-- A live buffer is taken out of a sound account. -/
theorem RpcMemoryBudget.Sound.drop {b : RpcMemoryBudget} (h : b.Sound) {pointer : Nat}
    (hlive : b.buffers.find? pointer ≠ none) : Settled b (b.drop pointer) := by
  obtain ⟨size, hfound⟩ := Option.ne_none_iff_exists'.1 hlive
  obtain ⟨before, after, hrows, hdelete⟩ := Table.rows_delete hfound
  have hnonneg : 0 ≤ size := h.sizes pointer size (Table.find?_eq_some.1 hfound)
  have hused : (b.drop pointer).used = b.used - size := by
    rw [RpcMemoryBudget.drop, hfound, Option.getD_some]
  refine ⟨⟨?_, ?_, ?_, ?_, ?_⟩, rfl, rfl⟩
  · rw [hused, h.used]
    exact (Table.sum_delete hfound _).symm
  · rw [hused]
    have hlimit := h.limit
    show b.used - size ≤ b.limit
    omega
  · have hlength := h.live
    show (b.buffers.deleteWhere fun p _ => p = pointer).rows.length ≤ 4096
    rw [hrows, List.length_append, List.length_cons] at hlength
    rw [hdelete, List.length_append]
    omega
  · rw [hused]
    have hpeak := h.peak
    show b.used - size ≤ b.peak
    omega
  · intro p s hmem
    exact h.sizes p s (List.mem_filter.1 hmem).1

/-! ### The operations of the budget -/

/-- The refusals of a frame before anything of it is forwarded. -/
def RpcCode.refusal : RpcCode → Bool
  | .rpcCommand | .computeUnreserved | .rpcComputeLimit | .rpcDevice | .rpcMemoryRequest => true
  | _ => false

/-- The account after the reply to an allocation: the buffer that the worker gave is added, if it
gave one. -/
def RpcMemoryBudget.allocation (b : RpcMemoryBudget) (reply : List UInt8) : RpcMemoryBudget :=
  if readU64 reply 0 = 0 then b else b.add (readU64 reply 0) (readU64 reply 8)

/-- The reply to an allocation fits the account: it is no buffer at all, or a new one of at least
the size that was asked for, within the budget. -/
def RpcMemoryBudget.Fits (b : RpcMemoryBudget) (requested : Int) (reply : List UInt8) : Prop :=
  if readU64 reply 0 = 0 then readU64 reply 8 = 0
  else b.buffers.find? (readU64 reply 0) = none ∧ requested ≤ readU64 reply 8 ∧
    b.withinBudget (readU64 reply 8)

/-- **An operation on an account** turns it into another, with something known of its value. One
that fails is no refusal of the frame, and has at most counted a refused allocation. -/
def Accounts {α : Type} (b b' : RpcMemoryBudget) (x : Prog RpcMemoryBudget RpcCode α)
    (Q : α → Prop) : Prop :=
  Ensures (fun s => s = b) x (fun a s => s = b' ∧ Q a) fun e s =>
    e.refusal = false ∧ SameAccount b s

section Operations

variable (b : RpcMemoryBudget)

/-- The check of an allocation passes exactly within the budget and the headroom. -/
theorem accounts_requireAllocation (size : Int) (free : Option Int) :
    Accounts b b (requireAllocation size free)
      fun _ => b.withinBudget size ∧ b.hasHeadroom size free := by
  rintro s rfl
  have hreject : SameAccount s { s with rejected := s.rejected + 1 } := (SameAccount.refl s).reject
  by_cases hw : s.withinBudget size
  · by_cases hh : s.hasHeadroom size free
    · simp [requireAllocation, when, require, bind_def, hw, hh]
    · simpa [requireAllocation, when, require, bind_def, hw, hh] using ⟨rfl, hreject⟩
  · simpa [requireAllocation, when, require, bind_def, hw] using ⟨rfl, hreject⟩

/-- The reply to an allocation is accounted for exactly, once it fits. -/
theorem accounts_allocated (requested : Int) (reply : List UInt8) :
    Accounts b (b.allocation reply) (allocated requested reply)
      fun _ => b.Fits requested reply := by
  refine .bind (R := fun s' s => s = b ∧ s' = b) (.get fun _ h => ⟨h, h⟩) fun s' =>
    .assume ?_
  rintro rfl
  unfold RpcMemoryBudget.allocation RpcMemoryBudget.Fits
  by_cases hzero : readU64 reply 0 = 0
  · simp only [if_pos hzero]
    exact .require (fun s hactual hs => ⟨hs, by exact_mod_cast hactual⟩)
      fun s _ hs => ⟨rfl, by rw [hs]; exact .refl _⟩
  · simp only [if_neg hzero]
    refine .check (fun _ s hs => ⟨rfl, by rw [hs]; exact .refl _⟩) fun hfresh => ?_
    refine .bind (accounts_requireAllocation s' _ none) fun _ => .assume fun hwithin => ?_
    exact .modify fun s hs => ⟨by rw [hs], hfresh.1, hfresh.2, hwithin.1⟩

/-- A buffer that is asked for is live. -/
theorem accounts_requireBuffer (pointer : Nat) :
    Accounts b b (requireBuffer pointer) fun _ => b.buffers.find? pointer ≠ none := by
  refine .bind (R := fun s' s => s = b ∧ s' = b) (.get fun _ h => ⟨h, h⟩) fun s' =>
    .assume ?_
  rintro rfl
  exact .require (fun s hlive hs => ⟨hs, hlive⟩) fun s _ hs => ⟨rfl, by rw [hs]; exact .refl _⟩

/-- A free takes a live buffer out of the account. -/
theorem accounts_freed (pointer : Nat) :
    Accounts b (b.drop pointer) (freed pointer) fun _ => b.buffers.find? pointer ≠ none :=
  .bind (accounts_requireBuffer b pointer) fun _ => .assume fun hlive =>
    .modify fun s hs => ⟨by rw [hs], hlive⟩

/-- What the engine is shown is no more than is free beyond the reserve, and than there is. -/
theorem accounts_memory (free total : Int) :
    Accounts b b (memory free total) fun visible =>
      visible.1 ≤ (if b.reserve < free then free - b.reserve else 0) ∧ visible.2 ≤ total := by
  refine .check (fun _ s hs => ⟨rfl, by rw [hs]; exact .refl _⟩) fun _ => ?_
  refine .bind (R := fun s' s => s = b ∧ s' = b) (.get fun _ h => ⟨h, h⟩) fun s' => .assume ?_
  rintro rfl
  exact .pure fun s hs => ⟨hs, (min_le_left _ _).trans (min_le_left _ _), min_le_left _ _⟩

variable {b}

/-- A sound account stays sound with a buffer that fits it. -/
theorem RpcMemoryBudget.Sound.allocation (h : b.Sound) {requested : Int} {reply : List UInt8}
    (hfits : b.Fits requested reply) : Settled b (b.allocation reply) := by
  unfold RpcMemoryBudget.Fits at hfits
  unfold RpcMemoryBudget.allocation
  by_cases hzero : readU64 reply 0 = 0
  · rw [if_pos hzero]
    exact ⟨h, rfl, rfl⟩
  · rw [if_neg hzero] at hfits ⊢
    exact h.add hfits.1 (Int.natCast_nonneg _) hfits.2.2

end Operations

/-! ### The guard around the budget -/

section Guard

variable {I : RpcMemoryBudget → List UInt8 → Prop}

/-- A read from the worker leaves the account and what the client was sent alone. -/
theorem keeps_readOutput (n : Nat) : Keeps (fun g => I g.budget g.toClient) (readOutput n) :=
  .zoom fun _ _ h => h

/-- So does a write to the worker. -/
theorem keeps_writeWorker (bytes : List UInt8) :
    Keeps (fun g => I g.budget g.toClient) (writeWorker bytes) := .modify fun _ h => h

/-- So does a reply of the worker. -/
theorem keeps_response (n : Nat) : Keeps (fun g => I g.budget g.toClient) (response n) :=
  .bind (keeps_readOutput 8) fun _ => .bind .require fun _ =>
    .bind (keeps_readOutput n) fun _ => .pure

/-- So does an observation of the physical memory. -/
theorem keeps_conservativeFree (probe : Bool) (reported : Int) :
    Keeps (fun g => I g.budget g.toClient) (conservativeFree probe reported) := by
  refine .ite (.bind ?_ fun seen => ?_) .pure
  · exact .bind .get fun _ => .bind (.modify fun _ h => h) fun _ => .pure
  · cases seen with
    | unavailable => exact .fail
    | free physical => exact .bind .require fun _ => .pure

/-- The guard's own memory query leaves the budget alone. -/
theorem keeps_memoryBarrier (probe : Bool) :
    Keeps (fun g => I g.budget g.toClient) (memoryBarrier probe) :=
  .bind (keeps_writeWorker _) fun _ => .bind (keeps_response 16) fun _ => .bind .require fun _ =>
    keeps_conservativeFree probe _

/-- So does the writing of a number. -/
theorem keeps_writeBigUInt64LE (body : List UInt8) (offset : Nat) (value : Int) :
    Keeps (fun g => I g.budget g.toClient) (writeBigUInt64LE body offset value) :=
  .bind .require fun _ => .pure

end Guard

/-- The guard has an account, and has sent the client some bytes. -/
def Holding (b : RpcMemoryBudget) (sent : List UInt8) (g : Guard) : Prop :=
  g.budget = b ∧ g.toClient = sent

/-- The guard failed: at most a refused allocation was counted. -/
def Unchanged (b : RpcMemoryBudget) (_ : RpcCode) (g : Guard) : Prop := SameAccount b g.budget

section Commands

variable {b b' : RpcMemoryBudget} {sent : List UInt8} {α : Type}

/-- A guard that holds an account has not changed it. -/
theorem Holding.unchanged {e : RpcCode} {g : Guard} (h : Holding b sent g) : Unchanged b e g := by
  unfold Unchanged
  rw [h.1]
  exact .refl b

/-- What keeps the account and the bytes of the client leaves the guard with them. -/
theorem holding_of_keeps {x : Prog Guard RpcCode α}
    (h : ∀ I : RpcMemoryBudget → List UInt8 → Prop, Keeps (fun g => I g.budget g.toClient) x) :
    Ensures (Holding b sent) x (fun _ => Holding b sent) (Unchanged b) :=
  (h fun s c => s = b ∧ c = sent).ensures fun _ _ hg => Holding.unchanged hg

/-- An operation on the account, within the guard. -/
theorem holding_onBudget {x : Prog RpcMemoryBudget RpcCode α} {Q : α → Prop}
    (h : Accounts b b' x Q) :
    Ensures (Holding b sent) (onBudget x) (fun a g => Holding b' sent g ∧ Q a) (Unchanged b) :=
  .zoom fun _ hg => Ensures.mono h (fun _ hs => hs.trans hg.1) (fun _ _ hs => ⟨⟨hs.1, hg.2⟩, hs.2⟩)
    fun _ _ hs => hs.2

/-- The checks of an allocation leave the account alone. -/
theorem holding_checkAllocation (probe : Bool) (requested : Int) :
    Ensures (Holding b sent) (checkAllocation probe requested) (fun _ => Holding b sent)
      (Unchanged b) := by
  have hcheck (free : Option Int) : Ensures (Holding b sent)
      (onBudget (requireAllocation requested free)) (fun _ => Holding b sent) (Unchanged b) :=
    (holding_onBudget (accounts_requireAllocation b _ _)).mono (fun _ h => h) (fun _ _ h => h.1)
      fun _ _ h => h
  exact .bind (hcheck none) fun _ =>
    .bind (holding_of_keeps fun _ => keeps_memoryBarrier probe) fun _ =>
    .bind (hcheck _) fun _ => .pure fun _ h => h

/-- What the client is answered: the reply to an allocation as it is, once it is accounted for;
the other replies leave the account alone. -/
theorem holding_answer (probe : Bool) (command : Nat) (requested freeBefore : Int)
    (body : List UInt8) :
    Ensures (Holding b sent) (answer probe command requested freeBefore body)
      (fun out g => (command = 0 → Holding (b.allocation body) sent g ∧ out = body ∧
        b.Fits requested body) ∧ (command ≠ 0 → Holding b sent g)) (Unchanged b) := by
  -- the replies that leave the account alone
  have hother {x : Prog Guard RpcCode (List UInt8)} (hne : command ≠ 0)
      (hx : Ensures (Holding b sent) x (fun _ => Holding b sent) (Unchanged b)) :
      Ensures (Holding b sent) x (fun out g => (command = 0 → Holding (b.allocation body) sent g ∧
        out = body ∧ b.Fits requested body) ∧ (command ≠ 0 → Holding b sent g)) (Unchanged b) :=
    hx.mono (fun _ h => h) (fun _ _ h => ⟨fun hzero => absurd hzero hne, fun _ => h⟩)
      fun _ _ h => h
  refine .ite (fun hzero => ?_) fun hne => .ite (fun _ => hother hne ?_) fun _ =>
    .ite (fun _ => hother hne ?_) fun _ => .ite (fun _ => hother hne ?_) fun _ =>
      hother hne (.pure fun _ h => h)
  · refine .bind (holding_onBudget (accounts_requireAllocation b _ _)) fun _ => .assume fun _ => ?_
    refine .bind (holding_onBudget (accounts_allocated b _ _)) fun _ => .assume fun hfits => ?_
    exact .pure fun g hg => ⟨fun _ => ⟨hg, rfl, hfits⟩, fun hne => absurd hzero hne⟩
  · exact .bind (.get fun _ h => h) fun _ => holding_of_keeps fun _ => keeps_writeBigUInt64LE _ _ _
  · refine .check (fun _ _ h => h.unchanged) fun _ =>
      .bind (holding_of_keeps fun _ => keeps_conservativeFree probe _) fun _ => ?_
    refine .bind (holding_onBudget (accounts_memory b _ _)) fun _ => .assume fun _ => ?_
    exact .bind (holding_of_keeps fun _ => keeps_writeBigUInt64LE _ _ _) fun _ =>
      holding_of_keeps fun _ => keeps_writeBigUInt64LE _ _ _
  · exact .check (fun _ _ h => h.unchanged) fun _ => .pure fun _ h => h

/-- **What an accepted command makes of an account**: an allocation adds the buffer that the worker
gave, which fits, a free takes out the live buffer that it names, and the others leave the account
alone. -/
structure Accepted (b : RpcMemoryBudget) (command : Nat) (request reply : List UInt8)
    (b' : RpcMemoryBudget) : Prop where
  allocation : command = 0 → b.Fits (readU64 request 4) reply ∧ b' = b.allocation reply
  free : command = 4 → b.buffers.find? (readU64 request 0) ≠ none ∧
    b' = b.drop (readU64 request 0)
  other : command ≠ 0 → command ≠ 4 → b' = b

/-- An accepted command leaves a sound account sound, with its limits. -/
theorem Accepted.settled {command : Nat} {request reply : List UInt8}
    (h : Accepted b command request reply b') (hs : b.Sound) : Settled b b' := by
  by_cases hzero : command = 0
  · obtain ⟨hfits, rfl⟩ := h.allocation hzero
    exact hs.allocation hfits
  · by_cases hfour : command = 4
    · obtain ⟨hlive, rfl⟩ := h.free hfour
      exact hs.drop hlive
    · rw [h.other hzero hfour]
      exact ⟨hs, rfl, rfl⟩

/-- **One memory command** is accepted, and its account is then exactly as it says, or it fails and
leaves the account as it was. The client gets the reply to an allocation as the worker sent it.

**Proof sketch.** Until the reply has come nothing writes the account, so that a failure leaves it.
A free is accounted after the barrier; an allocation when its reply names a buffer that is new and
fits. The two writes to the client are the last steps and cannot fail. -/
theorem observeMemoryCommand_ensures (g₀ : Guard) (probe : Bool) (command bytes : Nat)
    (header : List UInt8) :
    Ensures (fun g => g = g₀) (observeMemoryCommand probe command bytes header)
      (fun _ g => ∃ request size reply, (Reader.read bytes g₀.input).1 = .ok request ∧
        Accepted g₀.budget command request reply g.budget ∧
        (command = 0 → g.toClient = g₀.toClient ++ size ++ reply)) (Unchanged g₀.budget) := by
  have hstart : ∀ g, g = g₀ → Holding g₀.budget g₀.toClient g := by
    rintro g rfl
    exact ⟨rfl, rfl⟩
  refine .check (fun _ g hg => (hstart g hg).unchanged) fun _ => ?_
  refine .bind (R := fun request g => Holding g₀.budget g₀.toClient g ∧
    (Reader.read bytes g₀.input).1 = .ok request) ?_ fun request => .assume fun hread => ?_
  · rintro g rfl
    unfold readInput zoom
    rcases hread : Reader.read bytes g.input with ⟨e | request, r⟩
    · exact .refl _
    · exact ⟨⟨rfl, rfl⟩, rfl⟩
  refine .bind (R := fun _ => Holding g₀.budget g₀.toClient) (.ite (fun _ => .require
    (fun _ _ h => h) fun _ _ h => h.unchanged) fun _ => .pure fun _ h => h) fun _ => ?_
  refine .bind (R := fun _ => Holding g₀.budget g₀.toClient)
    (.ite (fun _ => holding_checkAllocation probe _) fun _ => .pure fun _ h => h)
    fun freeBefore => ?_
  refine .bind (R := fun _ => Holding g₀.budget g₀.toClient) (.ite (fun _ =>
    (holding_onBudget (accounts_requireBuffer g₀.budget _)).mono (fun _ h => h) (fun _ _ h => h.1)
      fun _ _ h => h) fun _ => .pure fun _ h => h) fun _ => ?_
  refine .bind (holding_of_keeps fun _ => keeps_writeWorker header) fun _ =>
    .bind (holding_of_keeps fun _ => keeps_writeWorker request) fun _ => ?_
  refine .ite (fun hfour => ?_) fun hother => ?_
  · refine .bind (holding_of_keeps fun _ => keeps_memoryBarrier probe) fun _ =>
      (holding_onBudget (accounts_freed g₀.budget _)).mono (fun _ h => h) ?_ fun _ _ h => h
    rintro - g ⟨hg, hlive⟩
    exact ⟨request, [], [], hread, ⟨fun hzero => by omega, fun _ => ⟨hlive, hg.1⟩,
      fun _ hne => absurd hfour hne⟩, fun hzero => by omega⟩
  · refine .bind (holding_of_keeps fun _ => keeps_response _) fun reply =>
      .bind (holding_answer probe command _ _ _) fun out => ?_
    -- the two writes to the client cannot fail
    refine .modify fun g hg => ?_
    refine ⟨request, reply.1, reply.2, hread, ⟨fun hzero => ?_, fun hfour => absurd hfour hother,
      fun hzero _ => (hg.2 hzero).1⟩, fun hzero => ?_⟩
    · obtain ⟨hheld, -, hfits⟩ := hg.1 hzero
      exact ⟨hfits, hheld.1⟩
    · obtain ⟨hheld, rfl, -⟩ := hg.1 hzero
      show g.toClient ++ reply.1 ++ reply.2 = _
      rw [hheld.2]

end Commands

/-! ### Any sequence of commands -/

/-- A memory command, with all that the client, the worker and the probe do in it. -/
structure MemoryCommand where
  probe : Bool
  command : Nat
  bytes : Nat
  header : List UInt8
  input : Reader
  output : Reader
  physical : Nat → Physical

/-- The command, handled with a budget. -/
def MemoryCommand.run (i : MemoryCommand) (b : RpcMemoryBudget) : Except RpcCode Unit × Guard :=
  observeMemoryCommand i.probe i.command i.bytes i.header
    ⟨i.input, i.output, i.physical, 0, [], [], b⟩

/-- A new budget, and the commands of its connection. -/
def memorySystem : Machine.System RpcMemoryBudget MemoryCommand where
  init b := ∃ limitBytes reserveBytes, RpcMemoryBudget.create limitBytes reserveBytes = some b
  step i b := (i.run b).2.budget

/-- A new account is sound, and its reserve is no debt. -/
theorem RpcMemoryBudget.create_sound {limitBytes reserveBytes : Nat} {b : RpcMemoryBudget}
    (h : RpcMemoryBudget.create limitBytes reserveBytes = some b) : b.Sound ∧ 0 ≤ b.reserve := by
  unfold RpcMemoryBudget.create at h
  split at h
  · rw [Option.some.injEq] at h
    rw [← h]
    refine ⟨⟨rfl, Int.natCast_nonneg _, by simp [Table.empty], le_refl _, ?_⟩,
      Int.natCast_nonneg _⟩
    intro p size hmem
    cases hmem
  · cases h

/-- **An accepted command** makes of the account exactly what it says: an allocation adds the buffer
of the reply that the client got, and a free takes out the buffer that it names. -/
theorem MemoryCommand.run_accepted (i : MemoryCommand) {b : RpcMemoryBudget}
    (h : (i.run b).1 = .ok ()) :
    ∃ request size reply, (Reader.read i.bytes i.input).1 = .ok request ∧
      Accepted b i.command request reply (i.run b).2.budget ∧
      (i.command = 0 → (i.run b).2.toClient = size ++ reply) := by
  have hspec := observeMemoryCommand_ensures ⟨i.input, i.output, i.physical, 0, [], [], b⟩ i.probe
    i.command i.bytes i.header
  exact hspec.of_ok rfl h

/-- A command settles the account, or leaves its buffers and totals as they were. -/
theorem MemoryCommand.run_cases (i : MemoryCommand) {b : RpcMemoryBudget} (h : b.Sound) :
    ((i.run b).1 = .ok () ∧ Settled b (i.run b).2.budget) ∨
      ∃ e, (i.run b).1 = .error e ∧ SameAccount b (i.run b).2.budget := by
  cases hrun : (i.run b).1 with
  | ok u =>
    obtain ⟨request, size, reply, -, haccepted, -⟩ := i.run_accepted hrun
    exact .inl ⟨rfl, haccepted.settled h⟩
  | error e =>
    have hspec := observeMemoryCommand_ensures ⟨i.input, i.output, i.physical, 0, [], [], b⟩
      i.probe i.command i.bytes i.header
    exact .inr ⟨e, rfl, hspec.of_error rfl hrun⟩

/-- A command keeps an account sound, with its limits. -/
theorem MemoryCommand.settled (i : MemoryCommand) {b : RpcMemoryBudget} (h : b.Sound) :
    Settled b (memorySystem.step i b) := by
  rcases i.run_cases h with ⟨-, hs⟩ | ⟨e, -, hsame⟩
  · exact hs
  · exact hsame.settled h

/-- A run keeps a sound account, and its limits. -/
theorem settled_run {b : RpcMemoryBudget} (h : b.Sound) (is : List MemoryCommand) :
    Settled b (memorySystem.run b is) := by
  induction is generalizing b with
  | nil => exact ⟨h, rfl, rfl⟩
  | cons i is ih =>
    have hstep := i.settled h
    have hrest := ih hstep.sound
    exact ⟨hrest.sound, hrest.limit.trans hstep.limit, hrest.reserve.trans hstep.reserve⟩

/-! ### What the engine is shown -/

/-- The two fields of a reply, once both are written. -/
theorem readU64_setU64_setU64 (body : List UInt8) {m n : Nat} (hm : m < 2 ^ 64)
    (hn : n < 2 ^ 64) :
    readU64 (setU64 (setU64 body 0 m) 8 n) 0 = m ∧ readU64 (setU64 (setU64 body 0 m) 8 n) 8 = n := by
  have hfirst : (setU64 body 0 m).take 8 = writeLE 8 m := by
    rw [setU64, List.take_zero, List.nil_append, List.take_append_of_le_length (by simp),
      List.take_of_length_le (by simp)]
  have hwhole : setU64 (setU64 body 0 m) 8 n =
      writeLE 8 m ++ (writeLE 8 n ++ (setU64 body 0 m).drop 16) := by
    rw [setU64, hfirst, List.append_assoc]
  rw [hwhole]
  constructor
  · rw [readU64, List.drop_zero, List.take_append_of_le_length (by simp),
      List.take_of_length_le (by simp), readLE_writeLE (by omega)]
  · have hdrop : (writeLE 8 m ++ (writeLE 8 n ++ (setU64 body 0 m).drop 16)).drop 8 =
        writeLE 8 n ++ (setU64 body 0 m).drop 16 := List.drop_left' (by simp)
    rw [readU64, hdrop, List.take_append_of_le_length (by simp),
      List.take_of_length_le (by simp), readLE_writeLE (by omega)]

/-- What the answer to a memory query shows, for the free memory that was observed. -/
theorem memoryReply_ok {probe : Bool} {body body' : List UInt8} {g g' : Guard}
    (h : memoryReply probe body g = (.ok body', g')) :
    ∃ free g₁, conservativeFree probe (readU64 body 0) g = (.ok free, g₁) ∧
      (readU64 body' 0 : Int) = min (min (if g.budget.reserve < free then free - g.budget.reserve
        else 0) g.budget.remaining) (readU64 body' 8) := by
  simp only [memoryReply, bind_ok, require_ok] at h
  obtain ⟨-, g₀, ⟨-, rfl⟩, free, g₁, hfree, visible, g₂, hvisible, withFree, g₃, hwrite, hlast⟩ := h
  refine ⟨free, g₁, hfree, ?_⟩
  have hbudget : g₁.budget = g.budget := by
    have hkeeps := keeps_conservativeFree (I := fun b _ => b = g.budget) probe (readU64 body 0) g rfl
    rw [hfree] at hkeeps
    exact hkeeps
  simp only [onBudget, zoom_ok, memory, bind_ok, require_ok, get_def, Prod.mk.injEq,
    Except.ok.injEq, pure_def, hbudget] at hvisible
  obtain ⟨t, ⟨-, t₁, ⟨-, rfl⟩, b, t₂, ⟨rfl, rfl⟩, rfl, -⟩, -⟩ := hvisible
  simp only [writeBigUInt64LE, bind_ok, require_ok, pure_def, Prod.mk.injEq,
    Except.ok.injEq] at hwrite hlast
  obtain ⟨-, -, ⟨⟨hpos, -⟩, -⟩, rfl, -⟩ := hwrite
  obtain ⟨-, -, ⟨⟨htotal, htotal'⟩, -⟩, rfl, -⟩ := hlast
  set total := min (readU64 body 8 : Int) g.budget.limit with htotaldef
  set shown := min (min (if g.budget.reserve < free then free - g.budget.reserve else 0)
    g.budget.remaining) total with hshown
  have hle : shown ≤ total := min_le_right _ _
  obtain ⟨hfirst, hsecond⟩ := readU64_setU64_setU64 body (m := shown.toNat) (n := total.toNat)
    (by omega) (by omega)
  rw [hfirst, hsecond, Int.toNat_of_nonneg hpos, Int.toNat_of_nonneg htotal]

/-- An allocation within the budget and the headroom passes the checks of its request. -/
theorem checkAllocation_passes {probe : Bool} {size free : Int} {g g' : Guard}
    (hwithin : g.budget.withinBudget size) (hroom : g.budget.hasHeadroom size (some free))
    (hbarrier : memoryBarrier probe g = (.ok free, g')) :
    (checkAllocation probe size g).1 = .ok free := by
  have hpass : ∀ {x : Option Int} {b : RpcMemoryBudget}, b.withinBudget size →
      b.hasHeadroom size x → requireAllocation size x b = (.ok (), b) := by
    intro x b hw hh
    simp [requireAllocation, when, require, bind_def, hw, hh]
  have hfirst : onBudget (requireAllocation size none) g = (.ok (), g) := by
    rw [onBudget, zoom_ok]
    exact ⟨g.budget, hpass hwithin trivial, rfl⟩
  have hbudget : g'.budget = g.budget := by
    have hkeeps := keeps_memoryBarrier (I := fun b _ => b = g.budget) probe g rfl
    rw [hbarrier] at hkeeps
    exact hkeeps
  have hsecond : onBudget (requireAllocation size (some free)) g' = (.ok (), g') := by
    rw [onBudget, zoom_ok]
    refine ⟨g'.budget, hpass ?_ ?_, rfl⟩
    · rw [hbudget]
      exact hwithin
    · rw [hbudget]
      exact hroom
  simp only [checkAllocation, bind_def, hfirst, hbarrier, hsecond, pure_def]

/-- A budget of a kilobyte, of which 128 bytes are kept in reserve. -/
def kilobyte : RpcMemoryBudget := ⟨1024, 128, Table.empty, 0, 0, 0⟩

/-- An allocation of 500 bytes, which the worker rounds up to 512. -/
def allocation : MemoryCommand where
  probe := false
  command := 0
  bytes := 12
  header := 0 :: writeLE 8 12
  input := ⟨[], [[0, 0, 0, 0], writeLE 8 500]⟩
  output := ⟨[], [writeLE 8 16 ++ writeLE 8 8192, writeLE 8 8192 ++ writeLE 8 16,
    writeLE 8 1 ++ writeLE 8 512]⟩
  physical _ := .unavailable

/-- The reply of a worker with 8192 bytes free. -/
def reported : List UInt8 := writeLE 8 8192 ++ writeLE 8 8192

/-- A query of the memory. -/
def query : MemoryCommand where
  probe := false
  command := 11
  bytes := 4
  header := 11 :: writeLE 8 4
  input := ⟨[], [[0, 0, 0, 0]]⟩
  output := ⟨[], [writeLE 8 16 ++ reported]⟩
  physical _ := .unavailable

/-- The free of the buffer that was allocated. -/
def release : MemoryCommand where
  probe := false
  command := 4
  bytes := 8
  header := 4 :: writeLE 8 8
  input := ⟨[], [writeLE 8 1]⟩
  output := ⟨[], [writeLE 8 16 ++ reported]⟩
  physical _ := .unavailable

/-- The allocation adds its buffer, the query shows what is left, and the free takes the buffer out
again. -/
example :
    (memorySystem.run kilobyte [allocation]).buffers.rows = [(1, 512)] ∧
      (query.run (memorySystem.run kilobyte [allocation])).2.toClient =
        writeLE 8 16 ++ (writeLE 8 512 ++ writeLE 8 1024) ∧
      (memorySystem.run kilobyte [allocation, query, release]).buffers.rows = [] := by
  decide

/-- A guard whose worker has 8192 bytes free. -/
def idle (b : RpcMemoryBudget) : Guard :=
  ⟨⟨[], []⟩, ⟨[], [writeLE 8 16 ++ reported]⟩, fun _ => .unavailable, 0, [], [], b⟩

end NetworkAi.Rpc
