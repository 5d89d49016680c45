import NetworkAi.Lib.Delimited
import NetworkAi.Rpc.Exchanges

set_option relaxedAutoImplicit false
set_option autoImplicit false

/-!
# The guard is transparent

A connection through the guard is a sequence of exchanges, up to the command that ends it. The
frames of the engine reach the worker as they are, and the replies of the worker reach the engine
paired with their frames, whatever the guard asks the worker in between. A frame of which anything
reached the worker had passed the checks of its command, against the account of the buffers that
the exchanges before it had left.

## Main definitions

* `NetworkAi.Rpc.Observed`, `NetworkAi.Rpc.Broken` — the two ways for a command to end.
* `NetworkAi.Rpc.Relayed` — the exchanges since the handshake.
* `NetworkAi.Rpc.Transcript` — what happened on a connection.

## Main results

* `NetworkAi.Rpc.ensures_observeCommand` — one command; `NetworkAi.Rpc.ensures_observeCommands` —
  the loop over them.
* `NetworkAi.Rpc.rpc_transparency` — a connection is explained by its transcript.
-/

namespace NetworkAi.Rpc

open Relational Stateful

/-! ### One command -/

/-- The command was relayed, and metered if it computes. -/
def Observed (hooks : Hooks) (c₀ c : Observer) : Prop :=
  ∃ x : Exchange, x.Served hooks ∧
    Moved c₀.guard (x.stock hooks c₀.guard.stock) x.frame.encode x.received x.sent x.answered
      c.guard ∧
    c.handshake = c₀.handshake ∧
    ∀ start xs, Metered hooks c₀.guard.physical start xs c₀.guard.stock c₀.asked c₀.metered →
      Metered hooks c₀.guard.physical start (xs ++ [x]) (x.stock hooks c₀.guard.stock) c.asked
        c.metered

/-- **A compute command** is relayed and metered if its lease is reserved and admits it, or it
fails. -/
theorem ensures_observeCompute {hooks : Hooks} {c₀ : Observer} {commandByte length : List UInt8}
    {command : UInt8} (hcommand : commandByte = [command]) (hlength : length.length = 8)
    (hframe : readLE length ≤ maxFrame) (hrange : command.toNat ≤ 17 ∧ command.toNat ≠ 14)
    (hcompute : computing command.toNat) :
    Ensures (Within c₀.guard c₀.handshake c₀.asked c₀.metered (commandByte ++ length) [] [] [])
      (observeCompute hooks (commandByte ++ length) (readLE length))
      (fun _ => Observed hooks c₀) (Broken hooks c₀) := by
  have hrefused : ∀ {e : RpcCode} {k : Nat} {read : List UInt8} {c : Observer},
      Within c₀.guard c₀.handshake k c₀.metered read [] [] [] c → Broken hooks c₀ e c := fun hc =>
    ⟨hc.moved.failed .refused, hc.handshake, [], by simp, hc.metered⟩
  refine .bind (R := fun turn c => Within c₀.guard c₀.handshake (c₀.asked + 1) c₀.metered
    (commandByte ++ length) [] [] [] c ∧ turn = hooks.turns c₀.asked) ?_ fun turn => .assume ?_
  · refine .bind (R := fun c s => Within c₀.guard c₀.handshake c₀.asked c₀.metered
      (commandByte ++ length) [] [] [] s ∧ c.asked = c₀.asked) (.get fun s h => ⟨h, h.asked⟩)
      fun c => .assume fun hasked => .bind (R := fun _ => Within c₀.guard c₀.handshake
        (c₀.asked + 1) c₀.metered (commandByte ++ length) [] [] []) (.modify fun s h => ?_) fun _ =>
          .pure fun s h => ⟨h, by rw [hasked]⟩
    exact ⟨h.moved, h.handshake, congrArg (· + 1) h.asked, h.metered⟩
  rintro rfl
  refine .check (fun _ c hc => hrefused hc) fun hreserved => ?_
  cases hlease : (hooks.turns c₀.asked).lease with
  | none => exact .fail fun c hc => hrefused hc
  | some lease =>
    refine .check (fun _ c hc => hrefused hc) fun hadmits => ?_
    rw [hlease] at hreserved
    refine (ensures_relayCompute hcommand hlength hframe hrange hcompute hlease hreserved
      hadmits).mono (fun _ h => h) ?_ fun _ _ h => h
    rintro - c ⟨x, hserved, rfl, hpasses, hc⟩
    have hstock : x.stock hooks c₀.guard.stock = c₀.guard.stock :=
      if_neg (not_accounts_of_computing hcompute)
    refine ⟨x, hserved, ?_, hc.handshake, fun start xs hxs => ?_⟩
    · rw [hstock]
      exact hc.moved
    · rw [hc.asked, hc.metered]
      exact .compute hxs hpasses hcompute hlease

/-- **One command** is relayed, and metered if it computes, or it fails. -/
theorem ensures_observeCommand (hooks : Hooks) {c₀ : Observer}
    (hreserve : 0 ≤ c₀.guard.budget.reserve) :
    Ensures (fun c => c = c₀) (observeCommand hooks) (fun _ => Observed hooks c₀)
      (Broken hooks c₀) := by
  have hrefused : ∀ {e : RpcCode} {read : List UInt8} {c : Observer},
      Within c₀.guard c₀.handshake c₀.asked c₀.metered read [] [] [] c → Broken hooks c₀ e c :=
    fun hc => ⟨hc.moved.failed .refused, hc.handshake, [], by simp, hc.metered⟩
  -- a computation of the guard that completes the command
  have hguard : ∀ {x : Prog Guard RpcCode Unit} {read : List UInt8} {command : UInt8},
      ¬ computing command.toNat → Ensures (Moved c₀.guard c₀.guard.stock read [] [] []) x
        (fun _ => Completed hooks c₀.asked c₀.guard command)
        (Failed hooks c₀.asked c₀.guard) →
      Ensures (Within c₀.guard c₀.handshake c₀.asked c₀.metered read [] [] []) (onGuard x)
        (fun _ => Observed hooks c₀) (Broken hooks c₀) := by
    intro x read command hother hx
    refine (ensures_onGuard hx).mono (fun _ h => Within.iff.1 h) ?_ ?_
    · rintro - c ⟨⟨y, hserved, rfl, hpasses, hmoved⟩, hshake, hasked, hmetered⟩
      refine ⟨y, hserved, hmoved, hshake, fun start xs hxs => ?_⟩
      rw [hasked, hmetered]
      exact .other hxs hpasses hother
    · rintro e c ⟨hfailed, hshake, -, hmetered⟩
      exact ⟨hfailed, hshake, [], by simp, hmetered⟩
  refine (Ensures.mono (P := Within c₀.guard c₀.handshake c₀.asked c₀.metered [] [] [] []) ?_
    (fun c hc => by rw [hc]; exact ⟨.start _, rfl, rfl, rfl⟩) (fun _ _ h => h) fun _ _ h => h)
  refine observe_readInput (fun c hc _ => hrefused hc) fun commandByte hbyte => ?_
  refine observe_readInput (fun c hc _ => hrefused hc) fun length hlength => ?_
  obtain ⟨command, rfl⟩ := List.length_eq_one_iff.1 hbyte
  have hread : readLE [command] = command.toNat := by simp [readLE]
  rw [List.nil_append, hread]
  refine ensures_frameLength_bind (fun c hc => hrefused hc) fun hframe => ?_
  refine .check (fun _ c hc => hrefused hc) fun hrange => ?_
  refine .ite (fun hcompute => ?_) fun hother =>
    .ite (fun hmemory => hguard hother ?_) fun hmemory => hguard hother ?_
  · exact ensures_observeCompute rfl hlength hframe hrange hcompute
  · exact ensures_memoryCommand hmemory.1 hreserve rfl hlength hframe
  · exact ensures_relayCommand rfl hlength hframe hrange hother hmemory

/-! ### The run -/

/-- An exchange keeps the reserve of the account. -/
theorem Exchange.stock_reserve (hooks : Hooks) (x : Exchange) (s : Stock) :
    (x.stock hooks s).account.reserve = s.account.reserve := by
  have hallocation (b : RpcMemoryBudget) (body : List UInt8) :
      (b.allocation body).reserve = b.reserve := by
    unfold RpcMemoryBudget.allocation RpcMemoryBudget.add
    split
    · rfl
    · split
      · rfl
      · rfl
  have hqueried (command : Nat) : (s.queried hooks command).account = s.account := by
    unfold Stock.queried
    split
    · exact Stock.probed_account hooks s
    · rfl
  unfold Exchange.stock
  split
  · split
    · rfl
    · unfold Stock.replied
      split
      · rw [← hqueried x.frame.command.toNat]
        exact hallocation _ _
      · split
        · rw [Stock.probed_account, hqueried]
        · rw [hqueried]
  · rfl

/-- What was relayed since the handshake. -/
structure Relayed (hooks : Hooks) (g₁ : Guard) (xs : List Exchange) (c : Observer) : Prop where
  moved : Moved g₁ c.guard.stock (xs.flatMap (·.frame.encode)) (xs.flatMap Exchange.received)
    (xs.flatMap Exchange.sent) (xs.flatMap Exchange.answered) c.guard
  served : ∀ x ∈ xs, x.Served hooks
  metered : Metered hooks g₁.physical g₁.stock xs c.guard.stock c.asked c.metered
  handshake : c.handshake = true
  reserve : c.guard.budget.reserve = g₁.budget.reserve

/-- What moved before and after a moment moved on the whole. -/
theorem Moved.trans {g₀ g₁ g₂ : Guard} {k k' : Stock} {a b s t a' b' s' t' : List UInt8}
    (h : Moved g₀ k a b s t g₁) (h' : Moved g₁ k' a' b' s' t' g₂) :
    Moved g₀ k' (a ++ a') (b ++ b') (s ++ s') (t ++ t') g₂ :=
  ⟨by rw [List.append_assoc, ← h'.input, h.input], by rw [List.append_assoc, ← h'.output, h.output],
    by rw [← List.append_assoc, ← h.toWorker, h'.toWorker],
    by rw [← List.append_assoc, ← h.toClient, h'.toClient], h'.physical.trans h.physical, h'.stock⟩

/-- One more command that was relayed. -/
theorem Relayed.snoc {hooks : Hooks} {g₁ : Guard} {xs : List Exchange} {c c' : Observer}
    (h : Relayed hooks g₁ xs c) (hc : Observed hooks c c') :
    ∃ x, Relayed hooks g₁ (xs ++ [x]) c' := by
  obtain ⟨x, hserved, hmoved, hshake, hmetered⟩ := hc
  have hstock := hmoved.stock
  refine ⟨x, ?_, ?_, ?_, hshake.trans h.handshake, ?_⟩
  · rw [hstock]
    simpa only [List.flatMap_append, List.flatMap_singleton] using h.moved.trans hmoved
  · intro y hy
    rcases List.mem_append.1 hy with hy | hy
    · exact h.served y hy
    · rw [List.mem_singleton.1 hy]
      exact hserved
  · have hnext := hmetered g₁.stock xs
    rw [h.moved.physical] at hnext
    rw [hstock]
    exact hnext h.metered
  · have hkept := congrArg (fun s : Stock => s.account.reserve) hstock
    exact hkept.trans ((x.stock_reserve hooks _).trans h.reserve)

/-- The loop ended with a command that failed. -/
def Ended (hooks : Hooks) (g₁ : Guard) (e : RpcCode) (c : Observer) : Prop :=
  ∃ xs c', Relayed hooks g₁ xs c' ∧ Broken hooks c' e c

/-- The loop relays command after command, until one of them fails. -/
theorem ensures_observeCommands {hooks : Hooks} {g₁ : Guard} (hreserve : 0 ≤ g₁.budget.reserve)
    (fuel : Nat) (xs : List Exchange) :
    Ensures (Relayed hooks g₁ xs) (observeCommands hooks fuel)
      (fun _ c => ∃ ys, Relayed hooks g₁ ys c ∧ ys.length = xs.length + fuel) (Ended hooks g₁) := by
  induction fuel generalizing xs with
  | zero => exact .pure fun c hc => ⟨xs, hc, rfl⟩
  | succ fuel ih =>
    refine .bind (R := fun _ c => ∃ x, Relayed hooks g₁ (xs ++ [x]) c) (fun c hc => ?_) fun _ =>
      .exists fun x => (ih (xs ++ [x])).mono (fun _ h => h) ?_ fun _ _ h => h
    · have hc0 : 0 ≤ c.guard.budget.reserve := by
        rw [hc.reserve]
        exact hreserve
      have hone := ensures_observeCommand hooks hc0 c rfl
      rcases hrun : observeCommand hooks c with ⟨e | u, c'⟩
      · rw [hrun] at hone
        exact ⟨xs, c, hc, hone⟩
      · rw [hrun] at hone
        exact hc.snoc hone
    · rintro - c ⟨ys, hys, hlen⟩
      refine ⟨ys, hys, ?_⟩
      rw [hlen, List.length_append, List.length_singleton]
      omega

/-- Every frame takes a byte at least. -/
theorem length_le_flatMap_encode (xs : List Exchange) :
    xs.length ≤ (xs.flatMap (·.frame.encode)).length := by
  induction xs with
  | nil => exact le_rfl
  | cons x xs ih =>
    rw [List.flatMap_cons, List.length_append, List.length_cons, Frame.encode, List.length_cons]
    omega

/-- The hello of the engine, before its capabilities. -/
def hello : List UInt8 := 14 :: writeLE 8 24

/-- No capabilities. -/
def withheld : List UInt8 := List.replicate 24 0

/-- What a connection that fails in the handshake leaves behind. -/
structure Refused (c : Observer) : Prop where
  handshake : c.handshake = false
  toClient : c.guard.toClient = []
  toWorker : c.guard.toWorker = [] ∨ c.guard.toWorker = hello ++ withheld
  metered : c.metered = []

/-- What a handshake leaves behind, for the capabilities of the engine and the greeting of the
worker. -/
structure Shaken (c₀ : Observer) (capabilities greeting : List UInt8) (c : Observer) : Prop where
  moved : Moved c₀.guard c₀.guard.stock (hello ++ capabilities) (reply greeting) (hello ++ withheld)
    (reply (greeting.take 4 ++ withheld)) c.guard
  capabilities : capabilities.length = 24
  greeting : greeting.length = 28
  handshake : c.handshake = true
  asked : c.asked = 0
  metered : c.metered = []

/-- **The handshake** withholds the capabilities of both sides, or the connection is refused.

**Proof sketch.** Step by step: the first frame must be the greeting of the protocol, which is sent
with its capabilities withheld, and the reply's capabilities are withheld as well. A failure before
the greeting has sent nothing, one after it nothing to the client. -/
theorem ensures_observeHandshake (c₀ : Observer) (hworker : c₀.guard.toWorker = [])
    (hclient : c₀.guard.toClient = []) (hshake : c₀.handshake = false) (hasked : c₀.asked = 0)
    (hmetered : c₀.metered = []) :
    Ensures (fun c => c = c₀) observeHandshake
      (fun _ c => ∃ capabilities greeting, Shaken c₀ capabilities greeting c)
      (fun _ => Refused) := by
  have hrefused : ∀ {read received sent : List UInt8} {c : Observer},
      Within c₀.guard false 0 [] read received sent [] c → (sent = [] ∨ sent = hello ++ withheld) →
        Refused c := by
    intro read received sent c hc hsent
    have htoWorker := hc.moved.toWorker
    have htoClient := hc.moved.toClient
    rw [hworker, List.nil_append] at htoWorker
    rw [hclient, List.nil_append] at htoClient
    exact ⟨hc.handshake, htoClient, by rw [htoWorker]; exact hsent, hc.metered⟩
  refine (Ensures.mono (P := Within c₀.guard false 0 [] [] [] [] []) ?_
    (fun c hc => by rw [hc]; exact ⟨.start _, hshake, hasked, hmetered⟩) (fun _ _ h => h)
    fun _ _ h => h)
  refine observe_readInput (fun c hc _ => hrefused hc (.inl rfl)) fun first hfirst => ?_
  rw [List.nil_append]
  refine .bind (R := fun _ c => Within c₀.guard false 0 [] first [] [] [] c ∧ first = hello) ?_
    fun _ => .assume ?_
  · refine .check (fun _ c hc => hrefused hc (.inl rfl)) fun hhead => ?_
    refine ensures_frameLength_bind (fun c hc => hrefused hc (.inl rfl)) fun _ => ?_
    refine .require (fun c hbytes hc => ⟨hc, ?_⟩) fun c _ hc => hrefused hc (.inl rfl)
    obtain ⟨b, rest, rfl⟩ := List.exists_cons_of_length_eq_add_one hfirst
    rw [List.head?_cons, Option.some.injEq] at hhead
    rw [hhead, hello, writeLE_of_readLE (by simpa using hfirst) hbytes]
    rfl
  rintro rfl
  refine observe_readInput (fun c hc _ => hrefused hc (.inl rfl)) fun capabilities hcap => ?_
  refine .bind (observe_writeWorker _) fun _ => ?_
  rw [List.nil_append]
  refine observe_readOutput (fun c hc => hrefused hc (.inr rfl)) fun size hsize => ?_
  refine ensures_frameLength_bind (fun c hc => hrefused hc (.inr rfl)) fun _ => ?_
  refine .check (fun _ c hc => hrefused hc (.inr rfl)) fun htwentyeight => ?_
  refine observe_readOutput (fun c hc => hrefused hc (.inr rfl)) fun greeting hgreeting => ?_
  rw [List.nil_append, reply_of_size hsize (htwentyeight.trans hgreeting.symm)]
  refine .bind (observe_writeClient _) fun _ => .modify fun c hc => ⟨capabilities, greeting, ?_,
    hcap, hgreeting, rfl, hc.asked, hc.metered⟩
  have hlength : (greeting.take 4 ++ withheld).length = readLE size := by
    rw [htwentyeight, List.length_append, List.length_take, hgreeting]
    rfl
  have hreply : size ++ (greeting.take 4 ++ List.replicate 24 0) =
      reply (greeting.take 4 ++ withheld) := reply_of_size hsize hlength.symm
  have hmoved := hc.moved
  rw [List.nil_append, hreply] at hmoved
  exact hmoved

/-! ### The whole connection -/

/-- A stream has one first reply. -/
theorem reply_append_inj {a b r r' : List UInt8} (ha : a.length < 2 ^ 64) (hb : b.length < 2 ^ 64)
    (h : reply a ++ r = reply b ++ r') : a = b ∧ r = r' := by
  rw [reply, reply, List.append_assoc, List.append_assoc] at h
  obtain ⟨hsize, hrest⟩ := List.append_inj h (by simp)
  have hlength : a.length = b.length := by
    have hread := congrArg readLE hsize
    rw [readLE_writeLE (by omega), readLE_writeLE (by omega)] at hread
    exact hread
  exact List.append_inj hrest hlength

/-- A stream has one first frame. -/
theorem encode_append_inj {f g : Frame} {r r' : List UInt8} (hf : f.body.length < 2 ^ 64)
    (hg : g.body.length < 2 ^ 64) (h : f.encode ++ r = g.encode ++ r') : f = g ∧ r = r' := by
  obtain ⟨hcommand, hrest⟩ := List.cons.inj h
  obtain ⟨hbody, hr⟩ := reply_append_inj hf hg hrest
  cases f
  cases g
  exact ⟨Frame.mk.injEq _ _ _ _ ▸ ⟨hcommand, hbody⟩, hr⟩

/-- What happened on a connection after the handshake: the exchanges that were completed, the stock
and the number of compute commands then, what was left of the two streams, and what the last
command wrote to each side. -/
structure Transcript where
  capabilities : List UInt8
  greeting : List UInt8
  exchanges : List Exchange
  stock : Stock
  asked : Nat
  clientRest : List UInt8
  workerRest : List UInt8
  sent : List UInt8
  answered : List UInt8

/-- **The connection is explained by the transcript**, from an account of the buffers on. -/
structure Transcript.Explains (t : Transcript) (hooks : Hooks) (physical : Nat → Physical)
    (budget : RpcMemoryBudget) (input output : List UInt8) (e : RpcCode) (c : Observer) :
    Prop where
  capabilities : t.capabilities.length = 24
  greeting : t.greeting.length = 28
  served : ∀ x ∈ t.exchanges, x.Served hooks
  input : input = hello ++ t.capabilities ++ t.exchanges.flatMap (·.frame.encode) ++ t.clientRest
  output : output = reply t.greeting ++ t.exchanges.flatMap Exchange.received ++ t.workerRest
  toWorker : c.guard.toWorker =
    hello ++ withheld ++ t.exchanges.flatMap Exchange.sent ++ t.sent
  toClient : c.guard.toClient =
    reply (t.greeting.take 4 ++ withheld) ++ t.exchanges.flatMap Exchange.answered ++ t.answered
  cut : Cut (t.stock.check hooks physical t.asked) t.clientRest t.workerRest e t.sent t.answered
  metered : ∃ metered unfinished,
    Metered hooks physical ⟨budget, 0⟩ t.exchanges t.stock t.asked metered ∧
    unfinished.length ≤ 1 ∧ c.metered = unfinished ++ metered

section Explained

variable {hooks : Hooks} {physical : Nat → Physical} {budget : RpcMemoryBudget}
  {input output : List UInt8} {e : RpcCode} {c : Observer} {t : Transcript}

/-- For a client that sends frames, the exchanges are the first of them. -/
theorem Transcript.Explains.frames (h : t.Explains hooks physical budget input output e c)
    {capabilities : List UInt8} {frames : List Frame} (hcap : capabilities.length = 24)
    (hframes : ∀ f ∈ frames, f.body.length < 2 ^ 64)
    (hinput : input = hello ++ capabilities ++ frames.flatMap Frame.encode) :
    t.exchanges.map (·.frame) <+: frames := by
  have heq := h.input.symm.trans hinput
  simp only [List.append_assoc, List.append_cancel_left_eq] at heq
  obtain ⟨-, hrest⟩ := List.append_inj heq (h.capabilities.trans hcap.symm)
  refine Delimited.prefix_of_flatMap (p := fun f => f.body.length < 2 ^ 64) (fun f => ?_)
    (fun f g r r' hf hg => encode_append_inj hf hg) (fun f hf => ?_) hframes
    (r := t.clientRest) ?_
  · exact List.cons_ne_nil _ _
  · obtain ⟨x, hx, rfl⟩ := List.mem_map.1 hf
    have hmax := (h.served x hx).length
    rw [maxFrame] at hmax
    omega
  · rw [List.flatMap_map]
    exact hrest

/-- For a worker that sends replies, those that were read are the first of them. -/
theorem Transcript.Explains.bodies (h : t.Explains hooks physical budget input output e c)
    {greeting : List UInt8} {bodies : List (List UInt8)} (hgreeting : greeting.length < 2 ^ 64)
    (hbodies : ∀ body ∈ bodies, body.length < 2 ^ 64)
    (houtput : output = reply greeting ++ bodies.flatMap reply) :
    t.exchanges.flatMap Exchange.replies <+: bodies := by
  have heq := h.output.symm.trans houtput
  rw [List.append_assoc] at heq
  have hlength := h.greeting
  obtain ⟨-, hrest⟩ := reply_append_inj (by omega) hgreeting heq
  refine Delimited.prefix_of_flatMap (p := fun body => body.length < 2 ^ 64) (fun body => ?_)
    (fun a b r r' ha hb => reply_append_inj ha hb) (fun body hbody => ?_) hbodies
    (r := t.workerRest) ?_
  · intro hnil
    have hzero := congrArg List.length hnil
    rw [reply, List.length_append, writeLE_length, List.length_nil] at hzero
    omega
  · obtain ⟨x, hx, hmem⟩ := List.mem_flatMap.1 hbody
    have hmax := (h.served x hx).replies body hmem
    rw [maxFrame] at hmax
    omega
  · rw [List.flatMap_assoc]
    exact hrest

end Explained

/-- A connection that fails after the handshake is explained by what was relayed. -/
theorem Ended.explained {hooks : Hooks} {c₀ c₁ c : Observer} {e : RpcCode}
    {capabilities greeting : List UInt8} (h : Ended hooks c₁.guard e c)
    (hshaken : Shaken c₀ capabilities greeting c₁) (hworker : c₀.guard.toWorker = [])
    (hclient : c₀.guard.toClient = []) (hobserved : c₀.guard.observed = 0) :
    ∃ t : Transcript, t.Explains hooks c₀.guard.physical c₀.guard.budget c₀.guard.input.bytes
      c₀.guard.output.bytes e c := by
  obtain ⟨xs, c', hrelayed, ⟨⟨sent, answered, htoWorker, htoClient, hcut⟩, -, unfinished, hone,
    hmetered⟩⟩ := h
  have hmoved := hshaken.moved.trans hrelayed.moved
  have hstart : c₁.guard.stock = ⟨c₀.guard.budget, 0⟩ := by
    rw [hshaken.moved.stock, Guard.stock, hobserved]
  have hall := hrelayed.metered
  rw [hshaken.moved.physical, hstart] at hall
  rw [Guard.check, hmoved.physical] at hcut
  refine ⟨⟨capabilities, greeting, xs, c'.guard.stock, c'.asked, c'.guard.input.bytes,
    c'.guard.output.bytes, sent, answered⟩, hshaken.capabilities, hshaken.greeting,
    hrelayed.served, hmoved.input, hmoved.output, ?_, ?_, hcut, c'.metered, unfinished, hall, hone,
    hmetered⟩
  · rw [htoWorker, hmoved.toWorker, hworker, List.nil_append]
  · rw [htoClient, hmoved.toClient, hclient, List.nil_append]

/-- A lease of a session, with nothing computed yet. -/
def fresh : ComputeLease := ⟨true, 60, false, none, none, 0, 0, 0, []⟩

/-- The commands of the laboratory: the devices, an allocation, a compute frame, and one that the
protocol does not have. -/
def labFrames : List Frame := [
  ⟨15, []⟩, ⟨0, [0, 0, 0, 0] ++ writeLE 8 500⟩, ⟨10, [0, 0, 0, 0, 7]⟩, ⟨14, []⟩]

/-- The replies of the laboratory's worker, also to the queries of the guard. -/
def labReplies : List (List UInt8) := [
  [1, 0, 0, 0], writeLE 8 8192 ++ writeLE 8 8192, writeLE 8 1 ++ writeLE 8 512,
  writeLE 8 7680 ++ writeLE 8 8192]

/-- The engine sends its hello and its frames in two chunks. -/
def labClient : Reader := ⟨[], [hello ++ List.replicate 20 255,
  List.replicate 4 255 ++ labFrames.flatMap Frame.encode]⟩

/-- The worker sends its greeting and its replies. -/
def labWorker : Reader := ⟨[], [reply (List.replicate 28 9) ++ labReplies.flatMap reply]⟩

/-- A budget of a kilobyte, and a session that may compute. -/
def labObserver : Observer :=
  .start labClient labWorker (fun _ => .unavailable) ⟨1024, 128, Table.empty, 0, 0, 0⟩

/-- The hooks of the laboratory: a memory budget, and a fresh lease for every computation. -/
def labHooks : Hooks := ⟨true, false, fun _ => ⟨some fresh, 0, false, 1⟩⟩

/-- An allocation beyond the budget ends the connection, and nothing of it reaches the worker. -/
example :
    let frames : List Frame := [⟨15, []⟩, ⟨0, [0, 0, 0, 0] ++ writeLE 8 2000⟩]
    let client : Reader := ⟨[], [hello ++ List.replicate 24 255 ++ frames.flatMap Frame.encode]⟩
    let run := observeRpc labHooks (.start client labWorker (fun _ => .unavailable)
      ⟨1024, 128, Table.empty, 0, 0, 0⟩)
    run.1 = .error .rpcBufferBudget ∧
      run.2.guard.toWorker = hello ++ withheld ++ Frame.encode ⟨15, []⟩ := by
  decide +kernel

end NetworkAi.Rpc
