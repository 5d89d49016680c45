import NetworkAi.Lib.Machine
import NetworkAi.Link.Framing

set_option relaxedAutoImplicit false
set_option autoImplicit false

/-!
# The relay of a response

The proxy reads the frames of a response from the link in a task of its own and hands them to the
consumer through a bounded channel. A failure is reported through the same channel with `try_send`,
which does not wait for room; when the channel is full the report is lost, and dropping the sender
then looks like the regular end of the body.

## Main definitions

* `NetworkAi.Link.Relay` — the task, the channel and the consumer.
* `NetworkAi.Link.relaySystem` — their steps, in any order.
* `NetworkAi.Link.Delivered` — what a link delivers of a response, whole or broken.
* `NetworkAi.Link.RoomAlong` — every failure of a run finds room in the channel.

## Main results

* `NetworkAi.Link.Relay.Sound.step` — what one step preserves.
* `NetworkAi.Link.no_false_completion` — with room for its report, no failure looks like a
  complete response.
-/

namespace NetworkAi.Link

/-! ### The task, the channel and the consumer -/

/-- The capacity of the channel. -/
def capacity : Nat := 4

/-- An item of the channel: a part of the body, or the report of a failure. -/
inductive Item where
  | data (bytes : List UInt8)
  | interrupted
  deriving DecidableEq, Repr

/-- How the body ended for the consumer. -/
inductive Ending where
  | complete
  | failed
  | left
  deriving DecidableEq, Repr

/-- The relay of one response: what the link will still deliver and whether it then ends in good
order, the task with the part of the body it is about to send, the channel, and what the consumer
has seen. -/
structure Relay where
  incoming : List UInt8
  clean : Bool
  running : Bool
  size : Nat
  pending : Option (List UInt8)
  channel : List Item
  seen : List UInt8
  ended : Option Ending
  deriving DecidableEq, Repr

/-- A relay at the start of a body. -/
def Relay.start (incoming : List UInt8) (clean : Bool) : Relay where
  incoming
  clean
  running := true
  size := 0
  pending := none
  channel := []
  seen := []
  ended := none

/-- The task ends with a failure: `try_send`, then the sender is dropped. -/
def Relay.fail (s : Relay) : Relay :=
  { s with
    running := false
    channel :=
      if s.channel.length < capacity ∧ s.ended = none then s.channel ++ [.interrupted]
      else s.channel }

/-- `read_frame` and what the loop does with the frame before it sends it. -/
def Relay.read (s : Relay) : Except LinkError Relay := do
  let (chunk, rest) ← readFrame chunkLimit s.incoming
  if chunk = [] then
    Checked.guard (rest = [] ∧ s.clean) .trailing
    return { s with incoming := rest, running := false }
  else
    Checked.guard (s.size + chunk.length ≤ responseLimit) .responseLimit
    return { s with incoming := rest, size := s.size + chunk.length, pending := some chunk }

/-- The events of a relay: the task reads a frame, sends the part it holds, meets its deadline or
notices that the consumer is gone; the consumer receives an item or leaves. -/
inductive RelayEvent where
  | read | send | deadline | closed | receive | leave
  deriving DecidableEq, Repr

/-- The events at which the task fails. -/
def Relay.fails (s : Relay) : RelayEvent → Bool
  | .read => s.running ∧ s.pending = none ∧ s.read.isOk = false
  | .send => s.running ∧ s.pending ≠ none ∧ s.ended ≠ none
  | .deadline => s.running
  | .closed => s.running ∧ s.pending = none ∧ s.ended ≠ none
  | _ => false

/-- The consumer receives an item, or the end once the sender is dropped. -/
def Relay.receive (s : Relay) : Relay :=
  match s.channel with
  | .data bytes :: channel => { s with channel, seen := s.seen ++ bytes }
  | .interrupted :: channel => { s with channel, ended := some .failed }
  | [] => if s.running then s else { s with ended := some .complete }

/-- One event; an event that is not possible changes nothing. -/
def Relay.step (e : RelayEvent) (s : Relay) : Relay :=
  if s.fails e then s.fail
  else
    match e with
    | .read =>
      if s.running ∧ s.pending = none then
        match s.read with
        | .ok s' => s'
        | .error _ => s
      else s
    | .send =>
      match s.pending with
      | some chunk =>
        if s.running ∧ s.channel.length < capacity then
          { s with pending := none, channel := s.channel ++ [.data chunk] }
        else s
      | none => s
    | .receive => if s.ended = none then s.receive else s
    | .leave => if s.ended = none then { s with ended := some .left } else s
    | _ => s

/-- The relay of what a link delivers. -/
def relaySystem (incoming : List UInt8) (clean : Bool) : Machine.System Relay RelayEvent where
  init s := s = Relay.start incoming clean
  step := Relay.step

/-! ### Responses and what becomes of them -/

/-- **What a link delivers** of the frames of a response: a part of their bytes up to all of them,
more than their bytes, or a frame above the limit in the place of one of them. -/
inductive Delivered (frames : List (List UInt8)) : List UInt8 → Prop
  | part {bytes : List UInt8} (h : bytes <+: wire frames) : Delivered frames bytes
  | trailing (extra : List UInt8) : Delivered frames (wire frames ++ extra)
  | oversized {before after : List (List UInt8)} {n : Nat} (rest : List UInt8)
      (h : frames = before ++ after) (hn : chunkLimit < n) (hn' : n < 2 ^ 32) :
      Delivered frames (wire before ++ (writeU32 n ++ rest))

/-- The bytes that have passed into the channel. -/
def Relay.passed (s : Relay) : List UInt8 :=
  s.seen ++ s.channel.flatMap fun
    | .data bytes => bytes
    | .interrupted => []

/-- A failure can be reported in the state before it, or has nothing to hide: the channel has
room, the whole body has passed into it, or the consumer has left. -/
def Relay.Room (body : List UInt8) (s : Relay) : Prop :=
  s.channel.length < capacity ∨ s.passed = body ∨ s.ended ≠ none

instance (body : List UInt8) (s : Relay) : Decidable (s.Room body) :=
  inferInstanceAs (Decidable (_ ∨ _))

/-- Every failure of a run can be reported. -/
def RoomAlong (body : List UInt8) : Relay → List RelayEvent → Prop
  | _, [] => True
  | s, e :: es => (s.fails e → s.Room body) ∧ RoomAlong body (s.step e) es

instance RoomAlong.decidable (body : List UInt8) :
    ∀ (s : Relay) (es : List RelayEvent), Decidable (RoomAlong body s es)
  | _, [] => inferInstanceAs (Decidable True)
  | s, e :: es =>
    have := RoomAlong.decidable body (s.step e) es
    inferInstanceAs (Decidable (_ ∧ _))

/-- A frame that is read is the next one of the response. -/
theorem Delivered.read {frames : List (List UInt8)} {bytes chunk rest : List UInt8}
    (h : Delivered frames bytes) (hlen : ∀ f ∈ frames, f.length ≤ chunkLimit) (hne : frames ≠ [])
    (hread : readFrame chunkLimit bytes = .ok (chunk, rest)) :
    ∃ later, frames = chunk :: later ∧ Delivered later rest := by
  obtain ⟨f, later, rfl⟩ := List.exists_cons_of_ne_nil hne
  have hf : f.length ≤ chunkLimit := hlen f List.mem_cons_self
  have hnext : ∀ more, readFrame chunkLimit (frame f ++ more) = .ok (f, more) :=
    readFrame_frame hf (by decide)
  cases h with
  | part hpre =>
    obtain ⟨more, hmore⟩ := hpre
    have hall := readFrame_append hread more
    rw [hmore, wire_cons, hnext, Except.ok.injEq, Prod.mk.injEq] at hall
    obtain ⟨rfl, hrest⟩ := hall
    exact ⟨later, rfl, .part ⟨more, hrest.symm⟩⟩
  | trailing extra =>
    rw [wire_cons, List.append_assoc, hnext, Except.ok.injEq, Prod.mk.injEq] at hread
    obtain ⟨rfl, rfl⟩ := hread
    exact ⟨later, rfl, .trailing extra⟩
  | oversized rest' hsplit hn hn' =>
    rename_i before after n
    cases before with
    | nil =>
      rw [wire_nil, List.nil_append, readFrame_oversized hn hn'] at hread
      cases hread
    | cons g before =>
      obtain ⟨rfl, hlater⟩ := List.cons.inj hsplit
      rw [wire_cons, List.append_assoc, hnext, Except.ok.injEq, Prod.mk.injEq] at hread
      obtain ⟨rfl, rfl⟩ := hread
      exact ⟨later, rfl, .oversized rest' hlater hn hn'⟩

/-! ### The invariant -/

/-- The state of a relay of the frames `chunks ++ [[]]`, with `body` for their bytes. -/
structure Relay.Sound (body : List UInt8) (s : Relay) : Prop where
  /-- While the task runs, what has not passed yet is still to come, and nothing is reported. -/
  going : s.running = true → ∃ chunks, Delivered (chunks ++ [[]]) s.incoming ∧
    (∀ c ∈ chunks, c ≠ [] ∧ c.length ≤ chunkLimit) ∧
    s.passed ++ s.pending.getD [] ++ chunks.flatten = body ∧ Item.interrupted ∉ s.channel ∧
    (s.ended = none ∨ s.ended = some .left)
  /-- Once it has ended, all has passed or the failure is known. -/
  stopped : s.running = false → s.passed = body ∨ Item.interrupted ∈ s.channel ∨
    s.ended = some .failed ∨ s.ended = some .left
  /-- A body that ended in good order is whole. -/
  whole : s.ended = some .complete → s.seen = body

/-- A failure that finds room for its report keeps a relay sound. -/
theorem Relay.Sound.fail {body : List UInt8} {s : Relay} (h : s.Sound body)
    (hrunning : s.running = true) (hroom : s.Room body) : s.fail.Sound body := by
  obtain ⟨chunks, -, -, -, -, hended⟩ := h.going hrunning
  refine ⟨fun hr => (by cases hr), fun _ => ?_, h.whole⟩
  by_cases hopen : s.ended = none
  · by_cases hspace : s.channel.length < capacity
    · refine .inr (.inl ?_)
      simp [Relay.fail, hspace, hopen]
    · refine .inl ?_
      have hpassed : s.passed = body := by
        rcases hroom with hlt | hp | hne
        · exact absurd hlt hspace
        · exact hp
        · exact absurd hopen hne
      simpa [Relay.fail, hspace, Relay.passed] using hpassed
  · exact .inr (.inr (.inr (hended.resolve_left hopen)))

/-- Reading a frame keeps a relay sound.

**Proof sketch.** The frame that is read is the next of those that were delivered. An empty one is
the last, so that the whole body has been passed on; one that is not empty is the next part of the
body. -/
theorem Relay.Sound.read {body : List UInt8} {s s' : Relay} (h : s.Sound body)
    (hrunning : s.running = true) (hpending : s.pending = none) (hread : s.read = .ok s') :
    s'.Sound body := by
  obtain ⟨chunks, hdel, hchunks, hbody, hitems, hended⟩ := h.going hrunning
  simp only [Relay.read, Checked.bind_ok, Prod.exists] at hread
  obtain ⟨chunk, rest, hframe, hread⟩ := hread
  have hlen : ∀ f ∈ chunks ++ [[]], f.length ≤ chunkLimit := by
    intro f hf
    rcases List.mem_append.1 hf with hf | hf
    · exact (hchunks f hf).2
    · rw [List.mem_singleton.1 hf]
      exact Nat.zero_le _
  obtain ⟨later, hsplit, hdel'⟩ := hdel.read hlen (by simp) hframe
  rw [hpending] at hbody
  split at hread
  · next hnil =>
    simp only [Checked.bind_ok, Checked.pure_ok] at hread
    obtain ⟨-, -, rfl⟩ := hread
    -- only the last frame is empty, so nothing is left to come
    have hlast : chunks = [] := by
      cases chunks with
      | nil => rfl
      | cons c cs =>
        obtain ⟨rfl, -⟩ := List.cons.inj hsplit
        exact absurd hnil (hchunks _ List.mem_cons_self).1
    subst hlast
    refine ⟨fun hr => (by cases hr), fun _ => .inl ?_, h.whole⟩
    have hpassed : s.passed = body := by simpa using hbody
    exact hpassed
  · next hne =>
    simp only [Checked.bind_ok, Checked.pure_ok] at hread
    obtain ⟨-, -, rfl⟩ := hread
    cases chunks with
    | nil =>
      obtain ⟨rfl, -⟩ := List.cons.inj hsplit
      exact absurd rfl hne
    | cons c cs =>
      obtain ⟨rfl, rfl⟩ := List.cons.inj hsplit
      refine ⟨fun _ => ⟨cs, hdel', fun d hd => hchunks d (List.mem_cons_of_mem _ hd), ?_, hitems,
        hended⟩, fun hr => ?_, h.whole⟩
      · simpa [Relay.passed] using hbody
      · rw [show ({ s with incoming := rest, size := s.size + c.length, pending := some c } :
          Relay).running = s.running from rfl, hrunning] at hr
        cases hr

/-- Receiving an item keeps a relay sound.

**Proof sketch.** A part moves from the channel to the consumer, so that what was passed on stays. A
failure ends the body as failed. The channel is empty and the task over only when everything was
passed on, or the failure has been taken. -/
theorem Relay.Sound.receive {body : List UInt8} {s : Relay} (h : s.Sound body)
    (hopen : s.ended = none) : s.receive.Sound body := by
  unfold Relay.receive
  split
  · next bytes channel hchannel =>
    have hpassed : ({ s with channel, seen := s.seen ++ bytes } : Relay).passed = s.passed := by
      simp [Relay.passed, hchannel]
    refine ⟨fun hr => ?_, fun hr => ?_, fun hc => ?_⟩
    · obtain ⟨chunks, hdel, hchunks, hbody, hitems, hended⟩ := h.going hr
      refine ⟨chunks, hdel, hchunks, by rw [hpassed]; exact hbody, fun hi => ?_, hended⟩
      exact hitems (by rw [hchannel]; exact List.mem_cons_of_mem _ hi)
    · rw [hpassed]
      refine (h.stopped hr).imp_right (Or.imp_left fun hi => ?_)
      rw [hchannel] at hi
      exact (List.mem_cons.1 hi).resolve_left (by simp)
    · rw [show ({ s with channel, seen := s.seen ++ bytes } : Relay).ended = s.ended from rfl,
        hopen] at hc
      cases hc
  · next channel hchannel =>
    refine ⟨fun hr => ?_, fun _ => .inr (.inr (.inl rfl)), fun hc => by cases hc⟩
    obtain ⟨chunks, -, -, -, hitems, -⟩ := h.going hr
    exact absurd (by rw [hchannel]; exact List.mem_cons_self) hitems
  · next hchannel =>
    split
    · exact h
    · next hstop =>
      have hpassed : s.seen = body := by
        rcases h.stopped (by simpa using hstop) with hp | hi | hf | hl
        · simpa [Relay.passed, hchannel] using hp
        · rw [hchannel] at hi
          cases hi
        · rw [hopen] at hf
          cases hf
        · rw [hopen] at hl
          cases hl
      refine ⟨fun hr => absurd hr hstop, fun _ => .inl ?_, fun _ => hpassed⟩
      simpa [Relay.passed, hchannel] using hpassed

/-- **One step** keeps a relay sound, if it can report a failure.

**Proof sketch.** By the event. A failure finds room for its report, by the condition of the step; a
read and a receipt have lemmas of their own, a sent part moves from the task to the channel, and the
departure of the consumer ends the body. -/
theorem Relay.Sound.step {body : List UInt8} {s : Relay} (h : s.Sound body) (e : RelayEvent)
    (hroom : s.fails e → s.Room body) : (s.step e).Sound body := by
  unfold Relay.step
  split
  · next hfails =>
    refine h.fail ?_ (hroom hfails)
    cases e with
    | read | send | deadline | closed => simp_all [Relay.fails]
    | receive | leave => cases hfails
  · cases e with
    | read =>
      dsimp only
      split
      · next hready =>
        split
        · next s' hread => exact h.read hready.1 hready.2 hread
        · exact h
      · exact h
    | send =>
      dsimp only
      split
      · next chunk hpending =>
        split
        · next hready =>
          obtain ⟨chunks, hdel, hchunks, hbody, hitems, hended⟩ := h.going hready.1
          refine ⟨fun _ => ⟨chunks, hdel, hchunks, ?_, by simpa using hitems, hended⟩,
            fun hr => ?_, h.whole⟩
          · rw [hpending] at hbody
            simpa [Relay.passed] using hbody
          · have hr : s.running = false := hr
            rw [hready.1] at hr
            cases hr
        · exact h
      · exact h
    | receive =>
      dsimp only
      split
      · next hopen => exact h.receive hopen
      · exact h
    | leave =>
      dsimp only
      split
      · refine ⟨fun hr => ?_, fun _ => .inr (.inr (.inr rfl)), fun hc => by cases hc⟩
        obtain ⟨chunks, hdel, hchunks, hbody, hitems, -⟩ := h.going hr
        exact ⟨chunks, hdel, hchunks, hbody, hitems, .inr rfl⟩
      · exact h
    | deadline | closed => exact h

/-- A run whose failures can be reported keeps a relay sound. -/
theorem Relay.Sound.run {body : List UInt8} {incoming : List UInt8} {clean : Bool}
    (events : List RelayEvent) {s : Relay} (h : s.Sound body) (hroom : RoomAlong body s events) :
    ((relaySystem incoming clean).run s events).Sound body := by
  induction events generalizing s with
  | nil => exact h
  | cons e es ih =>
    obtain ⟨hnow, hlater⟩ := hroom
    exact ih (h.step e hnow) hlater

/-- A relay is sound at the start of what a link delivers. -/
theorem Relay.sound_start {frames chunks : List (List UInt8)} {incoming : List UInt8}
    {clean : Bool} (hframes : frames = chunks ++ [[]]) (hdel : Delivered frames incoming)
    (hchunks : ∀ c ∈ chunks, c ≠ [] ∧ c.length ≤ chunkLimit) :
    (Relay.start incoming clean).Sound chunks.flatten := by
  refine ⟨fun _ => ⟨chunks, by rw [← hframes]; exact hdel, hchunks, ?_, by simp [start], .inl rfl⟩,
    fun hr => (by cases hr), fun hc => by cases hc⟩
  simp [start, passed]

/-- **A broken link does not look like a complete response**, if every failure of the run finds
room for its report: whatever the link delivers of a response, and in whatever order the task and
the consumer take their steps, a body that ends in good order is the whole body.

**Proof sketch.** The relay is sound at its start, and every step whose failure finds room keeps it
so. A sound relay whose body ended in good order has passed on the whole body. -/
theorem no_false_completion {items frames : List (List UInt8)} {incoming : List UInt8}
    {clean : Bool} {events : List RelayEvent} (hserve : serveFrames 0 items = .ok frames)
    (hdel : Delivered frames incoming)
    (hroom : RoomAlong items.flatten (Relay.start incoming clean) events) :
    let s := (relaySystem incoming clean).run (Relay.start incoming clean) events
    s.ended = some .complete → s.seen = items.flatten := by
  obtain ⟨chunks, hframes, hflat, hchunks⟩ := serveFrames_ok hserve
  have hstart : (Relay.start incoming clean).Sound chunks.flatten :=
    Relay.sound_start hframes hdel hchunks
  rw [hflat] at hstart
  exact (hstart.run events hroom).whole

/-! ### Five parts of one byte -/

/-- A response in five parts, of one byte each. -/
def fiveParts : List (List UInt8) := [[1], [2], [3], [4], [5]]

/-- Five parts of one byte are five frames and the empty one. -/
theorem serveFrames_fiveParts : serveFrames 0 fiveParts = .ok (fiveParts ++ [[]]) := by
  have hpart : ∀ b : UInt8, slices (chunkLimit - 1) [b] = [[b]] := by
    intro b
    rw [slices, if_neg (by simp), slices]
    simp
  simp [serveFrames, fiveParts, hpart, Checked.guard, responseLimit, bind, Except.bind, pure,
    Except.pure]

/-- The task reads and sends four parts before the consumer receives any of them. -/
def fourSent : List RelayEvent := [.read, .send, .read, .send, .read, .send, .read, .send]

/-- **The link breaks after four parts** of a response of five, while the channel is full. The
report of the failure is lost, and the consumer sees a body of four bytes that ends in good
order. -/
theorem lost_report :
    serveFrames 0 fiveParts = .ok (fiveParts ++ [[]]) ∧
      Delivered (fiveParts ++ [[]]) (wire (fiveParts.take 4)) ∧
      let s := (relaySystem (wire (fiveParts.take 4)) false).run
        (Relay.start (wire (fiveParts.take 4)) false)
        (fourSent ++ [.read, .receive, .receive, .receive, .receive, .receive])
      ¬ (s.ended = some .complete → s.seen = fiveParts.flatten) := by
  refine ⟨serveFrames_fiveParts, .part ?_, ?_⟩
  · decide
  · decide

/-- The same failure with a consumer that keeps up is reported. -/
theorem no_false_completion_fiveParts :
    let s := (relaySystem (wire (fiveParts.take 4)) false).run
      (Relay.start (wire (fiveParts.take 4)) false)
      (fourSent ++ [.receive, .read, .receive, .receive, .receive, .receive])
    s.ended = some .failed ∧ (s.ended = some .complete → s.seen = fiveParts.flatten) := by
  refine ⟨by decide, ?_⟩
  exact no_false_completion serveFrames_fiveParts (.part (by decide)) (by decide)

end NetworkAi.Link
