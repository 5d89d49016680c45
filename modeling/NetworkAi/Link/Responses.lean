import NetworkAi.Link.Relay

set_option relaxedAutoImplicit false
set_option autoImplicit false

/-!
# The bytes of a response

The serving side writes a header frame, the parts of the body as frames of their own, and an empty
frame. The proxy reads a header frame and then frames until an empty one, behind which nothing may
follow. The stream between them is a list of bytes; where it ends is where the sender finished it
or where it broke.

## Main definitions

* `NetworkAi.Link.serveResponse` — the bytes that `serve` writes for a response.
* `NetworkAi.Link.readHead`, `NetworkAi.Link.readBody` — the two halves of what `proxy` reads.
* `NetworkAi.Link.readParts`, `NetworkAi.Link.readResponse` — the whole, without and with the check
  of the header.

## Main results

* `NetworkAi.Link.readFrame_ok` — a frame is read only from the bytes that write it.
* `NetworkAi.Link.readBody_ok` — a body is accepted only from frames within the limits.
* `NetworkAi.Link.readParts_append` — a response followed by anything is refused.
* `NetworkAi.Link.relay_readBody` — the runs of a relay deliver what the loop hands over.
* `NetworkAi.Link.response_round_trip` — a response is read back from its bytes, from no part of
  them and from no more than them.

## Implementation notes

`serde_json::from_slice` is a parameter; the header it is applied to is the text that
`serde_json::to_vec` writes for `ResponseHead`, which is given as such.
-/

namespace NetworkAi.Link

/-! ### The header -/

/-- `HEADER`. -/
def headerLimit : Nat := 8192

/-- `ResponseHead`. -/
structure ResponseHead where
  version : Nat
  status : Nat
  contentType : String
  deriving DecidableEq, Repr

/-- The bytes of an ASCII text. -/
def asciiBytes (text : String) : List UInt8 := text.toList.map fun c => UInt8.ofNat c.toNat

/-- `serde_json::to_vec` of a header whose content type needs no escapes. -/
def ResponseHead.toVec (h : ResponseHead) : List UInt8 :=
  asciiBytes ("\x7b\"version\":" ++ h.version.repr ++ ",\"status\":" ++ h.status.repr ++
    ",\"content_type\":\"" ++ h.contentType ++ "\"\x7d")

/-- The content type that `serve` passes on for the header of the local response. -/
def contentTypeOf (header : Option (List UInt8)) : String :=
  if header.any fun v => (asciiBytes "text/event-stream").isPrefixOf v then
    "text/event-stream; charset=utf-8"
  else "application/json"

/-- The header that `serve` writes for a local response. -/
def serveHead (status : Nat) (contentType : Option (List UInt8)) : ResponseHead where
  version := 1
  status
  contentType := contentTypeOf contentType

/-- What `proxy` requires of a header. -/
def ResponseHead.accepted (h : ResponseHead) : Bool :=
  h.version = 1 ∧ 200 ≤ h.status ∧ h.status ≤ 599 ∧
    (h.contentType = "application/json" ∨ h.contentType = "text/event-stream; charset=utf-8")

/-- The content type that is passed on is one of two. -/
theorem contentTypeOf_cases (header : Option (List UInt8)) :
    contentTypeOf header = "application/json" ∨
      contentTypeOf header = "text/event-stream; charset=utf-8" := by
  unfold contentTypeOf
  split
  · exact .inr rfl
  · exact .inl rfl

/-- The header of a response with a regular status is accepted. -/
theorem serveHead_accepted {status : Nat} (h : 200 ≤ status) (h' : status ≤ 599)
    (contentType : Option (List UInt8)) : (serveHead status contentType).accepted = true := by
  simp [ResponseHead.accepted, serveHead, h, h', contentTypeOf_cases]

/-- The header of every response fits in its frame; a status has sixteen bits. -/
theorem toVec_length {status : Nat} (h : status < 2 ^ 16) (contentType : Option (List UInt8)) :
    (serveHead status contentType).toVec.length ≤ headerLimit := by
  have hdigits : status.repr.length ≤ 5 := (Nat.length_repr_le_iff (by omega)).2 (by omega)
  have hversion : (Nat.repr 1).length = 1 := by decide
  have htype : (contentTypeOf contentType).length ≤ 32 := by
    rcases contentTypeOf_cases contentType with heq | heq <;> (rw [heq]; decide)
  simp only [ResponseHead.toVec, asciiBytes, serveHead, List.length_map, String.length_toList,
    String.length_append, headerLimit]
  have hopen : ("\x7b\"version\":" : String).length = 11 := by decide
  have hstatus : (",\"status\":" : String).length = 10 := by decide
  have hkey : (",\"content_type\":\"" : String).length = 17 := by decide
  have hclose : ("\"\x7d" : String).length = 2 := by decide
  omega

/-! ### Writing a response -/

/-- The bytes that `serve` writes: the header, the parts of the body and the empty frame. -/
def serveResponse (status : Nat) (contentType : Option (List UInt8))
    (items : List (List UInt8)) : Except LinkError (List UInt8) := do
  let frames ← serveFrames 0 items
  return frame (serveHead status contentType).toVec ++ wire frames

/-- A body within the limit is written whole. -/
theorem serveFrames_within {items : List (List UInt8)} {size : Nat}
    (h : size + items.flatten.length ≤ responseLimit) :
    ∃ frames, serveFrames size items = .ok frames := by
  induction items generalizing size with
  | nil => exact ⟨_, rfl⟩
  | cons bytes items ih =>
    rw [List.flatten_cons, List.length_append] at h
    obtain ⟨frames, hframes⟩ := ih
      (by omega : size + bytes.length + items.flatten.length ≤ responseLimit)
    have hsize : size + bytes.length ≤ responseLimit := by omega
    refine ⟨slices (chunkLimit - 1) bytes ++ frames, ?_⟩
    simp [serveFrames, Checked.guard, hsize, hframes, bind, Except.bind, pure, Except.pure]

/-! ### Reading a response -/

/-- Why `proxy` gives up a response. -/
inductive ResponseError where
  | link (e : LinkError)
  | json
  | invalidHead
  deriving DecidableEq, Repr

/-- A length is read only from the bytes that write it. -/
theorem writeU32_readU32 {bytes rest : List UInt8} {n : Nat}
    (h : readU32 bytes = .ok (n, rest)) : bytes = writeU32 n ++ rest := by
  match bytes, h with
  | a :: b :: c :: d :: tail, h =>
    obtain ⟨rfl, rfl⟩ := Prod.mk.inj (Except.ok.inj h)
    have ha := a.toNat_lt
    have hb := b.toNat_lt
    have hc := c.toNat_lt
    have hd := d.toNat_lt
    have hbyte : ∀ (x : UInt8) (m : Nat), m % 256 = x.toNat → UInt8.ofNat m = x := by
      intro x m hm
      apply UInt8.toNat_inj.1
      rw [UInt8.toNat_ofNat']
      exact hm
    simp only [writeU32, List.cons_append, List.nil_append]
    rw [hbyte a _ (by omega), hbyte b _ (by omega), hbyte c _ (by omega), hbyte d _ (by omega)]

/-- **A frame is read only from the bytes that write it**, and never above the limit. -/
theorem readFrame_ok {max : Nat} {bytes data rest : List UInt8}
    (h : readFrame max bytes = .ok (data, rest)) :
    bytes = frame data ++ rest ∧ data.length ≤ max := by
  simp only [readFrame, Checked.bind_ok, Checked.guard_ok, Checked.pure_ok, Prod.exists] at h
  obtain ⟨len, tail, hread, -, hmax, -, hlen, heq⟩ := h
  obtain ⟨rfl, rfl⟩ := Prod.mk.inj heq
  have htake : (tail.take len).length = len := List.length_take_of_le hlen
  refine ⟨?_, by rw [htake]; exact hmax⟩
  rw [writeU32_readU32 hread, frame, htake, List.append_assoc, List.take_append_drop]

/-- What is left behind a frame is shorter. -/
theorem readFrame_shorter {max : Nat} {bytes data rest : List UInt8}
    (h : readFrame max bytes = .ok (data, rest)) : rest.length < bytes.length := by
  have hbytes := (readFrame_ok h).1
  rw [hbytes, frame, List.length_append, List.length_append]
  have hprefix : (writeU32 data.length).length = 4 := rfl
  omega

/-- The header frame of a response, with the rest of the stream. -/
def readHead (fromSlice : List UInt8 → Option ResponseHead) (bytes : List UInt8) :
    Except ResponseError (ResponseHead × List UInt8) :=
  match readFrame headerLimit bytes with
  | .error e => .error (.link e)
  | .ok (data, rest) =>
    match fromSlice data with
    | some head => .ok (head, rest)
    | none => .error .json

/-- The loop that reads the frames of a body, after `size` bytes of it: the parts that it hands to
the consumer, and how it ends. -/
def readBody (size : Nat) (bytes : List UInt8) : List (List UInt8) × Except LinkError Unit :=
  match _h : readFrame chunkLimit bytes with
  | .error e => ([], .error e)
  | .ok (chunk, rest) =>
    if chunk = [] then
      -- `read_to_end(0)`
      if rest = [] then ([], .ok ()) else ([], .error .trailing)
    else if size + chunk.length ≤ responseLimit then
      let later := readBody (size + chunk.length) rest
      (chunk :: later.1, later.2)
    else ([], .error .responseLimit)
termination_by bytes.length
decreasing_by exact readFrame_shorter _h

/-- The frames of a response: its header and the bytes of its body. -/
def readParts (fromSlice : List UInt8 → Option ResponseHead) (bytes : List UInt8) :
    Except ResponseError (ResponseHead × List UInt8) :=
  match readHead fromSlice bytes with
  | .error e => .error e
  | .ok (head, rest) =>
    match readBody 0 rest with
    | (chunks, .ok ()) => .ok (head, chunks.flatten)
    | (_, .error e) => .error (.link e)

/-- What `proxy` reads: the body only behind a header that it accepts. -/
def readResponse (fromSlice : List UInt8 → Option ResponseHead) (bytes : List UInt8) :
    Except ResponseError (ResponseHead × List UInt8) :=
  match readHead fromSlice bytes with
  | .error e => .error e
  | .ok (head, _) =>
    if head.accepted then readParts fromSlice bytes else .error .invalidHead

/-! ### The frames of a body -/

/-- A part of a body is handed over, and the loop goes on behind it. -/
theorem readBody_cons {chunk rest : List UInt8} {size : Nat} (hne : chunk ≠ [])
    (hlen : chunk.length ≤ chunkLimit) (hsize : size + chunk.length ≤ responseLimit) :
    readBody size (frame chunk ++ rest) =
      (chunk :: (readBody (size + chunk.length) rest).1,
        (readBody (size + chunk.length) rest).2) := by
  have hread : readFrame chunkLimit (frame chunk ++ rest) = .ok (chunk, rest) :=
    readFrame_frame hlen (by decide) rest
  rw [readBody]
  split
  · next e h => rw [hread] at h; cases h
  · next chunk' rest' h =>
    rw [hread] at h
    obtain ⟨rfl, rfl⟩ := Prod.mk.inj (Except.ok.inj h)
    rw [if_neg hne, if_pos hsize]

/-- The empty frame ends a body, behind which nothing may follow. -/
theorem readBody_end (size : Nat) (rest : List UInt8) :
    readBody size (frame [] ++ rest) =
      ([], if rest = [] then .ok () else .error .trailing) := by
  have hread : readFrame chunkLimit (frame [] ++ rest) = .ok ([], rest) :=
    readFrame_frame (Nat.zero_le _) (by decide) rest
  rw [readBody]
  split
  · next e h => rw [hread] at h; cases h
  · next chunk' rest' h =>
    rw [hread] at h
    obtain ⟨rfl, rfl⟩ := Prod.mk.inj (Except.ok.inj h)
    rw [if_pos rfl]
    split <;> rfl

/-- The frames of a body within the limits are read back; what follows them is an error. -/
theorem readBody_wire {chunks : List (List UInt8)} {size : Nat}
    (hchunks : ∀ c ∈ chunks, c ≠ [] ∧ c.length ≤ chunkLimit)
    (hsize : size + chunks.flatten.length ≤ responseLimit) (extra : List UInt8) :
    readBody size (wire (chunks ++ [[]]) ++ extra) =
      (chunks, if extra = [] then .ok () else .error .trailing) := by
  induction chunks generalizing size with
  | nil =>
    simp only [List.nil_append, wire_cons, wire_nil, List.append_nil]
    exact readBody_end size extra
  | cons c chunks ih =>
    obtain ⟨hne, hlen⟩ := hchunks c List.mem_cons_self
    rw [List.flatten_cons, List.length_append] at hsize
    have hrest := ih (fun d hd => hchunks d (List.mem_cons_of_mem _ hd))
      (by omega : size + c.length + chunks.flatten.length ≤ responseLimit)
    rw [List.cons_append, wire_cons, List.append_assoc,
      readBody_cons hne hlen (by omega), hrest]

/-- Nothing above the limits is handed over, however the loop ends. -/
theorem readBody_limits {size : Nat} {bytes : List UInt8} (hsize : size ≤ responseLimit) :
    (∀ c ∈ (readBody size bytes).1, c ≠ [] ∧ c.length ≤ chunkLimit) ∧
      size + (readBody size bytes).1.flatten.length ≤ responseLimit := by
  fun_induction readBody size bytes with
  | case1 | case2 | case3 => exact ⟨fun c hc => absurd hc List.not_mem_nil, by simpa using hsize⟩
  | case4 size bytes chunk rest h hne hle later ih =>
    obtain ⟨hchunks, htotal⟩ := ih hle
    refine ⟨fun c hc => ?_, ?_⟩
    · rcases List.mem_cons.1 hc with rfl | hc
      · exact ⟨hne, (readFrame_ok h).2⟩
      · exact hchunks c hc
    · have hlater : later = readBody (size + chunk.length) rest := rfl
      rw [List.flatten_cons, List.length_append, hlater]
      omega
  | case5 => exact ⟨fun c hc => absurd hc List.not_mem_nil, by simpa using hsize⟩

/-- **A body is accepted** only from the frames of what was handed over, and the empty frame. -/
theorem readBody_ok {size : Nat} {bytes : List UInt8} (h : (readBody size bytes).2 = .ok ()) :
    bytes = wire ((readBody size bytes).1 ++ [[]]) := by
  fun_induction readBody size bytes with
  | case1 | case3 | case5 => cases h
  | case2 size bytes h' =>
    have hbytes := (readFrame_ok h').1
    rw [hbytes, List.nil_append, wire_cons, wire_nil]
  | case4 size bytes chunk rest h' hne hle later ih =>
    rw [List.cons_append, wire_cons, ← ih h]
    exact (readFrame_ok h').1

/-! ### The task of a relay -/

/-- A part that the task of a relay takes from the link is the next one of the loop. -/
theorem readBody_relay {s s' : Relay} {chunk : List UInt8} (h : s.read = .ok s')
    (hp : s'.pending = some chunk) (hnone : s.pending = none) :
    readBody s.size s.incoming =
      (chunk :: (readBody s'.size s'.incoming).1, (readBody s'.size s'.incoming).2) := by
  simp only [Relay.read, Checked.bind_ok, Prod.exists] at h
  obtain ⟨data, rest, hread, h⟩ := h
  split at h
  · simp only [Checked.bind_ok, Checked.pure_ok] at h
    obtain ⟨-, -, rfl⟩ := h
    rw [show ({ s with incoming := rest, running := false } : Relay).pending = s.pending from rfl,
      hnone] at hp
    cases hp
  · next hne =>
    simp only [Checked.bind_ok, Checked.guard_ok, Checked.pure_ok] at h
    obtain ⟨-, hsize, rfl⟩ := h
    obtain rfl := Option.some.inj hp
    obtain ⟨hbytes, hlen⟩ := readFrame_ok hread
    rw [hbytes]
    exact readBody_cons hne hlen hsize

/-- A relay against the loop over the bytes of its link: the bytes that have passed into the
channel, the part that the task holds and what is still to come are those the loop hands over;
while the task runs, what is to come is what the loop makes of the bytes that are left. -/
def Relay.Reads (body : List UInt8) (s : Relay) : Prop :=
  ∃ later, s.passed ++ s.pending.getD [] ++ later = body ∧
    (s.running = true → later = (readBody s.size s.incoming).1.flatten)

/-- A failure passes nothing into the channel but its report. -/
theorem Relay.Reads.fail {body : List UInt8} {s : Relay} (h : s.Reads body) :
    s.fail.Reads body := by
  obtain ⟨later, hbody, -⟩ := h
  have hpassed : s.fail.passed = s.passed := by
    unfold Relay.fail Relay.passed
    dsimp only
    split
    · simp
    · rfl
  exact ⟨later, by rw [hpassed]; exact hbody, fun hr => by cases hr⟩

/-- The task reads what the loop reads. -/
theorem Relay.Reads.read {body : List UInt8} {s s' : Relay} (h : s.Reads body)
    (hrunning : s.running = true) (hpending : s.pending = none) (hread : s.read = .ok s') :
    s'.Reads body := by
  obtain ⟨later, hbody, hlater⟩ := h
  have hnow := hlater hrunning
  have hsame : s'.passed = s.passed ∧ (s'.pending = none → s'.running = false) := by
    simp only [Relay.read, Checked.bind_ok, Prod.exists] at hread
    obtain ⟨data, rest, -, hread⟩ := hread
    split at hread
    · simp only [Checked.bind_ok, Checked.pure_ok] at hread
      obtain ⟨-, -, rfl⟩ := hread
      exact ⟨rfl, fun _ => rfl⟩
    · simp only [Checked.bind_ok, Checked.pure_ok] at hread
      obtain ⟨-, -, rfl⟩ := hread
      exact ⟨rfl, fun hnone => by cases hnone⟩
  rw [hpending] at hbody
  cases hp : s'.pending with
  | none =>
    refine ⟨later, by rw [hsame.1, hp]; exact hbody, fun hr => ?_⟩
    rw [hsame.2 hp] at hr
    cases hr
  | some chunk =>
    refine ⟨_, ?_, fun _ => rfl⟩
    rw [readBody_relay hread hp hpending, List.flatten_cons] at hnow
    rw [hsame.1, hp, ← hbody, hnow]
    simp

/-- **One step** of a relay follows the loop, whatever the step is.

**Proof sketch.** By the event. A read takes the next frame as the loop does; the other events move
what was passed on between the task, the channel and the consumer, or end the body. -/
theorem Relay.Reads.step {body : List UInt8} {s : Relay} (h : s.Reads body) (e : RelayEvent) :
    (s.step e).Reads body := by
  unfold Relay.step
  split
  · exact h.fail
  · cases e with
    | read =>
      dsimp only
      split
      · next hready =>
        split
        · next s' hread => exact h.read hready.1 hready.2 hread
        · exact h
      · exact h
    | send =>
      dsimp only
      split
      · next chunk hpending =>
        split
        · obtain ⟨later, hbody, hlater⟩ := h
          rw [hpending] at hbody
          exact ⟨later, by simpa [Relay.passed] using hbody, hlater⟩
        · exact h
      · exact h
    | receive =>
      dsimp only
      split
      · obtain ⟨later, hbody, hlater⟩ := h
        unfold Relay.receive
        split
        · next bytes channel hchannel =>
          exact ⟨later, by simpa [Relay.passed, hchannel] using hbody, hlater⟩
        · next channel hchannel =>
          exact ⟨later, by simpa [Relay.passed, hchannel] using hbody, hlater⟩
        · split
          · exact ⟨later, hbody, hlater⟩
          · exact ⟨later, hbody, hlater⟩
      · exact h
    | leave =>
      dsimp only
      split
      · exact h
      · exact h
    | deadline | closed => exact h

/-- The task goes on with what it has read. -/
theorem Relay.step_read {s s' : Relay} (hrunning : s.running = true) (hpending : s.pending = none)
    (hread : s.read = .ok s') : s.step .read = s' := by
  have hfails : s.fails .read = false := by
    simp [Relay.fails, hread, Except.isOk, Except.toBool]
  simp [Relay.step, hfails, hrunning, hpending, hread]

/-- The task fails where it cannot go on. -/
theorem Relay.step_read_error {s : Relay} {e : LinkError} (hrunning : s.running = true)
    (hpending : s.pending = none) (hread : s.read = .error e) : s.step .read = s.fail := by
  have hfails : s.fails .read = true := by
    simp [Relay.fails, hrunning, hpending, hread, Except.isOk, Except.toBool]
  rw [Relay.step, if_pos hfails]

/-- A relay after a part has been received: the channel is empty and the consumer waits. -/
def Relay.waiting (seen : List UInt8) (size : Nat) (bytes : List UInt8) : Relay where
  incoming := bytes
  clean := true
  running := true
  size
  pending := none
  channel := []
  seen
  ended := none

/-- A frame that the task refuses is reported to the consumer that waits. -/
theorem Relay.waiting_refused {seen bytes : List UInt8} {size : Nat} {e : LinkError}
    (h : (Relay.waiting seen size bytes).read = .error e) (source : List UInt8) (clean : Bool) :
    ∃ events, let s := (relaySystem source clean).run (Relay.waiting seen size bytes) events
      s.seen = seen ∧ s.ended = some .failed := by
  have hstep : (relaySystem source clean).step .read (Relay.waiting seen size bytes) =
      (Relay.waiting seen size bytes).fail := Relay.step_read_error rfl rfl h
  refine ⟨[.read, .receive], ?_⟩
  rw [Machine.System.run_cons, hstep]
  exact ⟨rfl, rfl⟩

/-- A consumer that takes every part at once receives what the loop hands over, and learns how the
loop ends.

**Proof sketch.** Induction along the loop. A part that it accepts is read, sent and received in
three steps, after which the consumer waits again. The last frame ends the task and the body, and an
error is reported through the channel, which is empty. -/
theorem Relay.waiting_delivers (source : List UInt8) (clean : Bool) (size : Nat)
    (bytes seen : List UInt8) :
    ∃ events, let s := (relaySystem source clean).run (Relay.waiting seen size bytes) events
      s.seen = seen ++ (readBody size bytes).1.flatten ∧
        s.ended = some (if (readBody size bytes).2 = .ok () then .complete else .failed) := by
  fun_induction readBody size bytes generalizing seen with
  | case1 size bytes e hread =>
    have hrefused : (Relay.waiting seen size bytes).read = .error e := by
      simp [Relay.read, Relay.waiting, hread, bind, Except.bind]
    obtain ⟨events, hseen, hended⟩ := Relay.waiting_refused hrefused source clean
    exact ⟨events, by simpa using hseen, by simpa using hended⟩
  | case2 size bytes hread =>
    have hnext : (Relay.waiting seen size bytes).read =
        .ok { Relay.waiting seen size bytes with incoming := [], running := false } := by
      simp [Relay.read, Relay.waiting, hread, bind, Except.bind, Checked.guard, pure, Except.pure]
    have hstep : (relaySystem source clean).step .read (Relay.waiting seen size bytes) =
        { Relay.waiting seen size bytes with incoming := [], running := false } :=
      Relay.step_read rfl rfl hnext
    refine ⟨[.read, .receive], ?_⟩
    rw [Machine.System.run_cons, hstep]
    exact ⟨by simp [Relay.waiting, relaySystem, Relay.step, Relay.fails, Relay.receive], rfl⟩
  | case3 size bytes rest hread hne =>
    have hrefused : (Relay.waiting seen size bytes).read = .error .trailing := by
      simp [Relay.read, Relay.waiting, hread, bind, Except.bind, Checked.guard, hne]
    obtain ⟨events, hseen, hended⟩ := Relay.waiting_refused hrefused source clean
    exact ⟨events, by simpa using hseen, by simpa using hended⟩
  | case4 size bytes chunk rest hread hne hle later ih =>
    obtain ⟨events, hseen, hended⟩ := ih (seen ++ chunk)
    have hnext : (Relay.waiting seen size bytes).read =
        .ok { Relay.waiting seen (size + chunk.length) rest with pending := some chunk } := by
      simp [Relay.read, Relay.waiting, hread, bind, Except.bind, Checked.guard, pure, Except.pure,
        hne, hle]
    have hround : (relaySystem source clean).run (Relay.waiting seen size bytes)
        [.read, .send, .receive] = Relay.waiting (seen ++ chunk) (size + chunk.length) rest := by
      have hstep : (relaySystem source clean).step .read (Relay.waiting seen size bytes) =
          { Relay.waiting seen (size + chunk.length) rest with pending := some chunk } :=
        Relay.step_read rfl rfl hnext
      rw [Machine.System.run_cons, hstep]
      simp [Relay.waiting, relaySystem, Relay.step, Relay.fails, Relay.receive, capacity]
    refine ⟨[.read, .send, .receive] ++ events, ?_⟩
    rw [Machine.System.run_append, hround]
    exact ⟨by simpa [List.append_assoc] using hseen, hended⟩
  | case5 size bytes chunk rest hread hne hle =>
    have hrefused : (Relay.waiting seen size bytes).read = .error .responseLimit := by
      simp [Relay.read, Relay.waiting, hread, bind, Except.bind, Checked.guard, hne, hle]
    obtain ⟨events, hseen, hended⟩ := Relay.waiting_refused hrefused source clean
    exact ⟨events, by simpa using hseen, by simpa using hended⟩

/-- **A run of a relay delivers the parts of the loop.** In every run the consumer has received a
prefix of what the loop hands over, and there is a run in which it receives all of it and learns
how the loop ends.

**Proof sketch.** The first part by induction on the events (`Relay.Reads.step`), from the start,
where nothing was passed on. The second is that of a consumer that takes every part at once
(`Relay.waiting_delivers`). -/
theorem relay_readBody (bytes : List UInt8) :
    (∀ events, ((relaySystem bytes true).run (Relay.start bytes true) events).seen <+:
      (readBody 0 bytes).1.flatten) ∧
    ∃ events, let s := (relaySystem bytes true).run (Relay.start bytes true) events
      s.seen = (readBody 0 bytes).1.flatten ∧
        s.ended = some (if (readBody 0 bytes).2 = .ok () then .complete else .failed) := by
  refine ⟨fun events => ?_, ?_⟩
  · have hstart : (Relay.start bytes true).Reads (readBody 0 bytes).1.flatten :=
      ⟨_, by simp [Relay.start, Relay.passed], fun _ => rfl⟩
    obtain ⟨later, hbody, -⟩ := Machine.System.run_invariant
      (P := Relay.Reads (readBody 0 bytes).1.flatten) (fun _ e _ h => h.step e)
      (.init (M := relaySystem bytes true) rfl) hstart events
    rw [← hbody, Relay.passed, List.append_assoc, List.append_assoc]
    exact List.prefix_append _ _
  · obtain ⟨events, hseen, hended⟩ := Relay.waiting_delivers bytes true 0 bytes []
    exact ⟨events, hseen, hended⟩

/-! ### Whole responses -/

section Responses

variable {fromSlice : List UInt8 → Option ResponseHead}

/-- What `readParts` accepts, part by part. -/
theorem readParts_ok {bytes body : List UInt8} {head : ResponseHead} :
    readParts fromSlice bytes = .ok (head, body) ↔
      ∃ rest, readHead fromSlice bytes = .ok (head, rest) ∧
        (readBody 0 rest).2 = .ok () ∧ (readBody 0 rest).1.flatten = body := by
  unfold readParts
  constructor
  · intro h
    split at h
    · cases h
    · next head' rest hhead =>
      split at h
      · next chunks hbody =>
        obtain ⟨rfl, rfl⟩ := Prod.mk.inj (Except.ok.inj h)
        exact ⟨rest, hhead, by rw [hbody], by rw [hbody]⟩
      · cases h
  · rintro ⟨rest, hhead, hend, hflat⟩
    cases hbody : readBody 0 rest with
    | mk chunks ending =>
      rw [hbody] at hend hflat
      obtain rfl : ending = .ok () := hend
      obtain rfl : chunks.flatten = body := hflat
      simp only [hhead, hbody]

/-- What is read of the header does not depend on what follows. -/
theorem readHead_append {bytes rest : List UInt8} {head : ResponseHead}
    (h : readHead fromSlice bytes = .ok (head, rest)) (more : List UInt8) :
    readHead fromSlice (bytes ++ more) = .ok (head, rest ++ more) := by
  unfold readHead at h ⊢
  split at h
  · cases h
  · next data rest' hread =>
    rw [readFrame_append hread more]
    split at h
    · next head' hdata =>
      obtain ⟨rfl, rfl⟩ := Prod.mk.inj (Except.ok.inj h)
      simp only [hdata]
    · cases h

/-- **A response followed by anything** is refused. -/
theorem readParts_append {bytes more : List UInt8} {v : ResponseHead × List UInt8}
    (h : readParts fromSlice bytes = .ok v) (hmore : more ≠ []) :
    readParts fromSlice (bytes ++ more) = .error (.link .trailing) := by
  obtain ⟨rest, hhead, hend, -⟩ := readParts_ok.1 h
  have hlimits := @readBody_limits 0 rest (Nat.zero_le responseLimit)
  have hbody := readBody_wire hlimits.1 hlimits.2 more
  rw [← readBody_ok hend, if_neg hmore] at hbody
  rw [readParts, readHead_append hhead more]
  simp only [hbody]

/-- `proxy` reads no response that the frames do not carry. -/
theorem readResponse_ok {bytes : List UInt8} {v : ResponseHead × List UInt8}
    (h : readResponse fromSlice bytes = .ok v) : readParts fromSlice bytes = .ok v := by
  unfold readResponse at h
  split at h
  · cases h
  · split at h
    · exact h
    · cases h

/-- The bytes of a response are read back. -/
theorem readParts_serveResponse {status : Nat} {contentType : Option (List UInt8)}
    {items : List (List UInt8)} {bytes : List UInt8} (hstatus : status < 2 ^ 16)
    (hjson : fromSlice (serveHead status contentType).toVec = some (serveHead status contentType))
    (hbody : items.flatten.length ≤ responseLimit)
    (h : serveResponse status contentType items = .ok bytes) :
    (∃ rest, readHead fromSlice bytes = .ok (serveHead status contentType, rest)) ∧
      readParts fromSlice bytes = .ok (serveHead status contentType, items.flatten) := by
  simp only [serveResponse, Checked.bind_ok, Checked.pure_ok] at h
  obtain ⟨frames, hframes, rfl⟩ := h
  obtain ⟨chunks, rfl, hflat, hchunks⟩ := serveFrames_ok hframes
  have hhead : readHead fromSlice (frame (serveHead status contentType).toVec ++
      wire (chunks ++ [[]])) = .ok (serveHead status contentType, wire (chunks ++ [[]])) := by
    rw [readHead, readFrame_frame (toVec_length hstatus contentType) (by decide)]
    simp only [hjson]
  have hread := @readBody_wire _ 0 hchunks (by rw [hflat]; omega) []
  rw [List.append_nil, if_pos rfl] at hread
  refine ⟨⟨_, hhead⟩, readParts_ok.2 ⟨_, hhead, ?_, ?_⟩⟩
  · rw [hread]
  · rw [hread, hflat]

/-- **The link carries responses faithfully.** The frames of a response give back its header and
its body; a part of its bytes or more than its bytes is refused; and whatever the bytes are, no
part above the limit of a frame and no body above the limit of a response is taken, and a body
ends in good order only where it was written as frames with an empty one last.

**Proof sketch.** The frames of a response are read back one by one, up to the empty one. A strict
prefix that was read would leave trailing bytes behind it, which are refused (`readParts_append`).
The limits are checked at every part that the loop takes. -/
theorem response_round_trip (fromSlice : List UInt8 → Option ResponseHead) :
    (∀ (status : Nat) (contentType : Option (List UInt8)) (items : List (List UInt8)),
      status < 2 ^ 16 →
      fromSlice (serveHead status contentType).toVec = some (serveHead status contentType) →
      items.flatten.length ≤ responseLimit →
      ∃ bytes, serveResponse status contentType items = .ok bytes ∧
        readParts fromSlice bytes = .ok (serveHead status contentType, items.flatten) ∧
        (200 ≤ status → status ≤ 599 →
          readResponse fromSlice bytes = .ok (serveHead status contentType, items.flatten)) ∧
        (∀ p, p <+: bytes → p ≠ bytes →
          (∃ e, readParts fromSlice p = .error e) ∧ ∃ e, readResponse fromSlice p = .error e) ∧
        ∀ extra, extra ≠ [] →
          (∃ e, readParts fromSlice (bytes ++ extra) = .error e) ∧
            ∃ e, readResponse fromSlice (bytes ++ extra) = .error e) ∧
    ∀ bytes, (∀ c ∈ (readBody 0 bytes).1, c.length ≤ chunkLimit) ∧
      (readBody 0 bytes).1.flatten.length ≤ responseLimit ∧
      ((readBody 0 bytes).2 = .ok () → bytes = wire ((readBody 0 bytes).1 ++ [[]])) := by
  -- An error of the frames is an error of the proxy.
  have hboth : ∀ bytes, (∃ e, readParts fromSlice bytes = .error e) →
      (∃ e, readParts fromSlice bytes = .error e) ∧
        ∃ e, readResponse fromSlice bytes = .error e := by
    rintro bytes ⟨e, he⟩
    refine ⟨⟨e, he⟩, ?_⟩
    cases hr : readResponse fromSlice bytes with
    | error e' => exact ⟨e', rfl⟩
    | ok v =>
      rw [readResponse_ok hr] at he
      cases he
  refine ⟨fun status contentType items hstatus hjson hbody => ?_, fun bytes => ?_⟩
  · obtain ⟨frames, hframes⟩ := @serveFrames_within items 0 (by omega)
    have hserve : serveResponse status contentType items =
        .ok (frame (serveHead status contentType).toVec ++ wire frames) := by
      rw [serveResponse, hframes]
      rfl
    obtain ⟨⟨rest, hhead⟩, hparts⟩ := readParts_serveResponse hstatus hjson hbody hserve
    refine ⟨_, hserve, hparts, fun hlow hhigh => ?_, fun p hp hne => ?_, fun extra hextra => ?_⟩
    · rw [readResponse, hhead]
      simp only [serveHead_accepted hlow hhigh contentType, if_true]
      exact hparts
    · apply hboth
      obtain ⟨more, hmore⟩ := hp
      cases hread : readParts fromSlice p with
      | error e => exact ⟨e, rfl⟩
      | ok v =>
        have hnonempty : more ≠ [] := by
          rintro rfl
          exact hne (by rw [← hmore, List.append_nil])
        have htrailing := readParts_append hread hnonempty
        rw [hmore, hparts] at htrailing
        cases htrailing
    · exact hboth _ ⟨_, readParts_append hparts hextra⟩
  · have hlimits := @readBody_limits 0 bytes (Nat.zero_le responseLimit)
    exact ⟨fun c hc => (hlimits.1 c hc).2, by omega, readBody_ok⟩

end Responses

/-- A body of three parts, one of them empty, crosses the link. -/
theorem response_round_trip_parts :
    ∃ bytes, serveResponse 200 none [[1, 2], [], [3]] = .ok bytes ∧
      readResponse (fun data => if data = (serveHead 200 none).toVec then some (serveHead 200 none)
        else none) bytes = .ok (serveHead 200 none, [1, 2, 3]) := by
  obtain ⟨bytes, hserve, -, hread, -⟩ := (response_round_trip
    (fun data => if data = (serveHead 200 none).toVec then some (serveHead 200 none) else none)).1
    200 none [[1, 2], [], [3]] (by decide) (if_pos rfl) (by decide)
  exact ⟨bytes, hserve, hread (by decide) (by decide)⟩

end NetworkAi.Link
