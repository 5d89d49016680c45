import NetworkAi.Runtime.Sse

set_option relaxedAutoImplicit false
set_option autoImplicit false

/-!
# Streams of events, cut into chunks

The decoder checks the size of its buffer after every chunk, so that whether a stream is accepted
can depend on where the network cuts it: a chunk that ends within the separator of an event of
nearly the greatest size leaves a buffer above the limit, and the same event in one chunk does not.

## Main definitions

* `NetworkAi.Splitting`, `NetworkAi.ChunkIndependent` — the ways of cutting a stream, and that
  they all agree.
* `NetworkAi.Refused`, `NetworkAi.Roomy` — the streams that every splitting refuses, and those
  whose events leave room for their separators.

## Main results

* `NetworkAi.drain_framed` — what one call does to a whole stream.
* `NetworkAi.drain_append` — a chunk may be cut where the first part is accepted.
* `NetworkAi.feed_roomy` — a roomy stream is accepted however it is cut.
* `NetworkAi.chunk_independence` — when all splittings of a stream agree.
-/

namespace NetworkAi

/-! ### What the decoder does to a stream -/

/-- An event that no decoder accepts: longer than the limit, or not text. -/
def RefusedEvent (frame : List UInt8) : Prop :=
  eventLimit < (content frame).length ∨ fromUtf8 frame = none

/-- A stream that no decoder accepts: for one of its events, or for what follows the last. -/
def Refused (frames : List (List UInt8)) (tail : List UInt8) : Prop :=
  (∃ f ∈ frames, RefusedEvent f) ∨ eventLimit < tail.length

/-- A stream whose events stay within the limit together with all but the last byte of their
separators. -/
def Roomy (frames : List (List UInt8)) : Prop := ∀ f ∈ frames, f.length - 1 ≤ eventLimit

/-- Without a separator the bytes stay in the buffer, up to the limit of an event. -/
theorem drain_unterminated {bytes : List UInt8} (h : Unterminated bytes) :
    drain bytes = if bytes.length ≤ eventLimit then .ok ([], bytes) else .error .limit := by
  rw [drain]
  split
  · rfl
  · next hnext =>
    rw [h.next] at hnext
    cases hnext

/-- The first event of a buffer is refused, or decoded before the rest. -/
theorem drain_terminated {frame : List UInt8} (h : Terminated frame) (rest : List UInt8) :
    (RefusedEvent frame ∧ ∃ e, drain (frame ++ rest) = .error e) ∨
      (¬ RefusedEvent frame ∧ ∃ event, fromUtf8 frame = some event ∧
        drain (frame ++ rest) = (drain rest).map fun r => (eventResult event ++ r.1, r.2)) := by
  obtain ⟨i, n, hnext, hlen, hcontent⟩ := h.next rest
  have htake : (frame ++ rest).take (i + n) = frame := by
    rw [hlen, List.take_left]
  have hdrop : (frame ++ rest).drop (i + n) = rest := by
    rw [hlen, List.drop_left]
  rw [drain]
  split
  · next hnone =>
    rw [hnext] at hnone
    cases hnone
  · next j m hsome =>
    rw [hnext, Option.some.injEq, Prod.mk.injEq] at hsome
    obtain ⟨rfl, rfl⟩ := hsome
    rw [htake, hdrop]
    by_cases hlimit : eventLimit < i
    · refine .inl ⟨.inl (by rw [hcontent]; exact hlimit), .limit, ?_⟩
      rw [if_pos hlimit]
    · rw [if_neg hlimit]
      cases htext : fromUtf8 frame with
      | none => exact .inl ⟨.inr htext, .utf8, rfl⟩
      | some event =>
        refine .inr ⟨?_, event, rfl, ?_⟩
        · rintro (hlong | hnone)
          · rw [hcontent] at hlong
            exact hlimit hlong
          · rw [htext] at hnone
            cases hnone
        · cases drain rest with
          | error e => rfl
          | ok r => rfl

/-- **One call on a whole stream** ends with what follows the last event, unless the stream is
refused. -/
theorem drain_framed {bytes tail : List UInt8} {frames : List (List UInt8)}
    (h : Framed bytes frames tail) :
    (Refused frames tail ∧ ∃ e, drain bytes = .error e) ∨
      (¬ Refused frames tail ∧ ∃ events, drain bytes = .ok (events, tail)) := by
  obtain ⟨rfl, hterm, htail⟩ := h
  induction frames with
  | nil =>
    rw [List.flatten_nil, List.nil_append, drain_unterminated htail]
    by_cases hlen : tail.length ≤ eventLimit
    · refine .inr ⟨?_, [], by rw [if_pos hlen]⟩
      rintro (⟨f, hf, -⟩ | hlong)
      · cases hf
      · omega
    · exact .inl ⟨.inr (by omega), .limit, by rw [if_neg hlen]⟩
  | cons f frames ih =>
    have hrest := ih fun g hg => hterm g (List.mem_cons_of_mem _ hg)
    rw [List.flatten_cons, List.append_assoc]
    rcases drain_terminated (hterm f List.mem_cons_self) (frames.flatten ++ tail) with
      ⟨href, herr⟩ | ⟨hgood, event, -, hdrain⟩
    · exact .inl ⟨.inl ⟨f, List.mem_cons_self, href⟩, herr⟩
    · rw [hdrain]
      rcases hrest with ⟨href, e, herr⟩ | ⟨hok, events, hev⟩
      · refine .inl ⟨?_, e, by rw [herr]; rfl⟩
        rcases href with ⟨g, hg, hbad⟩ | hlong
        · exact .inl ⟨g, List.mem_cons_of_mem _ hg, hbad⟩
        · exact .inr hlong
      · refine .inr ⟨?_, eventResult event ++ events, by rw [hev]; rfl⟩
        rintro (⟨g, hg, hbad⟩ | hlong)
        · rcases List.mem_cons.1 hg with rfl | hg
          · exact hgood hbad
          · exact hok (.inl ⟨g, hg, hbad⟩)
        · exact hok (.inr hlong)

/-- **A chunk may be cut** where the first part is accepted.

**Proof sketch.** Induction on the events that end within the first part. Each of them is decoded
alike, whatever follows it. Then the remainder has no separator and fits, and is what the decoder
keeps. -/
theorem drain_append {a b t : List UInt8} {events : List (List Char)}
    (h : drain a = .ok (events, t)) :
    drain (a ++ b) = (drain (t ++ b)).map fun r => (events ++ r.1, r.2) := by
  obtain ⟨frames, tail, hframed⟩ := exists_framed a
  obtain ⟨rfl, hterm, htail⟩ := hframed
  induction frames generalizing events with
  | nil =>
    rw [List.flatten_nil, List.nil_append, drain_unterminated htail] at h
    split at h
    · obtain ⟨rfl, rfl⟩ := Prod.mk.inj (Except.ok.inj h)
      rw [List.flatten_nil, List.nil_append]
      cases drain (tail ++ b) with
      | error e => rfl
      | ok r => rfl
    · cases h
  | cons f frames ih =>
    have hassoc : (f :: frames).flatten ++ tail ++ b = f ++ (frames.flatten ++ tail ++ b) := by
      simp
    rw [List.flatten_cons, List.append_assoc] at h
    rw [hassoc]
    have hf := hterm f List.mem_cons_self
    rcases drain_terminated hf (frames.flatten ++ tail) with
      ⟨-, e, herr⟩ | ⟨hgood, event, htext, hdrain⟩
    · rw [herr] at h
      cases h
    · rcases drain_terminated hf (frames.flatten ++ tail ++ b) with
        ⟨hbad, -⟩ | ⟨-, event', htext', hdrain'⟩
      · exact absurd hbad hgood
      · rw [htext, Option.some.injEq] at htext'
        subst htext'
        rw [hdrain] at h
        cases hrest : drain (frames.flatten ++ tail) with
        | error e =>
          rw [hrest] at h
          cases h
        | ok r =>
          rw [hrest] at h
          obtain ⟨rfl, rfl⟩ := Prod.mk.inj (Except.ok.inj h)
          have htl := ih (fun g hg => hterm g (List.mem_cons_of_mem _ hg)) hrest
          rw [hdrain', htl]
          cases drain (r.2 ++ b) with
          | error e => rfl
          | ok r' => simp [Except.map]

/-- A run that ends well does what one call does. -/
theorem feed_ok {chunks : List (List UInt8)} {sse sse' : Sse} {events : List (List Char)}
    (hopen : Unterminated sse.buffer) (hlen : sse.buffer.length ≤ eventLimit)
    (h : sse.feed chunks = .ok (events, sse')) :
    drain (sse.buffer ++ chunks.flatten) = .ok (events, sse'.buffer) := by
  induction chunks generalizing sse events with
  | nil =>
    obtain ⟨rfl, rfl⟩ := Prod.mk.inj (Except.ok.inj h)
    rw [List.flatten_nil, List.append_nil, drain_unterminated hopen, if_pos hlen]
  | cons c cs ih =>
    simp only [Sse.feed, Sse.push, Checked.bind_ok, Checked.pure_ok, Prod.exists] at h
    obtain ⟨ev, sse₁, ⟨ev₁, t, hdrain, heq⟩, more, sse₂, hmore, hend⟩ := h
    obtain ⟨rfl, rfl⟩ := Prod.mk.inj heq
    obtain ⟨rfl, rfl⟩ := Prod.mk.inj hend
    have ht : Unterminated t ∧ t.length ≤ eventLimit := by
      obtain ⟨frames, tail, hf⟩ := exists_framed (sse.buffer ++ c)
      rcases drain_framed hf with ⟨-, e, herr⟩ | ⟨hgood, ev', hok⟩
      · rw [herr] at hdrain
        cases hdrain
      · rw [hok] at hdrain
        obtain ⟨-, rfl⟩ := Prod.mk.inj (Except.ok.inj hdrain)
        refine ⟨hf.unterminated, ?_⟩
        by_contra hlong
        exact hgood (.inr (by omega))
    rw [List.flatten_cons, ← List.append_assoc, drain_append hdrain, ih ht.1 ht.2 hmore]
    rfl

/-- **A roomy stream is accepted** however it is cut.

**Proof sketch.** Induction on the chunks. The events that end within the buffer and the chunk are
decoded. What remains is a beginning of the next event, without all of its separator, and so within
the limit. -/
theorem feed_roomy {chunks : List (List UInt8)} {sse : Sse} {frames : List (List UInt8)}
    {tail : List UInt8} (h : Framed (sse.buffer ++ chunks.flatten) frames tail)
    (hgood : ¬ Refused frames tail) (hroomy : Roomy frames) : ∃ r, sse.feed chunks = .ok r := by
  induction chunks generalizing sse frames with
  | nil => exact ⟨_, rfl⟩
  | cons c cs ih =>
    rw [List.flatten_cons, ← List.append_assoc] at h
    -- the events that end within the buffer and the chunk, and what remains of the stream
    obtain ⟨ev, t, frames', hdrain, hrest, hsub⟩ : ∃ ev t frames',
        drain (sse.buffer ++ c) = .ok (ev, t) ∧ Framed (t ++ cs.flatten) frames' tail ∧
          ∀ f ∈ frames', f ∈ frames := by
      clear ih
      generalize sse.buffer ++ c = a at h ⊢
      induction frames generalizing a with
      | nil =>
        have hb := h.bytes_eq
        rw [List.flatten_nil, List.nil_append] at hb
        have ha : Unterminated a := h.unterminated.of_prefix ⟨_, hb⟩
        have hlen : a.length ≤ eventLimit := by
          by_contra hlong
          refine hgood (.inr ?_)
          rw [← hb, List.length_append]
          omega
        exact ⟨[], a, [], by rw [drain_unterminated ha, if_pos hlen], h, by simp⟩
      | cons f frames ihf =>
        have hf := h.terminated f List.mem_cons_self
        have hb := h.bytes_eq
        rw [List.flatten_cons, List.append_assoc] at hb
        rcases Nat.lt_or_ge a.length f.length with hlt | hge
        · -- the chunk ends within the first event
          have hpre : a <+: f :=
            List.prefix_of_prefix_length_le ⟨_, hb⟩ ⟨_, rfl⟩ (by omega)
          have ha : Unterminated a := hf.of_prefix hpre (by rintro rfl; omega)
          have hlen : a.length ≤ eventLimit := by
            have := hroomy f List.mem_cons_self
            omega
          exact ⟨[], a, f :: frames, by rw [drain_unterminated ha, if_pos hlen], h, fun _ => id⟩
        · -- the first event ends in the chunk
          obtain ⟨a', rfl⟩ : f <+: a := List.prefix_of_prefix_length_le ⟨_, hb.symm⟩ ⟨_, rfl⟩ hge
          rw [List.append_assoc, List.append_cancel_left_eq] at hb
          have hgood' : ¬ Refused frames tail := by
            rintro (⟨g, hg, hbad⟩ | hlong)
            · exact hgood (.inl ⟨g, List.mem_cons_of_mem _ hg, hbad⟩)
            · exact hgood (.inr hlong)
          obtain ⟨ev, t, frames', hdrain, hrest, hsub⟩ := ihf hgood'
            (fun g hg => hroomy g (List.mem_cons_of_mem _ hg)) a'
            ⟨hb, fun g hg => h.terminated g (List.mem_cons_of_mem _ hg), h.unterminated⟩
          rcases drain_terminated hf a' with ⟨hbad, -⟩ | ⟨-, event, -, hstep⟩
          · exact absurd (.inl ⟨f, List.mem_cons_self, hbad⟩) hgood
          · refine ⟨eventResult event ++ ev, t, frames', ?_, hrest,
              fun g hg => List.mem_cons_of_mem _ (hsub g hg)⟩
            rw [hstep, hdrain]
            rfl
    have hgood' : ¬ Refused frames' tail := by
      rintro (⟨g, hg, hbad⟩ | hlong)
      · exact hgood (.inl ⟨g, hsub g hg, hbad⟩)
      · exact hgood (.inr hlong)
    have hnext : Framed ((Sse.mk t).buffer ++ cs.flatten) frames' tail := hrest
    obtain ⟨r, hr⟩ := ih hnext hgood' fun g hg => hroomy g (hsub g hg)
    refine ⟨(ev ++ r.1, r.2), ?_⟩
    simp only [Sse.feed, Sse.push, hdrain]
    exact Checked.bind_ok.2 ⟨_, rfl, Checked.bind_ok.2 ⟨r, hr, rfl⟩⟩

/-! ### Splittings -/

/-- A way of splitting a stream into successive non-empty chunks. -/
structure Splitting (bytes : List UInt8) (chunks : List (List UInt8)) : Prop where
  flatten : chunks.flatten = bytes
  nonempty : ∀ c ∈ chunks, c ≠ []

/-- What a new decoder makes of chunks: the events, or nothing after an error. -/
def decode (chunks : List (List UInt8)) : Option (List (List Char)) :=
  match (Sse.mk []).feed chunks with
  | .ok r => some r.1
  | .error _ => none

/-- All splittings of a stream give the same events, or all fail. -/
def ChunkIndependent (bytes : List UInt8) : Prop :=
  ∀ cs cs', Splitting bytes cs → Splitting bytes cs' → decode cs = decode cs'

/-- No bytes hold no separator. -/
theorem unterminated_nil : Unterminated [] := by
  intro p hp hends
  rw [List.prefix_nil.1 hp] at hends
  rcases hends with hs | hs
  · have := hs.length_le
    simp at this
  · have := hs.length_le
    simp at this

/-- What is decoded in chunks is what is drained of all bytes at once. -/
theorem decode_eq_some {chunks : List (List UInt8)} {events : List (List Char)}
    (h : decode chunks = some events) : ∃ t, drain chunks.flatten = .ok (events, t) := by
  unfold decode at h
  cases hfeed : (Sse.mk []).feed chunks with
  | error e =>
    rw [hfeed] at h
    cases h
  | ok r =>
    rw [hfeed, Option.some.injEq] at h
    subst h
    exact ⟨_, feed_ok unterminated_nil (by simp) hfeed⟩

/-- Splittings that are accepted give the same events. -/
theorem decode_agree {cs cs' : List (List UInt8)} {events events' : List (List Char)}
    (hsame : cs.flatten = cs'.flatten) (h : decode cs = some events)
    (h' : decode cs' = some events') : events = events' := by
  obtain ⟨t, ht⟩ := decode_eq_some h
  obtain ⟨t', ht'⟩ := decode_eq_some h'
  rw [hsame, ht'] at ht
  exact (Prod.mk.inj (Except.ok.inj ht)).1.symm

/-- A single chunk is accepted exactly when the stream is not refused. -/
theorem decode_singleton {bytes tail : List UInt8} {frames : List (List UInt8)}
    (h : Framed bytes frames tail) : decode [bytes] ≠ none ↔ ¬ Refused frames tail := by
  rcases drain_framed h with ⟨href, e, herr⟩ | ⟨hgood, events, hok⟩
  · simp [decode, Sse.feed, Sse.push, herr, href, bind, Except.bind]
  · simp [decode, Sse.feed, Sse.push, hok, hgood, bind, Except.bind, pure, Except.pure]

/-- A chunk that ends one byte before the end of an event that leaves no room is refused. -/
theorem decode_cramped {f : List UInt8} {before : List (List UInt8)}
    (hterm : ∀ g ∈ before, Terminated g) (hf : Terminated f) (hlong : eventLimit < f.length - 1)
    (rest : List UInt8) :
    decode [before.flatten ++ f.take (f.length - 1), rest] = none := by
  have hlen : (f.take (f.length - 1)).length = f.length - 1 :=
    List.length_take_of_le (Nat.sub_le _ _)
  have hopen : Unterminated (f.take (f.length - 1)) := by
    refine hf.of_prefix (List.take_prefix _ _) fun heq => ?_
    have := hf.length_pos
    rw [heq] at hlen
    omega
  cases hd : decode [before.flatten ++ f.take (f.length - 1), rest] with
  | none => rfl
  | some events =>
    rcases drain_framed ⟨rfl, hterm, hopen⟩ with ⟨-, e, herr⟩ | ⟨hgood, -⟩
    · simp [decode, Sse.feed, Sse.push, herr, bind, Except.bind] at hd
    · exact absurd (.inr (by rw [hlen]; exact hlong)) hgood

/-- **When the decoder does not depend on the chunks.** All splittings of a stream agree exactly
when the stream is refused whatever the splitting, or each of its events leaves room in the limit
for all but the last byte of its separator.

**Proof sketch.** If an event leaves too little room, the stream cut before the last byte of its
separator is refused, whereas the whole stream is not. If all events leave room and the stream is
not refused, every splitting is accepted (`feed_roomy`), with the same events (`decode_agree`). -/
theorem chunk_independence (bytes : List UInt8) :
    ChunkIndependent bytes ↔
      ∀ frames tail, Framed bytes frames tail → Refused frames tail ∨ Roomy frames := by
  constructor
  · intro hind frames tail hframed
    by_contra hneither
    rw [not_or] at hneither
    obtain ⟨hgood, hcramped⟩ := hneither
    obtain ⟨f, hf, hlong⟩ : ∃ f ∈ frames, eventLimit < f.length - 1 := by
      by_contra hno
      exact hcramped fun f hf => by
        by_contra hlong
        exact hno ⟨f, hf, by omega⟩
    obtain ⟨before, after, rfl⟩ := List.append_of_mem hf
    have hterm := hframed.terminated f hf
    have hpos := hterm.length_pos
    have hbytes : bytes = before.flatten ++ f.take (f.length - 1) ++
        (f.drop (f.length - 1) ++ (after.flatten ++ tail)) := by
      rw [hframed.bytes_eq, List.append_assoc before.flatten, ← List.append_assoc (f.take _),
        List.take_append_drop]
      simp
    have hwhole : Splitting bytes [bytes] := by
      refine ⟨by simp, fun c hc => ?_⟩
      rw [List.mem_singleton.1 hc, hbytes]
      intro hnil
      have := congrArg List.length hnil
      simp only [List.length_append, List.length_take, List.length_nil] at this
      omega
    have hcut : Splitting bytes [before.flatten ++ f.take (f.length - 1),
        f.drop (f.length - 1) ++ (after.flatten ++ tail)] := by
      refine ⟨by rw [hbytes]; simp, fun c hc => ?_⟩
      rintro rfl
      rcases List.mem_cons.1 hc with hc | hc
      · have := congrArg List.length hc
        simp only [List.length_append, List.length_take, List.length_nil] at this
        omega
      · have := congrArg List.length (List.mem_singleton.1 hc)
        simp only [List.length_append, List.length_drop, List.length_nil] at this
        omega
    have hbefore : ∀ g ∈ before, Terminated g := fun g hg =>
      hframed.terminated g (List.mem_append_left _ hg)
    have hnone := decode_cramped hbefore hterm hlong
      (f.drop (f.length - 1) ++ (after.flatten ++ tail))
    rw [← hind _ _ hwhole hcut] at hnone
    exact (decode_singleton hframed).2 hgood hnone
  · intro hcond cs cs' hcs hcs'
    obtain ⟨frames, tail, hframed⟩ := exists_framed bytes
    have haccepted : ∀ ds, Splitting bytes ds → Roomy frames → ¬ Refused frames tail →
        ∃ events, decode ds = some events := by
      intro ds hds hroomy hgood
      have hframed' : Framed ((Sse.mk []).buffer ++ ds.flatten) frames tail := by
        rw [hds.flatten]
        exact hframed
      obtain ⟨r, hr⟩ := feed_roomy hframed' hgood hroomy
      exact ⟨r.1, by rw [decode, hr]⟩
    have hrefused : ∀ ds, Splitting bytes ds → Refused frames tail → decode ds = none := by
      intro ds hds href
      cases hd : decode ds with
      | none => rfl
      | some events =>
        obtain ⟨t, ht⟩ := decode_eq_some hd
        rw [hds.flatten] at ht
        rcases drain_framed hframed with ⟨-, e, herr⟩ | ⟨hgood, -⟩
        · rw [herr] at ht
          cases ht
        · exact absurd href hgood
    by_cases href : Refused frames tail
    · rw [hrefused cs hcs href, hrefused cs' hcs' href]
    · have hroomy := (hcond frames tail hframed).resolve_left href
      obtain ⟨events, he⟩ := haccepted cs hcs hroomy href
      obtain ⟨events', he'⟩ := haccepted cs' hcs' hroomy href
      rw [he, he', decode_agree (by rw [hcs.flatten, hcs'.flatten]) he he']

/-! ### An event that leaves no room -/

/-- Text without a line feed, with two of them behind it, is an event. -/
theorem terminated_lf {c : List UInt8} (hc : (10 : UInt8) ∉ c) : Terminated (c ++ [10, 10]) := by
  have hbehind : ∀ i, (c ++ [10, 10])[i]? = some 10 → c.length ≤ i := by
    intro i hi
    by_contra hlt
    rw [List.getElem?_append_left (by omega)] at hi
    exact hc (List.mem_of_getElem? hi)
  refine ⟨.inl ⟨c, rfl⟩, fun p hp hends => hp.eq_of_length_le ?_⟩
  obtain ⟨q, hq⟩ := hp
  simp only [List.length_append, List.length_cons, List.length_nil]
  rcases hends with hs | hs
  · obtain ⟨i, hi, hat⟩ := suffix_lf.1 hs
    have := hbehind i (by rw [← hq, List.getElem?_append_left (by omega)]; exact hat.1)
    omega
  · obtain ⟨i, hi, hat⟩ := suffix_crlf.1 hs
    have := hbehind (i + 1) (by rw [← hq, List.getElem?_append_left (by omega)]; exact hat.2.1)
    omega

/-- An event with a data line of `n` letters. -/
def letters (n : Nat) : List UInt8 :=
  utf8 (['d', 'a', 't', 'a', ':'] ++ List.replicate n 'a' ++ ['\n', '\n'])

/-- The bytes of an event of letters. -/
theorem letters_eq (n : Nat) :
    letters n = [100, 97, 116, 97, 58] ++ List.replicate n 97 ++ [10, 10] := by
  have hhead : ['d', 'a', 't', 'a', ':'].flatMap String.utf8EncodeChar =
      [100, 97, 116, 97, 58] := by decide
  have ha : String.utf8EncodeChar 'a' = [97] := by decide
  have hend : ['\n', '\n'].flatMap String.utf8EncodeChar = [10, 10] := by decide
  rw [letters, utf8, List.flatMap_append, List.flatMap_append, hhead, List.flatMap_replicate, ha,
    List.flatten_replicate_singleton, hend]

/-- The length of an event of letters. -/
theorem letters_length (n : Nat) : (letters n).length = n + 7 := by
  rw [letters_eq]
  simp only [List.length_append, List.length_replicate, List.length_cons, List.length_nil]
  omega

/-- An event of letters has one separator, at its end. -/
theorem letters_terminated (n : Nat) : Terminated (letters n) := by
  rw [letters_eq]
  refine terminated_lf ?_
  simp

/-- An event of letters is one frame. -/
theorem letters_framed (n : Nat) : Framed (letters n) [letters n] [] := by
  refine ⟨by simp, fun f hf => ?_, unterminated_nil⟩
  rw [List.mem_singleton.1 hf]
  exact letters_terminated n

/-- The event is accepted up to the limit. -/
theorem letters_accepted {n : Nat} (h : n + 5 ≤ eventLimit) : ¬ Refused [letters n] [] := by
  rintro (⟨f, hf, hbad⟩ | hlong)
  · rw [List.mem_singleton.1 hf] at hbad
    rcases hbad with hlong | htext
    · have hle : (content (letters n)).length ≤ n + 5 := by
        unfold content
        split
        · rw [List.length_take, letters_length]
          omega
        · rw [List.length_take, letters_length]
          omega
      omega
    · rw [letters, fromUtf8_utf8] at htext
      cases htext
  · simp at hlong

/-- **An event of exactly the greatest size** is accepted in one chunk, and refused when the last
byte of its separator comes in a chunk of its own. -/
theorem letters_depends : ¬ ChunkIndependent (letters 65531) := by
  intro hind
  have hlen := letters_length 65531
  have hwhole : Splitting (letters 65531) [letters 65531] := by
    refine ⟨by simp, fun c hc => ?_⟩
    rw [List.mem_singleton.1 hc]
    intro hnil
    rw [hnil] at hlen
    cases hlen
  have hcut : Splitting (letters 65531) [(letters 65531).take ((letters 65531).length - 1),
      (letters 65531).drop ((letters 65531).length - 1)] := by
    refine ⟨by simp, fun c hc => ?_⟩
    rintro rfl
    rcases List.mem_cons.1 hc with hc | hc
    · have := congrArg List.length hc
      rw [List.length_take, hlen] at this
      cases this
    · have := congrArg List.length (List.mem_singleton.1 hc)
      rw [List.length_drop, hlen] at this
      cases this
  have hroom : eventLimit < (letters 65531).length - 1 := by
    rw [hlen]
    decide
  have hbefore : ∀ g ∈ ([] : List (List UInt8)), Terminated g := fun g hg => by cases hg
  have hnone := decode_cramped hbefore (letters_terminated 65531) hroom
    ((letters 65531).drop ((letters 65531).length - 1))
  rw [List.flatten_nil, List.nil_append, ← hind _ _ hwhole hcut] at hnone
  exact (decode_singleton (letters_framed 65531)).2 (letters_accepted (by decide)) hnone

end NetworkAi
