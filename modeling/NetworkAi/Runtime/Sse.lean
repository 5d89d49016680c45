import NetworkAi.Lib.Checked
import Mathlib.Data.List.Basic
import Mathlib.Data.Nat.Find

set_option relaxedAutoImplicit false
set_option autoImplicit false

/-!
# The decoder of server-sent events

`Sse::push` of the runtime: bytes are buffered until a separator ends an event, whose data lines
are then decoded. A stream is the sequence of its events, each with the separator that ends it,
and the bytes that no separator has ended.

## Main definitions

* `NetworkAi.Sse`, `NetworkAi.Sse.push`, `NetworkAi.Sse.feed` — the decoder and a run of it.
* `NetworkAi.Framed` — a stream as its events and what follows the last of them.

## Main results

* `NetworkAi.Terminated.next` — the first separator of a stream ends its first event.
* `NetworkAi.exists_framed` — every stream has its events.
-/

namespace NetworkAi

/-! ### The decoder -/

/-- The limit of an event, in bytes. -/
def eventLimit : Nat := 65536

/-- `windows(separator.len()).position(|w| w == separator)`. -/
def windowPosition (separator bytes : List UInt8) : Option Nat :=
  (List.range bytes.length).find? fun i => (bytes.drop i).take separator.length = separator

/-- The separator that starts first, with its length. -/
def nextSeparator (buffer : List UInt8) : Option (Nat × Nat) :=
  let lf := (windowPosition [10, 10] buffer).map fun i => (i, 2)
  let crlf := (windowPosition [13, 10, 13, 10] buffer).map fun i => (i, 4)
  match lf, crlf with
  | some a, some b => some (if a.1 < b.1 then a else b)
  | a, b => a.or b

/-- `String::from_utf8`. -/
def fromUtf8 (bytes : List UInt8) : Option (List Char) :=
  (ByteArray.utf8Decode? ⟨bytes.toArray⟩).map (·.toList)

/-- The bytes of a text. -/
def utf8 (text : List Char) : List UInt8 := text.flatMap String.utf8EncodeChar

/-- The characters that `str::trim_start` removes: those of the property `White_Space`. -/
def isWhiteSpace (c : Char) : Bool :=
  (9 ≤ c.toNat ∧ c.toNat ≤ 13) ∨ (0x2000 ≤ c.toNat ∧ c.toNat ≤ 0x200A) ∨
    c.toNat ∈ [0x20, 0x85, 0xA0, 0x1680, 0x2028, 0x2029, 0x202F, 0x205F, 0x3000]

/-- A line without the carriage return before its line feed. -/
def stripCr (line : List Char) : List Char :=
  if line.getLast? = some '\r' then line.dropLast else line

/-- `str::lines`, from the characters of the line read so far. -/
def linesFrom (line : List Char) : List Char → List (List Char)
  | [] => if line = [] then [] else [line]
  | c :: cs => if c = '\n' then stripCr line :: linesFrom [] cs else linesFrom (line ++ [c]) cs

/-- The data of an event: what follows `data:` in its lines, joined by line feeds. -/
def eventData (event : List Char) : List Char :=
  ['\n'].intercalate <| (linesFrom [] event).filterMap fun line =>
    (line.dropPrefix? ['d', 'a', 't', 'a', ':']).map (·.dropWhile isWhiteSpace)

/-- What an event adds to the result: its data, unless it is empty. -/
def eventResult (event : List Char) : List (List Char) :=
  if eventData event = [] then [] else [eventData event]

/-- The errors of the decoder. -/
inductive SseError where
  | limit
  | utf8
  deriving DecidableEq, Repr

/-- A text is read back from its bytes. -/
theorem fromUtf8_utf8 (text : List Char) : fromUtf8 (utf8 text) = some text := by
  have hbytes : (⟨(utf8 text).toArray⟩ : ByteArray) = text.utf8Encode := by
    apply ByteArray.ext
    rw [List.utf8Encode, List.data_toByteArray, utf8]
  rw [fromUtf8, hbytes, List.utf8Decode?_utf8Encode]
  rfl

/-- A separator is found inside the bytes. -/
theorem windowPosition_lt {separator bytes : List UInt8} {i : Nat}
    (h : windowPosition separator bytes = some i) : i < bytes.length := by
  rw [windowPosition, List.find?_range_eq_some] at h
  exact List.mem_range.1 h.2.1

/-- The next separator is the first of one of the two kinds. -/
theorem nextSeparator_cases {buffer : List UInt8} {i n : Nat}
    (h : nextSeparator buffer = some (i, n)) :
    (n = 2 ∧ windowPosition [10, 10] buffer = some i) ∨
      (n = 4 ∧ windowPosition [13, 10, 13, 10] buffer = some i) := by
  unfold nextSeparator at h
  cases hlf : windowPosition [10, 10] buffer with
  | none =>
    cases hcrlf : windowPosition [13, 10, 13, 10] buffer with
    | none => simp [hlf, hcrlf] at h
    | some b =>
      have hb : b = i ∧ 4 = n := by simpa [hlf, hcrlf] using h
      exact .inr ⟨hb.2.symm, by rw [hb.1]⟩
  | some a =>
    cases hcrlf : windowPosition [13, 10, 13, 10] buffer with
    | none =>
      have ha : a = i ∧ 2 = n := by simpa [hlf, hcrlf] using h
      exact .inl ⟨ha.2.symm, by rw [ha.1]⟩
    | some b =>
      simp only [hlf, hcrlf, Option.map_some, Option.some.injEq] at h
      split at h
      · obtain ⟨rfl, rfl⟩ := Prod.mk.inj h
        exact .inl ⟨rfl, rfl⟩
      · obtain ⟨rfl, rfl⟩ := Prod.mk.inj h
        exact .inr ⟨rfl, rfl⟩

/-- The next separator is inside the buffer, and not empty. -/
theorem nextSeparator_lt {buffer : List UInt8} {i n : Nat}
    (h : nextSeparator buffer = some (i, n)) : i < buffer.length ∧ 0 < n := by
  rcases nextSeparator_cases h with ⟨rfl, hi⟩ | ⟨rfl, hi⟩
  · exact ⟨windowPosition_lt hi, by omega⟩
  · exact ⟨windowPosition_lt hi, by omega⟩

/-- The loop of `Sse::push` over the buffer, with the check of what remains. -/
def drain (buffer : List UInt8) : Except SseError (List (List Char) × List UInt8) :=
  match _hnext : nextSeparator buffer with
  | none => if buffer.length ≤ eventLimit then .ok ([], buffer) else .error .limit
  | some (i, n) =>
    if eventLimit < i then .error .limit
    else
      match fromUtf8 (buffer.take (i + n)) with
      | none => .error .utf8
      | some event => do
        let (events, rest) ← drain (buffer.drop (i + n))
        return (eventResult event ++ events, rest)
termination_by buffer.length
decreasing_by
  have hlt := nextSeparator_lt _hnext
  simp only [List.length_drop]
  omega

/-- The decoder: the bytes that no separator has ended yet. -/
structure Sse where
  buffer : List UInt8
  deriving DecidableEq, Repr

/-- `Sse::push`. -/
def Sse.push (sse : Sse) (bytes : List UInt8) : Except SseError (List (List Char) × Sse) := do
  let (events, buffer) ← drain (sse.buffer ++ bytes)
  return (events, ⟨buffer⟩)

/-- Chunks pushed one after another, up to the first error. -/
def Sse.feed (sse : Sse) : List (List UInt8) → Except SseError (List (List Char) × Sse)
  | [] => .ok ([], sse)
  | chunk :: chunks => do
    let (events, sse) ← sse.push chunk
    let (more, sse) ← sse.feed chunks
    return (events ++ more, sse)

/-! ### Streams as events -/

/-- The bytes end with a separator. -/
def Ends (bytes : List UInt8) : Prop := [10, 10] <:+ bytes ∨ [13, 10, 13, 10] <:+ bytes

/-- An event with its separator: no shorter part of it ends with a separator. -/
structure Terminated (frame : List UInt8) : Prop where
  ends : Ends frame
  first : ∀ p, p <+: frame → Ends p → p = frame

/-- Bytes in which no separator ends. -/
def Unterminated (bytes : List UInt8) : Prop := ∀ p, p <+: bytes → ¬ Ends p

/-- A stream as its events, each with its separator, and the bytes after the last of them. -/
structure Framed (bytes : List UInt8) (frames : List (List UInt8)) (tail : List UInt8) : Prop where
  bytes_eq : bytes = frames.flatten ++ tail
  terminated : ∀ f ∈ frames, Terminated f
  unterminated : Unterminated tail

/-- The bytes of an event before its separator. -/
def content (frame : List UInt8) : List UInt8 :=
  if [13, 10, 13, 10] <:+ frame then frame.take (frame.length - 4)
  else frame.take (frame.length - 2)

/-! ### Where separators stand -/

/-- Two line feeds stand at a position. -/
def LfAt (bytes : List UInt8) (i : Nat) : Prop := bytes[i]? = some 10 ∧ bytes[i + 1]? = some 10

/-- Two pairs of carriage return and line feed stand at a position. -/
def CrlfAt (bytes : List UInt8) (i : Nat) : Prop :=
  bytes[i]? = some 13 ∧ bytes[i + 1]? = some 10 ∧ bytes[i + 2]? = some 13 ∧
    bytes[i + 3]? = some 10

/-- Two line feeds take two bytes. -/
theorem LfAt.lt {bytes : List UInt8} {i : Nat} (h : LfAt bytes i) : i + 2 ≤ bytes.length := by
  obtain ⟨hlt, -⟩ := List.getElem?_eq_some_iff.1 h.2
  omega

/-- Two carriage returns with line feeds take four bytes. -/
theorem CrlfAt.lt {bytes : List UInt8} {i : Nat} (h : CrlfAt bytes i) :
    i + 4 ≤ bytes.length := by
  obtain ⟨hlt, -⟩ := List.getElem?_eq_some_iff.1 h.2.2.2
  omega

/-- The bytes at a place are two line feeds. -/
theorem take_eq_lf {bytes : List UInt8} {i : Nat} :
    (bytes.drop i).take 2 = [10, 10] ↔ LfAt bytes i := by
  have h0 : bytes[i]? = (bytes.drop i)[0]? := by rw [List.getElem?_drop, Nat.add_zero]
  have h1 : bytes[i + 1]? = (bytes.drop i)[1]? := by rw [List.getElem?_drop]
  rw [LfAt, h0, h1]
  rcases bytes.drop i with _ | ⟨a, _ | ⟨b, rest⟩⟩ <;> simp

/-- The bytes at a place are two carriage returns with line feeds. -/
theorem take_eq_crlf {bytes : List UInt8} {i : Nat} :
    (bytes.drop i).take 4 = [13, 10, 13, 10] ↔ CrlfAt bytes i := by
  have h0 : bytes[i]? = (bytes.drop i)[0]? := by rw [List.getElem?_drop, Nat.add_zero]
  have h1 : bytes[i + 1]? = (bytes.drop i)[1]? := by rw [List.getElem?_drop]
  have h2 : bytes[i + 2]? = (bytes.drop i)[2]? := by rw [List.getElem?_drop]
  have h3 : bytes[i + 3]? = (bytes.drop i)[3]? := by rw [List.getElem?_drop]
  rw [CrlfAt, h0, h1, h2, h3]
  rcases bytes.drop i with _ | ⟨a, _ | ⟨b, _ | ⟨c, _ | ⟨d, rest⟩⟩⟩⟩ <;> simp

/-- The first position of a separator, among those where it stands. -/
theorem windowPosition_eq_some {separator bytes : List UInt8} {At : Nat → Prop} {i : Nat}
    (hat : ∀ j, (bytes.drop j).take separator.length = separator ↔ At j)
    (hlt : ∀ j, At j → j < bytes.length) :
    windowPosition separator bytes = some i ↔ At i ∧ ∀ j < i, ¬ At j := by
  rw [windowPosition, List.find?_range_eq_some]
  simp only [hat, decide_eq_true_eq, List.mem_range, Bool.not_eq_true', decide_eq_false_iff_not]
  constructor
  · rintro ⟨hi, -, hfirst⟩
    exact ⟨hi, hfirst⟩
  · rintro ⟨hi, hfirst⟩
    exact ⟨hi, hlt i hi, hfirst⟩

/-- A separator is nowhere in the bytes exactly if no place has it. -/
theorem windowPosition_eq_none {separator bytes : List UInt8} {At : Nat → Prop}
    (hat : ∀ j, (bytes.drop j).take separator.length = separator ↔ At j)
    (hlt : ∀ j, At j → j < bytes.length) :
    windowPosition separator bytes = none ↔ ∀ j, ¬ At j := by
  rw [windowPosition, List.find?_range_eq_none]
  simp only [hat, Bool.not_eq_true', decide_eq_false_iff_not]
  constructor
  · intro h j hj
    exact h j (hlt j hj) hj
  · intro h j _
    exact h j

/-- The first two line feeds are found. -/
theorem lf_eq_some {bytes : List UInt8} {i : Nat} :
    windowPosition [10, 10] bytes = some i ↔ LfAt bytes i ∧ ∀ j < i, ¬ LfAt bytes j :=
  windowPosition_eq_some (fun _ => take_eq_lf) fun _ h => by have := h.lt; omega

/-- There are no two line feeds. -/
theorem lf_eq_none {bytes : List UInt8} :
    windowPosition [10, 10] bytes = none ↔ ∀ j, ¬ LfAt bytes j :=
  windowPosition_eq_none (fun _ => take_eq_lf) fun _ h => by have := h.lt; omega

/-- The first two carriage returns with line feeds are found. -/
theorem crlf_eq_some {bytes : List UInt8} {i : Nat} :
    windowPosition [13, 10, 13, 10] bytes = some i ↔
      CrlfAt bytes i ∧ ∀ j < i, ¬ CrlfAt bytes j :=
  windowPosition_eq_some (fun _ => take_eq_crlf) fun _ h => by have := h.lt; omega

/-- There are no two carriage returns with line feeds. -/
theorem crlf_eq_none {bytes : List UInt8} :
    windowPosition [13, 10, 13, 10] bytes = none ↔ ∀ j, ¬ CrlfAt bytes j :=
  windowPosition_eq_none (fun _ => take_eq_crlf) fun _ h => by have := h.lt; omega

/-- The bytes end with a separator exactly when one stands where they end. -/
theorem suffix_lf {bytes : List UInt8} :
    [10, 10] <:+ bytes ↔ ∃ i, i + 2 = bytes.length ∧ LfAt bytes i := by
  rw [List.suffix_iff_eq_drop]
  constructor
  · intro h
    have hlen : 2 ≤ bytes.length := by
      have := congrArg List.length h
      simp only [List.length_cons, List.length_nil, List.length_drop] at this
      omega
    refine ⟨bytes.length - 2, by omega, take_eq_lf.1 ?_⟩
    rw [← show [10, 10] = bytes.drop (bytes.length - 2) from h]
    rfl
  · rintro ⟨i, hi, hat⟩
    have htake := take_eq_lf.2 hat
    rw [List.take_of_length_le (by simp only [List.length_drop]; omega)] at htake
    rw [← htake]
    congr 1
    simp only [List.length_drop]
    omega

/-- The bytes end with two carriage returns with line feeds. -/
theorem suffix_crlf {bytes : List UInt8} :
    [13, 10, 13, 10] <:+ bytes ↔ ∃ i, i + 4 = bytes.length ∧ CrlfAt bytes i := by
  rw [List.suffix_iff_eq_drop]
  constructor
  · intro h
    have hlen : 4 ≤ bytes.length := by
      have := congrArg List.length h
      simp only [List.length_cons, List.length_nil, List.length_drop] at this
      omega
    refine ⟨bytes.length - 4, by omega, take_eq_crlf.1 ?_⟩
    rw [← show [13, 10, 13, 10] = bytes.drop (bytes.length - 4) from h]
    rfl
  · rintro ⟨i, hi, hat⟩
    have htake := take_eq_crlf.2 hat
    rw [List.take_of_length_le (by simp only [List.length_drop]; omega)] at htake
    rw [← htake]
    congr 1
    simp only [List.length_drop]
    omega

/-- What follows does not matter to two line feeds further in front. -/
theorem lfAt_append {a b : List UInt8} {i : Nat} (h : i + 2 ≤ a.length) :
    LfAt (a ++ b) i ↔ LfAt a i := by
  rw [LfAt, LfAt, List.getElem?_append_left (by omega), List.getElem?_append_left (by omega)]

/-- What follows does not matter to carriage returns with line feeds further in front. -/
theorem crlfAt_append {a b : List UInt8} {i : Nat} (h : i + 4 ≤ a.length) :
    CrlfAt (a ++ b) i ↔ CrlfAt a i := by
  rw [CrlfAt, CrlfAt, List.getElem?_append_left (by omega), List.getElem?_append_left (by omega),
    List.getElem?_append_left (by omega), List.getElem?_append_left (by omega)]

/-- A prefix that stops behind a separator ends with it. -/
theorem LfAt.ends {bytes : List UInt8} {i : Nat} (h : LfAt bytes i) : Ends (bytes.take (i + 2)) := by
  have hlen : (bytes.take (i + 2)).length = i + 2 := List.length_take_of_le h.lt
  refine .inl (suffix_lf.2 ⟨i, hlen.symm, ?_⟩)
  rw [← List.take_append_drop (i + 2) bytes, lfAt_append (by omega)] at h
  exact h

/-- The bytes up to two carriage returns with line feeds end with a separator. -/
theorem CrlfAt.ends {bytes : List UInt8} {i : Nat} (h : CrlfAt bytes i) :
    Ends (bytes.take (i + 4)) := by
  have hlen : (bytes.take (i + 4)).length = i + 4 := List.length_take_of_le h.lt
  refine .inr (suffix_crlf.2 ⟨i, hlen.symm, ?_⟩)
  rw [← List.take_append_drop (i + 4) bytes, crlfAt_append (by omega)] at h
  exact h

/-- In an event a separator stands only at its end. -/
theorem Terminated.lf {frame : List UInt8} (h : Terminated frame) {i : Nat} (hi : LfAt frame i) :
    i + 2 = frame.length := by
  have heq := h.first _ (List.take_prefix _ _) hi.ends
  rw [← heq, List.length_take_of_le hi.lt]

/-- A frame with one separator has it at its end. -/
theorem Terminated.crlf {frame : List UInt8} (h : Terminated frame) {i : Nat}
    (hi : CrlfAt frame i) : i + 4 = frame.length := by
  have heq := h.first _ (List.take_prefix _ _) hi.ends
  rw [← heq, List.length_take_of_le hi.lt]

/-- The first separator of a stream is the one that ends its first event.

**Proof sketch.** By the separator that the event ends with. A separator that starts before it would
lie within the event, or overlap the one at its end, whose bytes are others at the place. -/
theorem Terminated.next {frame : List UInt8} (h : Terminated frame) (rest : List UInt8) :
    ∃ i n, nextSeparator (frame ++ rest) = some (i, n) ∧ i + n = frame.length ∧
      (content frame).length = i := by
  by_cases hcrlf : [13, 10, 13, 10] <:+ frame
  · obtain ⟨i, hi, hat⟩ := suffix_crlf.1 hcrlf
    -- two line feeds can stand only behind the start of this separator
    have hlf : ∀ j, j ≤ i → ¬ LfAt (frame ++ rest) j := by
      intro j hj hlf
      rw [lfAt_append (by omega)] at hlf
      have := h.lf hlf
      omega
    have hfirst : windowPosition [13, 10, 13, 10] (frame ++ rest) = some i := by
      refine crlf_eq_some.2 ⟨(crlfAt_append (by omega)).2 hat, fun j hj hcj => ?_⟩
      rw [crlfAt_append (by omega)] at hcj
      have := h.crlf hcj
      omega
    refine ⟨i, 4, ?_, hi, ?_⟩
    · unfold nextSeparator
      rw [hfirst]
      cases hwin : windowPosition [10, 10] (frame ++ rest) with
      | none => rfl
      | some a =>
        have hlt : ¬ a < i := by
          intro hlt
          exact hlf a (by omega) (lf_eq_some.1 hwin).1
        simp [hlt]
    · rw [content, if_pos hcrlf, List.length_take_of_le (by omega)]
      omega
  · have hends : [10, 10] <:+ frame := h.ends.resolve_right hcrlf
    obtain ⟨i, hi, hat⟩ := suffix_lf.1 hends
    -- a pair of pairs would end in the event, or disagree with its two line feeds
    have hpairs : ∀ j, j ≤ i → ¬ CrlfAt (frame ++ rest) j := by
      intro j hj hcj
      have hat' := (lfAt_append (b := rest) (show i + 2 ≤ frame.length by omega)).2 hat
      have hsplit : j + 4 ≤ frame.length ∨ j + 1 = i ∨ j = i := by omega
      rcases hsplit with hle | rfl | rfl
      · rw [crlfAt_append hle] at hcj
        have := h.crlf hcj
        exact hcrlf (suffix_crlf.2 ⟨j, this, hcj⟩)
      · have h1 := hcj.2.2.1
        rw [show j + 2 = j + 1 + 1 by omega, hat'.2] at h1
        exact absurd h1 (by decide)
      · have h1 := hcj.1
        rw [hat'.1] at h1
        exact absurd h1 (by decide)
    have hfirst : windowPosition [10, 10] (frame ++ rest) = some i := by
      refine lf_eq_some.2 ⟨(lfAt_append (by omega)).2 hat, fun j hj hlj => ?_⟩
      rw [lfAt_append (by omega)] at hlj
      have := h.lf hlj
      omega
    refine ⟨i, 2, ?_, hi, ?_⟩
    · unfold nextSeparator
      rw [hfirst]
      cases hwin : windowPosition [13, 10, 13, 10] (frame ++ rest) with
      | none => rfl
      | some b =>
        have hlt : i < b := by
          by_contra hle
          exact hpairs b (by omega) (crlf_eq_some.1 hwin).1
        simp [hlt]
    · rw [content, if_neg hcrlf, List.length_take_of_le (by omega)]
      omega

/-- Without a separator there is none to find. -/
theorem Unterminated.next {bytes : List UInt8} (h : Unterminated bytes) :
    nextSeparator bytes = none := by
  have hlf : windowPosition [10, 10] bytes = none :=
    lf_eq_none.2 fun j hj => h _ (List.take_prefix _ _) hj.ends
  have hcrlf : windowPosition [13, 10, 13, 10] bytes = none :=
    crlf_eq_none.2 fun j hj => h _ (List.take_prefix _ _) hj.ends
  simp [nextSeparator, hlf, hcrlf]

/-- A part of bytes without a separator has none. -/
theorem Unterminated.of_prefix {a b : List UInt8} (h : Unterminated b) (hab : a <+: b) :
    Unterminated a := fun p hp => h p (hp.trans hab)

/-- An event without its last byte has no separator. -/
theorem Terminated.of_prefix {frame p : List UInt8} (h : Terminated frame) (hp : p <+: frame)
    (hne : p ≠ frame) : Unterminated p := by
  intro q hq hends
  have heq := h.first q (hq.trans hp) hends
  rw [heq] at hq
  exact hne (hp.eq_of_length_le hq.length_le)

/-- A frame has its separator, which takes two bytes or more. -/
theorem Terminated.length_pos {frame : List UInt8} (h : Terminated frame) : 2 ≤ frame.length := by
  rcases h.ends with hs | hs
  · exact hs.length_le
  · have := hs.length_le
    simp only [List.length_cons, List.length_nil] at this
    omega

/-- A stream begins with an event, or no separator ends in it. -/
theorem terminated_or_unterminated (bytes : List UInt8) :
    Unterminated bytes ∨ ∃ f rest, Terminated f ∧ bytes = f ++ rest := by
  classical
  by_cases h : ∃ k, k ≤ bytes.length ∧ Ends (bytes.take k)
  · refine .inr ?_
    obtain ⟨hk, hends⟩ := Nat.find_spec h
    have hmin : ∀ k, k < Nat.find h → ¬ Ends (bytes.take k) := fun k hlt he =>
      Nat.find_min h hlt ⟨by omega, he⟩
    refine ⟨bytes.take (Nat.find h), bytes.drop (Nat.find h), ⟨hends, fun p hp he => ?_⟩,
      (List.take_append_drop _ _).symm⟩
    have hlen : p.length ≤ Nat.find h := Nat.le_trans hp.length_le (List.length_take_le _ _)
    have hpre : p = bytes.take p.length := List.prefix_iff_eq_take.1 (hp.trans (List.take_prefix _ _))
    rcases Nat.lt_or_eq_of_le hlen with hlt | heq
    · rw [hpre] at he
      exact absurd he (hmin _ hlt)
    · rw [hpre, heq]
  · refine .inl fun p hp he => h ⟨p.length, hp.length_le, ?_⟩
    rwa [← List.prefix_iff_eq_take.1 hp]

/-- Every stream has its events. -/
theorem exists_framed (bytes : List UInt8) : ∃ frames tail, Framed bytes frames tail := by
  induction hn : bytes.length using Nat.strongRecOn generalizing bytes with
  | ind n ih =>
    rcases terminated_or_unterminated bytes with hu | ⟨f, rest, hf, rfl⟩
    · exact ⟨[], bytes, rfl, by simp, hu⟩
    · have hlt : rest.length < n := by
        have := hf.length_pos
        rw [List.length_append] at hn
        omega
      obtain ⟨frames, tail, hrest⟩ := ih _ hlt rest rfl
      refine ⟨f :: frames, tail, ?_, ?_, hrest.unterminated⟩
      · rw [List.flatten_cons, List.append_assoc, ← hrest.bytes_eq]
      · intro g hg
        rcases List.mem_cons.1 hg with rfl | hg
        · exact hf
        · exact hrest.terminated g hg

end NetworkAi
