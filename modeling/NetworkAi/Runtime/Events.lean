import NetworkAi.Runtime.SseChunks
import NetworkAi.Document.Numbers

set_option relaxedAutoImplicit false
set_option autoImplicit false

/-!
# Events and their relay

The runtime writes a JSON value as an event, `event`, and the node and the gateway relay a stream
of events: they decode it, parse each value and write it again.  However the stream is cut, the
decoder gives back the texts of the values, one for each event.

## Main definitions

* `NetworkAi.Value`, `NetworkAi.Value.text` — a value and its compact text.
* `NetworkAi.event` — the event of a value.
* `NetworkAi.relay` — the loop that relays a stream.

## Main results

* `NetworkAi.eventData_event` — the data of an event is the text of its value.
* `NetworkAi.drain_events` — the events of a stream are decoded in their order.
* `NetworkAi.event_round_trip` — so they are from any chunks, and a relay writes them again.

## Implementation notes

A number is the text that is printed for it, of which only the characters matter here.
-/

namespace NetworkAi

/-! ### Values -/

/-- A printed number. -/
structure NumberText where
  text : List Char
  nonempty : text ≠ []
  chars : ∀ c ∈ text, NumberChar c

/-- `serde_json::Value`; the members of an object in the order in which they are printed. -/
inductive Value where
  | null
  | bool (b : Bool)
  | number (n : NumberText)
  | string (s : String)
  | array (items : List Value)
  | object (members : List (String × Value))

mutual

/-- The compact text of a value; strings are escaped as `JSON.stringify` escapes them. -/
def Value.text : Value → List Char
  | .null => ['n', 'u', 'l', 'l']
  | .bool true => ['t', 'r', 'u', 'e']
  | .bool false => ['f', 'a', 'l', 's', 'e']
  | .number n => n.text
  | .string s => quoteString s
  | .array items => '[' :: (commas (Value.itemTexts items) ++ [']'])
  | .object members => '{' :: (commas (Value.memberTexts members) ++ ['}'])

/-- The texts of the items of an array. -/
def Value.itemTexts : List Value → List (List Char)
  | [] => []
  | v :: vs => v.text :: Value.itemTexts vs

/-- The texts of the members of an object. -/
def Value.memberTexts : List (String × Value) → List (List Char)
  | [] => []
  | (k, v) :: ms => (quoteString k ++ ':' :: v.text) :: Value.memberTexts ms

end

/-- `event`. -/
def event (value : Value) : List UInt8 :=
  utf8 (['d', 'a', 't', 'a', ':', ' '] ++ value.text ++ ['\n', '\n'])

/-! ### The characters of a text -/

/-- A character that is no control character. -/
def Printed (c : Char) : Prop := 32 ≤ c.toNat

instance Printed.decidable (c : Char) : Decidable (Printed c) :=
  inferInstanceAs (Decidable (_ ≤ _))

/-- A literal is checked character by character. -/
theorem printed_of_all {t : List Char} (h : (t.all fun c => decide (Printed c)) = true) :
    ∀ c ∈ t, Printed c := by
  simpa using h

/-- A hexadecimal digit is a printed character. -/
theorem printed_digitChar {n : Nat} (h : n < 16) : Printed (Nat.digitChar n) := by
  have hall : ∀ n : Fin 16, 32 ≤ (Nat.digitChar n.val).toNat := by decide
  exact hall ⟨n, h⟩

/-- Strings are escaped so that no control character is left. -/
theorem printed_escape {c d : Char} (h : d ∈ escape c) : Printed d := by
  have hpair : ∀ {a b : Char}, Printed a → Printed b → d ∈ [a, b] → Printed d := by
    intro a b ha hb hd
    rcases List.mem_pair.mp hd with rfl | rfl
    · exact ha
    · exact hb
  have hslash : Printed '\\' := by decide
  unfold escape at h
  split at h
  · exact hpair hslash (by decide) h
  split at h
  · exact hpair hslash (by decide) h
  split at h
  · exact hpair hslash (by decide) h
  split at h
  · exact hpair hslash (by decide) h
  split at h
  · exact hpair hslash (by decide) h
  split at h
  · exact hpair hslash (by decide) h
  split at h
  · exact hpair hslash (by decide) h
  split at h
  · rename_i hlow
    simp only [List.mem_cons, List.not_mem_nil, or_false] at h
    rcases h with rfl | rfl | rfl | rfl | rfl | rfl
    · exact hslash
    · decide
    · decide
    · decide
    · exact printed_digitChar (by omega)
    · exact printed_digitChar (by omega)
  · rename_i hlow
    rw [List.mem_singleton.mp h]
    exact Nat.le_of_not_lt hlow

/-- A quoted text has printed characters only. -/
theorem printed_quoteString {s : String} {c : Char} (h : c ∈ quoteString s) : Printed c := by
  simp only [quoteString, List.mem_cons, List.mem_append, List.mem_flatMap, List.not_mem_nil,
    or_false] at h
  rcases h with rfl | ⟨d, -, hd⟩ | rfl
  · decide
  · exact printed_escape hd
  · decide

/-- A number's text has printed characters only. -/
theorem printed_number {n : NumberText} {c : Char} (h : c ∈ n.text) : Printed c := by
  rcases n.chars c h with hdigit | rfl | rfl | rfl | rfl
  · simp only [Char.isDigit, Bool.and_eq_true, decide_eq_true_eq] at hdigit
    have hlow : '0'.toNat ≤ c.toNat := hdigit.1
    exact Nat.le_trans (by decide) hlow
  · decide
  · decide
  · decide
  · decide

/-- Commas between printed texts are printed. -/
theorem printed_commas : ∀ {ts : List (List Char)}, (∀ t ∈ ts, ∀ c ∈ t, Printed c) →
    ∀ c ∈ commas ts, Printed c
  | [], _, c, h => by cases h
  | [t], hts, c, h => hts t (by simp) c h
  | t :: u :: ts, hts, c, h => by
    rw [commas, List.mem_append, List.mem_cons] at h
    rcases h with h | rfl | h
    · exact hts t (by simp) c h
    · decide
    · exact printed_commas (fun t ht => hts t (List.mem_cons_of_mem _ ht)) c h

mutual

/-- **A text has no control character.** -/
theorem Value.printed_text : ∀ (v : Value), ∀ c ∈ v.text, Printed c
  | .null => printed_of_all (by decide)
  | .bool true => printed_of_all (by decide)
  | .bool false => printed_of_all (by decide)
  | .number _ => fun _ h => printed_number h
  | .string _ => fun _ h => printed_quoteString h
  | .array items => by
    intro c h
    simp only [Value.text, List.mem_cons, List.mem_append, List.not_mem_nil, or_false] at h
    rcases h with rfl | h | rfl
    · decide
    · exact printed_commas (Value.printed_items items) c h
    · decide
  | .object members => by
    intro c h
    simp only [Value.text, List.mem_cons, List.mem_append, List.not_mem_nil, or_false] at h
    rcases h with rfl | h | rfl
    · decide
    · exact printed_commas (Value.printed_members members) c h
    · decide

/-- The texts of the items of an array have printed characters only. -/
theorem Value.printed_items : ∀ (vs : List Value), ∀ t ∈ Value.itemTexts vs, ∀ c ∈ t, Printed c
  | [] => by simp [Value.itemTexts]
  | v :: vs => by
    intro t ht
    rcases List.mem_cons.mp ht with rfl | ht
    · exact v.printed_text
    · exact Value.printed_items vs t ht

/-- The texts of the members of an object have printed characters only. -/
theorem Value.printed_members : ∀ (ms : List (String × Value)),
    ∀ t ∈ Value.memberTexts ms, ∀ c ∈ t, Printed c
  | [] => by simp [Value.memberTexts]
  | (k, v) :: ms => by
    intro t ht
    rcases List.mem_cons.mp ht with rfl | ht
    · intro c h
      rcases List.mem_append.mp h with h | h
      · exact printed_quoteString h
      · rcases List.mem_cons.mp h with rfl | h
        · decide
        · exact v.printed_text c h
    · exact Value.printed_members ms t ht

end

/-- The first characters of the tokens of JSON. -/
def Opens (c : Char) : Prop :=
  c ∈ ['n', 't', 'f', '"', '[', '{'] ∨ NumberChar c

/-- A text starts with the first character of a token. -/
theorem Value.text_head (v : Value) : ∃ c t, v.text = c :: t ∧ Opens c := by
  cases v with
  | null => exact ⟨_, _, rfl, .inl (by simp)⟩
  | bool b => cases b <;> exact ⟨_, _, rfl, .inl (by simp)⟩
  | number n =>
    obtain ⟨c, t, ht⟩ := List.exists_cons_of_ne_nil n.nonempty
    exact ⟨c, t, ht, .inr (n.chars c (by rw [ht]; simp))⟩
  | string s => exact ⟨_, _, rfl, .inl (by simp)⟩
  | array items => exact ⟨_, _, rfl, .inl (by simp)⟩
  | object members => exact ⟨_, _, rfl, .inl (by simp)⟩

/-! ### Decoding an event -/

/-- A line feed in the bytes of a character is that character. -/
theorem eq_lf_of_mem {c : Char} (h : (10 : UInt8) ∈ String.utf8EncodeChar c) : c = '\n' := by
  have hbyte : ∀ {n : Nat}, n < 256 → (10 : UInt8) = UInt8.ofNat n → n = 10 := by
    intro n hn heq
    have := congrArg UInt8.toNat heq
    rw [UInt8.toNat_ofNat_of_lt' hn] at this
    exact this.symm
  have hc := c.valid
  unfold String.utf8EncodeChar at h
  simp only at h
  split at h
  · have hval := hbyte (by omega) (List.mem_singleton.mp h)
    exact Char.ext (UInt32.toNat_inj.mp hval)
  split at h
  · rcases List.mem_pair.mp h with heq | heq
    · have := hbyte (by omega) heq
      omega
    · have := hbyte (by omega) heq
      omega
  split at h
  · simp only [List.mem_cons, List.not_mem_nil, or_false] at h
    rcases h with heq | heq | heq
    · have := hbyte (by omega) heq
      omega
    · have := hbyte (by omega) heq
      omega
    · have := hbyte (by omega) heq
      omega
  · simp only [List.mem_cons, List.not_mem_nil, or_false] at h
    rcases h with heq | heq | heq | heq
    · have := hbyte (by omega) heq
      omega
    · have := hbyte (by omega) heq
      omega
    · have := hbyte (by omega) heq
      omega
    · have := hbyte (by omega) heq
      omega

/-- A line of printed characters, up to its line feed. -/
theorem linesFrom_append : ∀ {text : List Char} (line rest : List Char),
    (∀ c ∈ text, Printed c) →
      linesFrom line (text ++ '\n' :: rest) = stripCr (line ++ text) :: linesFrom [] rest
  | [], line, rest, _ => by simp [linesFrom]
  | c :: text, line, rest, h => by
    have hc : c ≠ '\n' := by
      rintro rfl
      exact absurd (h '\n' (by simp)) (by decide)
    rw [List.cons_append, linesFrom, if_neg hc,
      linesFrom_append _ _ fun d hd => h d (List.mem_cons_of_mem c hd)]
    simp

/-- No token starts with white space or with the mark `DONE`. -/
theorem Opens.ne {c : Char} (h : Opens c) : isWhiteSpace c = false ∧ c ≠ 'D' := by
  -- the literals are checked character by character
  have hall : ∀ {cs : List Char}, (cs.all fun c => !isWhiteSpace c && c != 'D') = true →
      ∀ c ∈ cs, isWhiteSpace c = false ∧ c ≠ 'D' := by
    intro cs hcs
    simpa using hcs
  rcases h with hc | hdigit | hc
  · exact hall (by decide) c hc
  · simp only [Char.isDigit, Bool.and_eq_true, decide_eq_true_eq] at hdigit
    have hlow : 48 ≤ c.toNat := hdigit.1
    have hhigh : c.toNat ≤ 57 := hdigit.2
    refine ⟨?_, ?_⟩
    · simp only [isWhiteSpace, List.mem_cons, List.not_mem_nil, or_false, decide_eq_false_iff_not]
      omega
    · rintro rfl
      revert hhigh
      decide
  · have hmem : c ∈ ['-', '+', '.', 'e'] := by simpa using hc
    exact hall (by decide) c hmem

/-- **The data of an event** is the text of its value. -/
theorem eventData_event (v : Value) :
    eventData (['d', 'a', 't', 'a', ':', ' '] ++ v.text ++ ['\n', '\n']) = v.text := by
  obtain ⟨c, t, htext, hopens⟩ := v.text_head
  have hprinted : ∀ d ∈ ['d', 'a', 't', 'a', ':', ' '] ++ v.text, Printed d := by
    intro d hd
    rcases List.mem_append.mp hd with hd | hd
    · exact printed_of_all (by decide) d hd
    · exact v.printed_text d hd
  have hlines : linesFrom [] (['d', 'a', 't', 'a', ':', ' '] ++ v.text ++ ['\n', '\n']) =
      [['d', 'a', 't', 'a', ':', ' '] ++ v.text, []] := by
    rw [linesFrom_append [] ['\n'] hprinted, List.nil_append]
    have hcr : stripCr (['d', 'a', 't', 'a', ':', ' '] ++ v.text) =
        ['d', 'a', 't', 'a', ':', ' '] ++ v.text := by
      refine if_neg fun hlast => ?_
      exact absurd (hprinted '\r' (List.mem_of_getLast? hlast)) (by decide)
    rw [hcr]
    rfl
  have hdata : (['d', 'a', 't', 'a', ':', ' '] ++ v.text).dropPrefix? ['d', 'a', 't', 'a', ':'] =
      some (' ' :: v.text) := rfl
  have htrim : (' ' :: v.text).dropWhile isWhiteSpace = v.text := by
    rw [htext, List.dropWhile_cons_of_pos (by decide), List.dropWhile_cons_of_neg]
    rw [hopens.ne.1]
    exact Bool.false_ne_true
  have hempty : ([] : List Char).dropPrefix? ['d', 'a', 't', 'a', ':'] = none := rfl
  rw [eventData, hlines, List.filterMap_cons, hdata, Option.map_some, htrim, List.filterMap_cons,
    hempty, Option.map_none, List.filterMap_nil]
  simp [List.intercalate]

/-- **One event** adds the text of its value. -/
theorem eventResult_event (v : Value) :
    eventResult (['d', 'a', 't', 'a', ':', ' '] ++ v.text ++ ['\n', '\n']) = [v.text] := by
  obtain ⟨c, t, htext, -⟩ := v.text_head
  rw [eventResult, eventData_event, if_neg]
  rw [htext]
  exact List.cons_ne_nil c t

/-- The bytes of an event before its separator. -/
theorem event_eq (v : Value) :
    event v = utf8 (['d', 'a', 't', 'a', ':', ' '] ++ v.text) ++ [10, 10] := by
  have hend : ['\n', '\n'].flatMap String.utf8EncodeChar = [10, 10] := by decide
  rw [event, utf8, List.flatMap_append, hend, utf8]

/-- An event ends at its separator and nowhere before. -/
theorem terminated_event (v : Value) : Terminated (event v) := by
  rw [event_eq]
  refine terminated_lf fun hmem => ?_
  obtain ⟨c, hc, hbyte⟩ := List.mem_flatMap.mp hmem
  obtain rfl := eq_lf_of_mem hbyte
  rcases List.mem_append.mp hc with hc | hc
  · revert hc
    decide
  · exact absurd (v.printed_text '\n' hc) (by decide)

/-- The bytes of an event are read back as its text. -/
theorem fromUtf8_event (v : Value) :
    fromUtf8 (event v) = some (['d', 'a', 't', 'a', ':', ' '] ++ v.text ++ ['\n', '\n']) :=
  fromUtf8_utf8 _

/-- An event within the limit is not refused. -/
theorem not_refused_event {v : Value} (h : (event v).length ≤ eventLimit) :
    ¬ RefusedEvent (event v) := by
  rintro (hlong | hnone)
  · have hle : (content (event v)).length ≤ (event v).length := by
      unfold content
      split
      · exact List.length_take_le' _ _
      · exact List.length_take_le' _ _
    omega
  · rw [fromUtf8_event] at hnone
    cases hnone

/-! ### A stream of events -/

/-- **The events of a stream** are decoded in their order, and nothing is left. -/
theorem drain_events {values : List Value} (h : ∀ v ∈ values, (event v).length ≤ eventLimit) :
    drain (values.map event).flatten = .ok (values.map Value.text, []) := by
  induction values with
  | nil =>
    rw [List.map_nil, List.flatten_nil, drain_unterminated unterminated_nil]
    rfl
  | cons v vs ih =>
    have hrest := ih fun w hw => h w (List.mem_cons_of_mem v hw)
    rw [List.map_cons, List.flatten_cons]
    rcases drain_terminated (terminated_event v) (vs.map event).flatten with
      ⟨hbad, -⟩ | ⟨-, text, htext, hdrain⟩
    · exact absurd hbad (not_refused_event (h v (List.mem_cons_self ..)))
    · rw [fromUtf8_event, Option.some.injEq] at htext
      rw [hdrain, hrest, ← htext, eventResult_event]
      rfl

/-- A stream of events within the limit, decoded from any chunks. -/
theorem feed_events {values : List Value} (h : ∀ v ∈ values, (event v).length ≤ eventLimit)
    {chunks : List (List UInt8)} (hchunks : chunks.flatten = (values.map event).flatten) :
    (Sse.mk []).feed chunks = .ok (values.map Value.text, Sse.mk []) := by
  have hframed : Framed ((Sse.mk []).buffer ++ chunks.flatten) (values.map event) [] := by
    refine ⟨by rw [hchunks]; simp, fun f hf => ?_, unterminated_nil⟩
    obtain ⟨v, -, rfl⟩ := List.mem_map.mp hf
    exact terminated_event v
  have hgood : ¬ Refused (values.map event) [] := by
    rintro (⟨f, hf, hbad⟩ | hlong)
    · obtain ⟨v, hv, rfl⟩ := List.mem_map.mp hf
      exact not_refused_event (h v hv) hbad
    · exact absurd hlong (by decide)
  have hroomy : Roomy (values.map event) := by
    intro f hf
    obtain ⟨v, hv, rfl⟩ := List.mem_map.mp hf
    have := h v hv
    omega
  obtain ⟨⟨events, sse⟩, hfeed⟩ := feed_roomy hframed hgood hroomy
  -- a run that ends well does what one call does
  have hdrain := feed_ok unterminated_nil (Nat.zero_le _) hfeed
  rw [List.nil_append, hchunks, drain_events h, Except.ok.injEq, Prod.mk.injEq] at hdrain
  cases sse with
  | mk buffer =>
    obtain rfl : [] = buffer := hdrain.2
    rw [hfeed, ← hdrain.1]

/-! ### The relay -/

/-- The errors that end a relay. -/
inductive RelayError where
  | outputLimit
  | decoder (e : SseError)
  | json
  | refused
  deriving DecidableEq, Repr

/-- `4 * 1024 * 1024`. -/
def outputLimit : Nat := 4194304

/-- The decoded events of a chunk, parsed and written again; `[DONE]` only ends the stream. A
value may be refused, as the node does with the errors of its engine. -/
def forward (parse : List Char → Option Value) (accept : Value → Bool) :
    List (List Char) → Except RelayError (List (List UInt8))
  | [] => .ok []
  | data :: events =>
    if data = ['[', 'D', 'O', 'N', 'E', ']'] then forward parse accept events
    else
      match parse data with
      | none => .error .json
      | some value =>
        if accept value then do
          let frames ← forward parse accept events
          return event value :: frames
        else .error .refused

/-- The loop over the chunks of a stream, from the bytes read so far; the events that are sent. -/
def relay (parse : List Char → Option Value) (accept : Value → Bool) (total : Nat) (parser : Sse) :
    List (List UInt8) → Except RelayError (List (List UInt8))
  | [] => .ok []
  | chunk :: chunks =>
    if outputLimit < total + chunk.length then .error .outputLimit
    else
      match parser.push chunk with
      | .error e => .error (.decoder e)
      | .ok (events, parser) => do
        let frames ← forward parse accept events
        let more ← relay parse accept (total + chunk.length) parser chunks
        return frames ++ more

variable {parse : List Char → Option Value} {accept : Value → Bool}

/-- Forwarding two lists of events is forwarding one after the other. -/
theorem forward_append {events more : List (List Char)} {frames : List (List UInt8)}
    (h : forward parse accept (events ++ more) = .ok frames) :
    ∃ first rest, forward parse accept events = .ok first ∧
      forward parse accept more = .ok rest ∧ frames = first ++ rest := by
  induction events generalizing frames with
  | nil => exact ⟨[], frames, rfl, h, rfl⟩
  | cons data events ih =>
    rw [List.cons_append, forward] at h
    rw [forward]
    split at h
    · rename_i hdone
      rw [if_pos hdone]
      exact ih h
    · rename_i hdone
      rw [if_neg hdone]
      cases hparse : parse data with
      | none =>
        rw [hparse] at h
        cases h
      | some value =>
        rw [hparse] at h
        cases haccept : accept value with
        | false =>
          simp only [haccept] at h
          cases h
        | true =>
          simp only [haccept, if_true, Checked.bind_ok, Checked.pure_ok] at h
          obtain ⟨tail, htail, rfl⟩ := h
          obtain ⟨first, rest, hfirst, hrest, rfl⟩ := ih htail
          refine ⟨event value :: first, rest, ?_, hrest, rfl⟩
          simp only [haccept, if_true, Checked.bind_ok, Checked.pure_ok]
          exact ⟨first, hfirst, rfl⟩

/-- **A relay sends what it would send for all events at once.** -/
theorem relay_of_feed {chunks : List (List UInt8)} {total : Nat} {parser parser' : Sse}
    {events : List (List Char)} {frames : List (List UInt8)}
    (hlimit : total + chunks.flatten.length ≤ outputLimit)
    (hfeed : parser.feed chunks = .ok (events, parser'))
    (hforward : forward parse accept events = .ok frames) :
    relay parse accept total parser chunks = .ok frames := by
  induction chunks generalizing total parser events frames with
  | nil =>
    obtain ⟨rfl, -⟩ := Prod.mk.inj (Except.ok.inj hfeed)
    exact hforward
  | cons chunk chunks ih =>
    simp only [Sse.feed, Checked.bind_ok, Checked.pure_ok, Prod.exists] at hfeed
    obtain ⟨first, parser₁, hpush, more, parser₂, hmore, hend⟩ := hfeed
    obtain ⟨rfl, rfl⟩ := Prod.mk.inj hend
    obtain ⟨sent, rest, hsent, hrest, rfl⟩ := forward_append hforward
    rw [List.flatten_cons, List.length_append] at hlimit
    have htotal : total + chunk.length + chunks.flatten.length ≤ outputLimit := by omega
    have htail := ih htotal hmore hrest
    rw [relay, if_neg (by omega), hpush]
    simp only [hsent, htail, bind, Except.bind, pure, Except.pure]

/-- No text of a value is the mark `[DONE]`. -/
theorem Value.text_ne_done (v : Value) : v.text ≠ ['[', 'D', 'O', 'N', 'E', ']'] := by
  cases v with
  | null => simp [Value.text]
  | bool b => cases b <;> simp [Value.text]
  | number n =>
    intro hdone
    rcases n.chars '[' (by rw [show n.text = _ from hdone]; simp) with h | h | h | h | h <;>
      revert h <;> decide
  | string s => simp [Value.text, quoteString]
  | array items =>
    cases items with
    | nil => simp [Value.text, Value.itemTexts, commas]
    | cons item items =>
      obtain ⟨c, t, htext, hopens⟩ := item.text_head
      -- the first item starts with a token
      obtain ⟨rest, hrest⟩ : ∃ rest, commas (Value.itemTexts (item :: items)) = c :: rest := by
        rw [Value.itemTexts, htext]
        cases Value.itemTexts items <;> exact ⟨_, rfl⟩
      rw [Value.text, hrest]
      intro hdone
      exact hopens.ne.2 (List.cons.inj (List.cons.inj hdone).2).1
  | object members => simp [Value.text]

/-- The texts of values are written as the events of these values. -/
theorem forward_texts {values : List Value} (hparse : ∀ v ∈ values, parse v.text = some v)
    (haccept : ∀ v ∈ values, accept v = true) :
    forward parse accept (values.map Value.text) = .ok (values.map event) := by
  induction values with
  | nil => rfl
  | cons v vs ih =>
    rw [List.map_cons, forward, if_neg v.text_ne_done, hparse v (List.mem_cons_self ..)]
    simp only [haccept v (List.mem_cons_self ..), if_true]
    rw [ih (fun w hw => hparse w (List.mem_cons_of_mem v hw))
      fun w hw => haccept w (List.mem_cons_of_mem v hw)]
    rfl

/-- **Event round trip.** The events of values within the limit, in any chunks, are decoded to the
texts of these values in the same order, with no error and an empty buffer; and a relay of the
chunks sends the event of every value once and in the same order.

**Proof sketch.** An event is its text between a prefix and a separator, and JSON without line feeds
contains no separator, so that a stream of events is framed by them and decodes to their texts in
any chunks (`feed_events`). The relay sends an event for every text that parses and is accepted. -/
theorem event_round_trip {values : List Value}
    (hlimit : ∀ v ∈ values, (event v).length ≤ eventLimit) {chunks : List (List UInt8)}
    (hchunks : chunks.flatten = (values.map event).flatten) :
    (Sse.mk []).feed chunks = .ok (values.map Value.text, Sse.mk []) ∧
      ∀ (parse : List Char → Option Value) (accept : Value → Bool),
        (∀ v ∈ values, parse v.text = some v) → (∀ v ∈ values, accept v = true) →
          chunks.flatten.length ≤ outputLimit →
            relay parse accept 0 (Sse.mk []) chunks = .ok (values.map event) := by
  have hfeed := feed_events hlimit hchunks
  refine ⟨hfeed, fun parse accept hparse haccept htotal => ?_⟩
  exact relay_of_feed (by omega) hfeed (forward_texts hparse haccept)

/-- Two values of a stream: a message with a line feed and a character of two bytes, and a
number. -/
def labValues : List Value :=
  [.object [("text", .string "a\u00e7\n")], .number ⟨['1', '.', '5'], by simp, by
    simp [NumberChar, Char.isDigit]⟩]

/-- The stream of these values, byte by byte, is decoded and relayed. -/
theorem event_round_trip_lab :
    let chunks := (labValues.map event).flatten.map fun byte => [byte]
    let parse := fun text => labValues.find? fun v => v.text = text
    (Sse.mk []).feed chunks = .ok (labValues.map Value.text, Sse.mk []) ∧
      relay parse (fun _ => true) 0 (Sse.mk []) chunks = .ok (labValues.map event) := by
  have hlimit : ∀ v ∈ labValues, (event v).length ≤ eventLimit := by decide +kernel
  have hchunks : ((labValues.map event).flatten.map fun byte => [byte]).flatten =
      (labValues.map event).flatten := by decide +kernel
  have htrip := event_round_trip hlimit hchunks
  refine ⟨htrip.1, htrip.2 _ _ (fun v hv => ?_) (fun _ _ => rfl) ?_⟩
  · rcases List.mem_pair.mp hv with rfl | rfl
    · rfl
    · rfl
  · decide +kernel

end NetworkAi
