import NetworkAi.Gateway.Dispatch
import Mathlib.Data.Set.Insert

set_option relaxedAutoImplicit false
set_option autoImplicit false

/-!
# The final marker of a routed session

What a run of the gateway records before it sends the final marker to the client, and what it
records when it does not send it.

## Main definitions

* `NetworkAi.Gateway.Since` — a record with only some events, and with others among them.
* `NetworkAi.Gateway.World.Completed` — the root and the stages have completed a session.

## Main results

* `NetworkAi.Gateway.World.relay_ensures` — what the relay of the root's stream establishes.
* `NetworkAi.Gateway.World.work_ensures`, `NetworkAi.Gateway.World.finish_ensures`,
  `NetworkAi.Gateway.World.dispatch_ensures` — the same for the parts of `dispatch`.
* `NetworkAi.Gateway.World.marker_after_completion` — the final marker and the releases of a run.
-/

namespace NetworkAi.Gateway

open Stateful

variable {V : Type}

/-! ### Records -/

/-- The record has only the events of `A`, among them those of `M`, and the authorization is `o`. -/
structure Since (A M : Set (Event V)) (o : Option Authorization) (s : State V) : Prop where
  only : ∀ e ∈ s.log, e ∈ A
  has : ∀ e ∈ M, e ∈ s.log
  authorization : s.authorization = o

variable {A A' M M' : Set (Event V)} {o : Option Authorization} {E : Stop → State V → Prop}

/-- A record may be described with more events that it can have and fewer that it has. -/
theorem Since.mono {s : State V} (h : Since A M o s) (hA : A ⊆ A') (hM : M' ⊆ M) :
    Since A' M' o s :=
  ⟨fun e he => hA (h.only e he), fun e he => h.has e (hM he), h.authorization⟩

/-- What is recorded is among the events of the record. -/
theorem emit_ensures {e : Event V} (he : e ∈ A) :
    Ensures (Since A M o) (emit e) (fun _ => Since A (insert e M) o) E := by
  refine Ensures.modify fun s hs => ⟨fun e' he' => ?_, fun e' he' => ?_, hs.authorization⟩
  · rcases List.mem_append.1 he' with hold | hnew
    · exact hs.only e' hold
    · rw [List.mem_singleton.1 hnew]
      exact he
  · rcases he' with rfl | hold
    · exact List.mem_append_right _ (List.mem_singleton.2 rfl)
    · exact List.mem_append_left _ (hs.has e' hold)

/-- Recording an event of the allowed ones keeps the record within them. -/
theorem emit_keeps {e : Event V} (he : e ∈ A) : Keeps (Since A M o) (emit e) :=
  (emit_ensures he).mono (fun _ h => h)
    (fun _ _ h => h.mono subset_rfl (Set.subset_insert e M)) fun _ _ h => h

/-- A value that must be there is there, or the state is as it was. -/
theorem given_ensures {α : Type} {x : Option α} {P : State V → Prop} :
    Ensures P (given x) (fun a s => P s ∧ x = some a) fun _ => P := by
  cases x with
  | none => exact Ensures.fail fun _ h => h
  | some a => exact Ensures.pure fun _ h => ⟨h, rfl⟩

/-- A value that must be there leaves the state as it is. -/
theorem given_keeps {α : Type} {x : Option α} {P : State V → Prop} : Keeps P (given x) :=
  given_ensures.mono (fun _ h => h) (fun _ _ h => h.1) fun _ _ h => h

namespace World

variable (w : World V)

/-- What is sent is recorded, unless the client has stopped to listen. -/
theorem send_ensures {e : Event V} (he : e ∈ A) :
    Ensures (Since A M o) (w.send e) (fun _ => Since A (insert e M) o)
      fun e s => e = .failed ∧ Since A M o s ∧ ∃ n, w.listening n = false := by
  refine Ensures.bind (R := fun _ => Since A M o) (Ensures.get fun _ h => h) fun s => ?_
  refine Ensures.bind (R := fun _ => Since A M o) ?_ fun _ => emit_ensures he
  exact Ensures.require (fun _ _ h => h) fun _ hno h => ⟨rfl, h, _, eq_false_of_ne_true hno⟩

/-- Sending an allowed event keeps the record within the allowed ones. -/
theorem send_keeps {e : Event V} (he : e ∈ A) : Keeps (Since A M o) (w.send e) :=
  (w.send_ensures he).mono (fun _ h => h)
    (fun _ _ h => h.mono subset_rfl (Set.subset_insert e M)) fun _ _ h => h.2.1

/-! ### Requests to nodes -/

/-- The requests to those of the participants that can be asked. -/
def posts (call : Call) (parts : List Part) : Set (Event V) :=
  {e | ∃ p ∈ parts, w.sendable call p ∧ e = .posted call p}

/-- The answers of those of the participants that were asked, at some places. -/
def answers (call : Call) (parts : List Part) (order : List Nat) : Set (Event V) :=
  {e | ∃ i ∈ order, ∃ p, parts[i]? = some p ∧ w.sendable call p ∧
    e = .answered call p (w.reply call i)}

section Join

variable {call : Call} {parts : List Part} (hpost : ∀ p, .posted call p ∈ A)
  (hanswer : ∀ p r, .answered call p r ∈ A)
include hpost

/-- Trying to post to some participants records allowed events only. -/
theorem tryPost_keeps : Keeps (Since A M o) (w.tryPost call parts) := by
  induction parts with
  | nil => exact Keeps.pure
  | cons p parts ih =>
    exact Keeps.require.bind fun _ => (emit_keeps (hpost p)).bind fun _ => ih

/-- Posting to some participants records a post for each one that can be reached. -/
theorem post_ensures :
    Ensures (Since A M o) (w.post call parts)
      (fun _ => Since A (M ∪ w.posts call parts) o) E := by
  induction parts generalizing M with
  | nil =>
    refine Ensures.pure fun s hs => hs.mono subset_rfl fun e he => ?_
    rcases he with he | ⟨p, hp, -⟩
    · exact he
    · exact absurd hp List.not_mem_nil
  | cons p parts ih =>
    have hfirst : Ensures (Since A M o) (when (w.sendable call p) (emit (.posted call p)))
        (fun _ => Since A (M ∪ w.posts call [p]) o) E := by
      unfold when
      refine Ensures.ite (fun _ => (emit_ensures (hpost p)).mono (fun _ h => h)
        (fun _ _ h => h.mono subset_rfl fun e he => ?_) fun _ _ h => h)
        fun hno => Ensures.pure fun s hs => hs.mono subset_rfl fun e he => ?_
      · rcases he with he | ⟨q, hq, -, rfl⟩
        · exact .inr he
        · exact .inl (by rw [List.mem_singleton.1 hq])
      · rcases he with he | ⟨q, hq, hsend, -⟩
        · exact he
        · rw [List.mem_singleton.1 hq] at hsend
          exact absurd hsend hno
    refine Ensures.bind hfirst fun _ => ih.mono (fun _ h => h)
      (fun _ _ h => h.mono subset_rfl fun e he => ?_) fun _ _ h => h
    rcases he with he | ⟨q, hq, hsend⟩
    · exact .inl (.inl he)
    · rcases List.mem_cons.1 hq with rfl | hq
      · exact .inl (.inr ⟨q, List.mem_singleton.2 rfl, hsend⟩)
      · exact .inr ⟨q, hq, hsend⟩

omit hpost
include hanswer

/-- Trying to hear some participants records allowed events only. -/
theorem tryHear_keeps {order : List Nat} :
    Keeps (Since A M o) (w.tryHear call parts order) := by
  induction order with
  | nil => exact Keeps.pure
  | cons i order ih =>
    refine Keeps.bind ?_ fun _ => ih
    unfold tryAnswer
    split
    · exact (emit_keeps (hanswer _ _)).bind fun _ => Keeps.require
    · exact Keeps.pure

/-- The answer of a participant that was asked is recorded. -/
theorem answer_ensures {i : Nat} :
    Ensures (Since A M o) (w.answer call parts i)
      (fun _ => Since A (M ∪ w.answers call parts [i]) o) E := by
  unfold answer
  split
  · rename_i q hq
    unfold when
    refine Ensures.ite (fun _ => (emit_ensures (hanswer q _)).mono (fun _ h => h)
      (fun _ _ h => h.mono subset_rfl fun e he => ?_) fun _ _ h => h)
      fun hno => Ensures.pure fun s hs => hs.mono subset_rfl fun e he => ?_
    · rcases he with he | ⟨j, hj, p, hp, -, rfl⟩
      · exact .inr he
      · obtain rfl := List.mem_singleton.1 hj
        rw [Option.some.inj (hq.symm.trans hp)]
        exact .inl rfl
    · rcases he with he | ⟨j, hj, p, hp, hsend, -⟩
      · exact he
      · obtain rfl := List.mem_singleton.1 hj
        rw [← Option.some.inj (hq.symm.trans hp)] at hsend
        exact absurd hsend hno
  · rename_i hnone
    refine Ensures.pure fun s hs => hs.mono subset_rfl fun e he => ?_
    rcases he with he | ⟨j, hj, p, hp, -⟩
    · exact he
    · obtain rfl := List.mem_singleton.1 hj
      rw [hnone] at hp
      cases hp

/-- Hearing some participants records an answer for each of them, in the order of the answers. -/
theorem hear_ensures {order : List Nat} :
    Ensures (Since A M o) (w.hear call parts order)
      (fun _ => Since A (M ∪ w.answers call parts order) o) E := by
  induction order generalizing M with
  | nil =>
    refine Ensures.pure fun s hs => hs.mono subset_rfl fun e he => ?_
    rcases he with he | ⟨i, hi, -⟩
    · exact he
    · exact absurd hi List.not_mem_nil
  | cons i order ih =>
    refine Ensures.bind (w.answer_ensures hanswer) fun _ => ih.mono (fun _ h => h)
      (fun _ _ h => h.mono subset_rfl fun e he => ?_) fun _ _ h => h
    rcases he with he | ⟨j, hj, hsent⟩
    · exact .inl (.inl he)
    · rcases List.mem_cons.1 hj with rfl | hj
      · exact .inl (.inr ⟨j, List.mem_singleton.2 rfl, hsent⟩)
      · exact .inr ⟨j, hj, hsent⟩

include hpost

/-- Trying to post and to hear records allowed events only. -/
theorem tryJoinAll_keeps : Keeps (Since A M o) (w.tryJoinAll call parts) :=
  (w.tryPost_keeps hpost).bind fun _ => (w.tryHear_keeps hanswer).bind fun _ => Keeps.pure

/-- **Requests to all participants**: whoever can be asked is asked, and when all results are
confirmed, every participant has answered so. -/
theorem joinAll_ensures :
    Ensures (Since A M o) (w.joinAll call parts)
      (fun results s => Since A (M ∪ w.posts call parts) o s ∧
        (results.all confirmed = true → ∀ p ∈ parts, ∃ r,
          confirmed (some r) = true ∧ .answered call p (some r) ∈ s.log)) E := by
  refine Ensures.bind (w.post_ensures hpost) fun _ =>
    Ensures.bind (w.hear_ensures hanswer) fun _ => Ensures.pure fun s hs =>
      ⟨hs.mono subset_rfl Set.subset_union_left, fun hall p hp => ?_⟩
  obtain ⟨i, hi, rfl⟩ := List.getElem_of_mem hp
  have hresult : confirmed (if w.sendable call parts[i] then w.reply call i else none) = true := by
    refine List.all_eq_true.1 hall _ (List.mem_mapIdx.2 ⟨i, hi, rfl⟩)
  by_cases hsend : w.sendable call parts[i] = true
  · rw [if_pos hsend] at hresult
    cases hr : w.reply call i with
    | none =>
      rw [hr] at hresult
      cases hresult
    | some r =>
      rw [hr] at hresult
      refine ⟨r, hresult, hs.has _ (.inr ⟨i, ?_, parts[i], List.getElem?_eq_getElem hi, hsend, ?_⟩)⟩
      · exact (w.order_perm call parts.length).mem_iff.2 (List.mem_range.2 hi)
      · rw [hr]
  · rw [if_neg hsend] at hresult
    cases hresult

end Join

/-! ### The root's stream -/

/-- What the data of the root's events say: the marker is among them if `done`, and unless
`failed` none of the others is an error or no value. -/
structure Told (events : List (List Char)) (done failed : Bool) : Prop where
  done : done = true → "[DONE]".toList ∈ events
  clean : failed = false → ∀ data ∈ events, data ≠ "[DONE]".toList →
    ∃ v, w.parse data = some v ∧ w.hasError v = false

/-- Before its first event a stream has told nothing. -/
theorem Told.nil : w.Told [] false false :=
  ⟨fun h => absurd h Bool.false_ne_true, fun _ _ h => absurd h List.not_mem_nil⟩

variable (htext : ∀ v, .sent (event (w.text v)) ∈ A)
include htext

/-- Relaying some events of the root keeps account of its marker and of its errors. -/
theorem relayEvents_ensures {events before : List (List Char)} {done failed : Bool}
    (h : w.Told before done failed) :
    Ensures (Since A M o) (w.relayEvents events (done, failed))
      (fun out s => Since A M o s ∧ w.Told (before ++ events) out.1 out.2)
      fun _ => Since A M o := by
  induction events generalizing before done failed with
  | nil =>
    refine Ensures.pure fun s hs => ⟨hs, ?_⟩
    rw [List.append_nil]
    exact h
  | cons data rest ih =>
    rw [List.append_cons, relayEvents]
    by_cases hdone : data = "[DONE]".toList
    · rw [if_pos hdone]
      refine ih ⟨fun _ => ?_, fun hfail d hd hne => ?_⟩
      · exact List.mem_append_right _ (List.mem_singleton.2 hdone.symm)
      · rcases List.mem_append.1 hd with hd | hd
        · exact h.clean hfail d hd hne
        · exact absurd ((List.mem_singleton.1 hd).trans hdone) hne
    · rw [if_neg hdone]
      refine Ensures.bind given_ensures fun v => Ensures.assume fun hparse => ?_
      refine (w.send_keeps (htext v)).then fun _ => ih ⟨fun hd => ?_, fun hfail d hd hne => ?_⟩
      · exact List.mem_append_left _ (h.done hd)
      · obtain ⟨hfailed, herror⟩ := Bool.or_eq_false_iff.1 hfail
        rcases List.mem_append.1 hd with hd | hd
        · exact h.clean hfailed d hd hne
        · rw [List.mem_singleton.1 hd]
          exact ⟨v, hparse, herror⟩

variable (hchunk : ∀ b, .rootChunk b ∈ A) (hend : .rootEnd ∈ A)
include hchunk hend

/-- **The relay of the root's stream**: it ends when the stream does, and tells of a routed session
what the events of the stream say.

**Proof sketch.** Induction on the chunks. The end of the stream is recorded. A chunk of a routed
session goes through the parser, and the flags are those of its events after the ones before; a
chunk of another session is passed on. -/
theorem relay_ensures {routed : Bool} (hpass : routed = false → ∀ b, .passed b ∈ A)
    {chunks : List (Option (List UInt8))} {total : Nat} {parser : Sse}
    {before : List (List Char)} {done failed : Bool} (h : w.Told before done failed) :
    Ensures (Since A M o) (w.relay routed chunks total parser (done, failed))
      (fun out s => Since A (insert .rootEnd M) o s ∧ (routed = true →
        ∃ cs events parser', chunks = cs.map some ∧ parser.feed cs = .ok (events, parser') ∧
          w.Told (before ++ events) out.1 out.2)) fun _ => Since A M o := by
  induction chunks generalizing total parser before done failed with
  | nil =>
    refine Ensures.bind (emit_ensures hend) fun _ => Ensures.pure fun s hs => ⟨hs, fun _ => ?_⟩
    refine ⟨[], [], parser, rfl, rfl, ?_⟩
    rw [List.append_nil]
    exact h
  | cons chunk chunks ih =>
    refine Ensures.bind given_ensures fun bytes => Ensures.assume fun hbytes => ?_
    subst hbytes
    refine (emit_keeps (hchunk bytes)).then fun _ => Keeps.require.then fun _ => ?_
    refine Ensures.ite (fun hrouted => ?_) fun hrouted => ?_
    · refine Ensures.bind given_ensures fun r => Ensures.assume fun hpush => ?_
      refine Ensures.bind (w.relayEvents_ensures htext h) fun flags =>
        Ensures.assume fun htold => ?_
      refine (ih htold).mono (fun _ hs => hs) (fun out s hs => ⟨hs.1, fun _ => ?_⟩)
        fun _ _ hs => hs
      obtain ⟨cs, events, parser', rfl, hfeed, hout⟩ := hs.2 hrouted
      refine ⟨bytes :: cs, r.1 ++ events, parser', rfl, ?_, ?_⟩
      · have hpush' : parser.push bytes = .ok r := by
          cases hp : parser.push bytes with
          | error e =>
            rw [hp] at hpush
            cases hpush
          | ok r' =>
            rw [hp] at hpush
            rw [Option.some.inj hpush]
        rw [Sse.feed, hpush']
        exact Checked.bind_ok.2 ⟨_, rfl, Checked.bind_ok.2 ⟨_, hfeed, rfl⟩⟩
      · rwa [← List.append_assoc]
    · have hunrouted : routed = false := eq_false_of_ne_true hrouted
      refine (w.send_keeps (hpass hunrouted bytes)).then fun _ => (ih h).mono (fun _ hs => hs)
        (fun out s hs => ⟨hs.1, fun hyes => absurd hyes hrouted⟩) fun _ _ hs => hs

omit htext hchunk hend

/-! ### The work -/

/-- The text of an event is the final marker exactly for one text. -/
theorem event_eq_marker (text : String) : event text = marker ↔ text = "[DONE]" := by
  constructor
  · intro h
    have hlist := congrArg String.toList h
    have hmarker : marker.toList = "data: ".toList ++ "[DONE]".toList ++ "\n\n".toList := by decide
    rw [hmarker, event, String.toList_append, String.toList_append] at hlist
    exact String.toList_injective (List.append_cancel_left (List.append_cancel_right hlist))
  · rintro rfl
    decide

/-- The events of a session with a route before its final marker: only its own admission, and
nothing of the root's bytes if it has stages. -/
def plain (root : Part) (stages : List Part) : Set (Event V) :=
  {e | e ≠ .sent marker ∧ (stages ≠ [] → ∀ b, e ≠ .passed b) ∧
    ∀ root' stages', e = .admitted root' stages' → root' = root ∧ stages' = stages}

/-- The root's stream ended, with the marker among its events and no error. -/
def RootCompleted : Prop :=
  ∃ chunks events parser, w.stream = some (chunks.map some) ∧
    (Sse.mk []).feed chunks = .ok (events, parser) ∧ "[DONE]".toList ∈ events ∧
    ∀ data ∈ events, data ≠ "[DONE]".toList → ∃ v, w.parse data = some v ∧ w.hasError v = false

/-- Every stage that was authorized has a durable receipt of no failed state. -/
def StagesCompleted (log : List (Event V)) : Prop :=
  ∃ auth parts, w.authorization = some auth ∧ auth.participants = some parts ∧
    .authorized auth ∈ log ∧ ∀ p ∈ parts, ∃ r : Reply V,
      .answered (.finish true) p (some r) ∈ log ∧ r.durable = true ∧ r.state ∉ failedStates

/-- The session was not reported in a failed state. -/
def Unfailed : Prop := ∀ state ∈ w.reported, state ∉ failedStates

variable {root : Part} {stages : List Part}

/-- A post is a plain event. -/
theorem plain_posted (call : Call) (p : Part) : .posted call p ∈ plain (V := V) root stages := by
  simp [plain]

/-- An answer is a plain event. -/
theorem plain_answered (call : Call) (p : Part) (r : Option (Reply V)) :
    .answered call p r ∈ plain root stages := by
  simp [plain]

/-- Starting the stages records plain events only. -/
theorem start_keeps {auth : Authorization} :
    Keeps (Since (plain root stages) M o) (w.start stages auth) := by
  refine Keeps.ite (given_keeps.bind fun parts => Keeps.require.bind fun _ => ?_) Keeps.pure
  exact (w.tryJoinAll_keeps (plain_posted _) (plain_answered _)).bind fun _ => Keeps.pure

/-- After the root has executed its stream has ended, and in a session with a route it has
completed. -/
theorem execute_ensures (htext : ∀ v, w.text v ≠ "[DONE]") {node : String} {auth : Authorization} :
    Ensures (Since (plain root stages) M o) (w.execute node stages auth)
      (fun _ s => Since (plain root stages) (insert .rootEnd M) o s ∧
        (stages ≠ [] → w.RootCompleted))
      fun _ => Since (plain root stages) M o := by
  have htext' : ∀ v, .sent (event (w.text v)) ∈ plain (V := V) root stages := fun v => by
    simp [plain, event_eq_marker, htext v]
  refine (emit_keeps (by simp [plain])).then fun _ => ?_
  refine Ensures.bind given_ensures fun chunks => Ensures.assume fun hchunks => ?_
  refine Ensures.bind (w.relay_ensures htext' (by simp [plain]) (by simp [plain])
    (by simp +contextual [plain]) (Told.nil w)) fun flags => Ensures.assume fun htold => ?_
  refine Ensures.require (fun s hflags hs => ⟨hs, fun hstages => ?_⟩)
    fun s _ hs => hs.mono subset_rfl (Set.subset_insert _ M)
  obtain ⟨cs, events, parser, rfl, hfeed, hdone, hclean⟩ := htold (decide_eq_true hstages)
  obtain hempty | ⟨hyes, hno⟩ := hflags
  · exact absurd hempty hstages
  · exact ⟨cs, events, parser, hchunks, hfeed, hdone hyes, hclean (eq_false_of_ne_true hno)⟩

/-- **The work**: when it ends well, the stages were authorized and the root has completed. -/
theorem work_ensures (htext : ∀ v, w.text v ≠ "[DONE]") {node : String} :
    Ensures (Since (plain root stages) M none) (w.work node root stages)
      (fun _ s => ∃ auth, w.authorization = some auth ∧
        Since (plain root stages) (insert .rootEnd (insert (.authorized auth) M)) (some auth) s ∧
        (stages ≠ [] → w.RootCompleted))
      (fun _ s => ∃ o, Since (plain root stages) M o s) := by
  have hlost {M' : Set (Event V)} {o : Option Authorization} (hM : M ⊆ M') (_ : Stop)
      (s : State V) (hs : Since (plain root stages) M' o s) :
      ∃ o, Since (plain root stages) M o s := ⟨o, hs.mono subset_rfl hM⟩
  refine Ensures.bind ((w.tryJoinAll_keeps (plain_posted _) (plain_answered _)).ensures
    (hlost subset_rfl)) fun prepared => ?_
  refine Ensures.bind (Keeps.require.ensures (hlost subset_rfl)) fun _ => ?_
  refine Ensures.bind ((emit_keeps (plain_posted _ _)).ensures (hlost subset_rfl)) fun _ => ?_
  refine Ensures.bind ((emit_keeps (plain_answered _ _ _)).ensures (hlost subset_rfl)) fun _ => ?_
  refine Ensures.bind (given_keeps.ensures (hlost subset_rfl)) fun own => ?_
  refine Ensures.bind ((emit_keeps (by simp [plain])).ensures (hlost subset_rfl)) fun _ => ?_
  refine Ensures.bind (given_ensures.mono (fun _ hs => hs) (fun _ _ hs => hs)
    (hlost subset_rfl)) fun auth => Ensures.assume fun hauth => ?_
  refine Ensures.bind (emit_ensures (by simp [plain])) fun _ => ?_
  -- from here on the state holds the authorization
  have hM : M ⊆ insert (.authorized auth) M := Set.subset_insert _ M
  refine Ensures.bind (R := fun _ => Since (plain root stages) (insert (.authorized auth) M)
    (some auth)) (Ensures.modify fun s hs => ⟨hs.only, hs.has, rfl⟩) fun _ => ?_
  refine Ensures.bind (w.start_keeps.ensures (hlost hM)) fun _ => ?_
  exact (w.execute_ensures htext).mono (fun _ hs => hs) (fun _ s hs => ⟨auth, hauth, hs⟩) (hlost hM)

/-! ### The end -/

/-- A finish that is durable has a confirmed answer of every participant with a stage. -/
theorem finish_ensures {completed routed : Bool} :
    Ensures (Since (plain root stages) M o) (w.finish completed routed)
      (fun durable s => Since (plain root stages) M o s ∧
        (durable = true → routed = true → ∃ parts, o.bind Authorization.participants = some parts ∧
          ∀ p ∈ parts, ∃ r, confirmed (some r) = true ∧
            .answered (.finish completed) p (some r) ∈ s.log)) E := by
  cases routed with
  | false => exact Ensures.pure fun s hs => ⟨hs, fun _ h => absurd h Bool.false_ne_true⟩
  | true =>
    refine Ensures.bind (R := fun s' s => Since (plain root stages) M o s ∧ s'.authorization = o)
      (Ensures.get fun s hs => ⟨hs, hs.authorization⟩) fun s' => Ensures.assume fun ho => ?_
    rw [ho]
    cases hparts : o.bind Authorization.participants with
    | none => exact Ensures.pure fun s hs => ⟨hs, fun h => absurd h Bool.false_ne_true⟩
    | some parts =>
      refine Ensures.bind (w.joinAll_ensures (plain_posted _) (plain_answered _)) fun results =>
        Ensures.pure fun s hs => ⟨hs.1.mono subset_rfl Set.subset_union_left, fun hall _ => ?_⟩
      exact ⟨parts, rfl, hs.2 hall⟩

/-- A release asks every participant to release, and the coordinator to cancel. -/
theorem release_ensures :
    Ensures (Since (plain root stages) M o) (w.release root stages)
      (fun _ => Since (plain root stages)
        (insert .cancel (M ∪ w.posts .release (stages ++ [root]))) o) E := by
  refine Ensures.bind (w.joinAll_ensures (plain_posted _) (plain_answered _)) fun _ => ?_
  exact (emit_ensures (by simp [plain])).mono (fun _ hs => hs.1) (fun _ _ hs => hs) fun _ _ hs => hs

/-- A text that does not start with data is not the marker. -/
theorem append_ne_marker {name text : String} (h : name.toList.head? = some 'e') :
    name ++ text ≠ marker := by
  intro heq
  have hlist := congrArg (fun text => text.toList.head?) heq
  have hmarker : marker.toList.head? = some 'd' := by decide
  simp only [String.toList_append, List.head?_append, h, hmarker, Option.some_or] at hlist
  revert hlist
  decide

/-- The comment that reports receipts is not the final marker. -/
theorem receiptText_ne_marker : w.receiptText ≠ marker := by
  have hne : "event: network_ai_receipt\ndata: " ++ (w.statusText ++ "\n\n") ≠ marker :=
    append_ne_marker (by decide)
  rwa [← String.append_assoc] at hne

/-- The comment that reports waiting is not the final marker. -/
theorem queuedText_ne_marker : w.queuedText ≠ marker := by
  have hne : "event: network_ai_status\ndata: \x7b\"session_id\":" ++ (w.quote w.id ++
      ",\"state\":\"QUEUED\"\x7d\n\n") ≠ marker :=
    append_ne_marker (by decide)
  rwa [← String.append_assoc] at hne

/-- The report of an error is not the final marker. -/
theorem errorText_ne_marker : w.errorText ≠ marker := by
  intro h
  rw [errorText, event_eq_marker] at h
  have hlist := congrArg (fun text => text.toList.head?) h
  simp only [String.toList_append] at hlist
  have hbrace : some '\x7b' = some '[' := hlist
  revert hbrace
  decide

/-- The final marker is sent after everything else. -/
theorem sendMarker_ensures :
    Ensures (Since A M o) (w.send (.sent marker))
      (fun _ s => ∃ before, s.log = before ++ [.sent marker] ∧ Since A M o ⟨before, o⟩)
      fun e s => e = .failed ∧ Since A M o s ∧ ∃ n, w.listening n = false := by
  refine Ensures.bind (R := fun _ => Since A M o) (Ensures.get fun _ h => h) fun s => ?_
  refine Ensures.bind (R := fun _ => Since A M o) ?_ fun _ => ?_
  · exact Ensures.require (fun _ _ h => h) fun _ hno h => ⟨rfl, h, _, eq_false_of_ne_true hno⟩
  · exact Ensures.modify fun s hs => ⟨s.log, rfl, hs.only, hs.has, rfl⟩

/-- Settling ends with the final marker of an unfailed session, or fails with no marker sent. -/
theorem settle_ensures :
    Ensures (Since (plain root stages) M o) w.settle
      (fun _ s => ∃ before, s.log = before ++ [.sent marker] ∧
        Since (plain root stages) (insert (.status w.reported) M) o ⟨before, o⟩ ∧ w.Unfailed)
      (fun e s => e = .failed ∧ Since (plain root stages) M o s ∧
        (¬ w.Unfailed ∨ ∃ n, w.listening n = false)) := by
  have hM : M ⊆ insert (.status w.reported) M := Set.subset_insert _ M
  have hreceipt : .sent w.receiptText ∈ plain (V := V) root stages := by
    simp [plain, w.receiptText_ne_marker]
  refine Ensures.bind (emit_ensures (by simp [plain])) fun _ => ?_
  refine Ensures.bind (R := fun _ s =>
    Since (plain root stages) (insert (.status w.reported) M) o s ∧ w.Unfailed)
    (Ensures.require (fun s hc hs => ⟨hs, hc⟩)
      fun s hc hs => ⟨rfl, hs.mono subset_rfl hM, .inl hc⟩) fun _ => Ensures.assume fun hcalm => ?_
  refine Ensures.bind ((w.send_ensures hreceipt).mono (fun _ hs => hs)
    (fun _ _ hs => hs.mono subset_rfl (Set.subset_insert _ _))
    fun _ _ hs => ⟨hs.1, hs.2.1.mono subset_rfl hM, .inr hs.2.2⟩) fun _ => ?_
  refine w.sendMarker_ensures.mono (fun _ hs => hs) (fun _ s hs => ?_)
    fun _ _ hs => ⟨hs.1, hs.2.1.mono subset_rfl hM, .inr hs.2.2⟩
  obtain ⟨before, hlog, hbefore⟩ := hs
  exact ⟨before, hlog, hbefore, hcalm⟩

/-! ### The whole of `dispatch` -/

/-- What is recorded before a session is admitted. -/
def early : Set (Event V) := {e | e = .admission ∨ e = .sent w.queuedText}

/-- What is recorded before an admission is plain. -/
theorem early_subset_plain : w.early ⊆ plain root stages := by
  rintro e (rfl | rfl)
  · simp [plain]
  · simp [plain, w.queuedText_ne_marker]

/-- Waiting for an admission records early events only. -/
theorem admission_keeps {answers : List (Option Admission)} :
    Keeps (Since w.early M o) (admission answers) := by
  induction answers with
  | nil => exact Keeps.fail
  | cons answer answers ih =>
    refine (emit_keeps (.inl rfl)).bind fun _ => given_keeps.bind fun value => ?_
    exact Keeps.ite Keeps.pure (Keeps.require.bind fun _ => ih)

/-- What stands before the final marker. -/
structure Completed (log : List (Event V)) : Prop where
  root : .rootEnd ∈ log ∧ w.RootCompleted
  stages : w.StagesCompleted log
  settled : .status w.reported ∈ log ∧ w.Unfailed

/-- Every participant that can be asked is asked to release, and the coordinator to cancel. -/
structure Released (root : Part) (stages : List Part) (log : List (Event V)) : Prop where
  release : ∀ p ∈ stages ++ [root], w.sendable .release p → .posted .release p ∈ log
  cancel : .cancel ∈ log

/-- All stages have completed, but the session was reported in a failed state, or the client is
gone. -/
structure Late (log : List (Event V)) : Prop where
  stages : w.StagesCompleted log
  cause : ¬ w.Unfailed ∨ ∃ n, w.listening n = false

/-- What completed the stages in a record completes them in a longer one. -/
theorem StagesCompleted.mono {log log' : List (Event V)} (h : w.StagesCompleted log)
    (hlog : ∀ e ∈ log, e ∈ log') : w.StagesCompleted log' := by
  obtain ⟨auth, parts, hauth, hparts, hmem, hall⟩ := h
  refine ⟨auth, parts, hauth, hparts, hlog _ hmem, fun p hp => ?_⟩
  obtain ⟨r, hr, hgood⟩ := hall p hp
  exact ⟨r, hlog _ hr, hgood⟩

/-- **What `dispatch` establishes**: it ends with the final marker of a completed session, or ends
without one, with the participants released, or late.

**Proof sketch.** Step by step, with the record so far described by what it consists of and what it
has. Until the participants are admitted the record is early. Then the work, the receipts of the
stages and the coordinator's answer are each recorded before the next step is taken, so that where
the marker is sent all of them are in the record, and where it is not, the participants are
released, or the answer of the coordinator is missing. -/
theorem dispatch_ensures (htext : ∀ v, w.text v ≠ "[DONE]") :
    Ensures (fun s => s = ⟨[], none⟩) w.dispatch
      (fun _ s => ∃ root stages, (stages = [] ∧ ∀ e ∈ s.log, e ∈ plain root stages) ∨
        ∃ before, s.log = before ++ [.sent marker] ∧ (∀ e ∈ before, e ∈ plain root stages) ∧
          w.Completed before)
      (fun e s => (∀ e ∈ s.log, e ∈ w.early) ∨ e = .failed ∧ ∃ root stages,
        (∀ e ∈ s.log, e ∈ plain root stages) ∧
          (stages ≠ [] → w.Released root stages s.log ∨ w.Late s.log)) := by
  have hearly {M : Set (Event V)} (e : Stop) (s : State V) (hs : Since w.early M none s) :
      (∀ e ∈ s.log, e ∈ w.early) ∨ e = .failed ∧ ∃ root stages,
        (∀ e ∈ s.log, e ∈ plain root stages) ∧
          (stages ≠ [] → w.Released root stages s.log ∨ w.Late s.log) := .inl hs.only
  refine Ensures.bind (R := fun _ => Since w.early ∅ none) ?_ fun _ => ?_
  · refine (w.send_keeps (.inr rfl)).mono (fun s hs => ?_) (fun _ _ hs => hs) hearly
    rw [hs]
    exact ⟨fun _ h => absurd h List.not_mem_nil, fun _ h => h.elim, rfl⟩
  refine Ensures.bind (w.admission_keeps.ensures hearly) fun value => ?_
  refine Ensures.bind (given_keeps.ensures hearly) fun node => ?_
  refine Ensures.bind (given_keeps.ensures hearly) fun stages => ?_
  refine Ensures.bind (R := fun _ => Since (plain value.root stages) ∅ none)
    ((emit_ensures (by simp [plain])).mono (fun s hs => hs.mono w.early_subset_plain subset_rfl)
      (fun _ _ hs => hs.mono subset_rfl (Set.empty_subset _)) fun _ _ hs => hs) fun _ => ?_
  refine Ensures.bind (Ensures.attempt (w.work_ensures htext)) fun outcome => ?_
  -- what the stages answered to the end of the work is recorded
  refine Ensures.bind (R := fun durable s => ∃ o, Since (plain value.root stages) ∅ o s ∧
    (outcome.toBool = true → durable = true → stages ≠ [] →
      (.rootEnd ∈ s.log ∧ w.RootCompleted) ∧ w.StagesCompleted s.log)) ?_ fun durable => ?_
  · cases outcome with
    | error e =>
      exact Ensures.exists fun o => w.finish_ensures.mono (fun _ hs => hs)
        (fun _ s hs => ⟨o, hs.1, fun h => absurd h Bool.false_ne_true⟩) fun _ _ hs => hs
    | ok _ =>
      refine Ensures.exists fun auth => Ensures.mono (Ensures.assume
        (c := w.authorization = some auth ∧ (stages ≠ [] → w.RootCompleted)) fun hwork =>
        w.finish_ensures.mono (fun _ hs => hs)
        (fun durable s hs => ⟨some auth, hs.1.mono subset_rfl (Set.empty_subset _), ?_⟩)
        fun _ _ hs => hs) (fun s hs => ⟨hs.2.1, hs.1, hs.2.2⟩) (fun _ _ hs => hs) fun _ _ hs => hs
      intro _ hdurable hstages
      obtain ⟨parts, hparts, hall⟩ := hs.2 hdurable (decide_eq_true hstages)
      refine ⟨⟨hs.1.has _ (.inl rfl), hwork.2 hstages⟩, auth, parts, hwork.1, hparts,
        hs.1.has _ (.inr (.inl rfl)), fun p hp => ?_⟩
      obtain ⟨r, hr, hmem⟩ := hall p hp
      exact ⟨r, hmem, of_decide_eq_true hr⟩
  refine Ensures.ite (fun _ => ?_) fun hgood => ?_
  · refine Ensures.exists fun o => Ensures.bind (w.release_ensures.mono (fun _ hs => hs.1)
      (fun _ _ hs => hs) fun _ _ hs => hs) fun _ => Ensures.fail fun s hs => .inr ?_
    exact ⟨rfl, value.root, stages, hs.only, fun _ => .inl
      ⟨fun p hp hsend => hs.has _ (.inr (.inr ⟨p, hp, hsend, rfl⟩)), hs.has _ (.inl rfl)⟩⟩
  · obtain ⟨houtcome, hdurable⟩ := not_or.1 hgood
    refine Ensures.ite (fun hstages => ?_) fun hstages => ?_
    · refine Ensures.mono (P := fun s => ∃ r : Option Authorization × List (Event V),
        Since (plain value.root stages) {e | e ∈ r.2} r.1 s ∧ (.rootEnd ∈ r.2 ∧ w.RootCompleted) ∧
          w.StagesCompleted r.2) (Ensures.exists fun r => Ensures.assume fun hdone =>
        w.settle_ensures.mono (fun _ hs => hs) (fun _ s hs => ?_) fun _ s hs => ?_)
        (fun s hs => ?_) (fun _ _ hs => hs) fun _ _ hs => hs
      · obtain ⟨before, hlog, hsince, hcalm⟩ := hs
        have hkept : ∀ e ∈ r.2, e ∈ before := fun e he => hsince.has e (.inr he)
        exact ⟨value.root, stages, .inr ⟨before, hlog, hsince.only,
          ⟨⟨hkept _ hdone.1.1, hdone.1.2⟩, hdone.2.mono w hkept, hsince.has _ (.inl rfl), hcalm⟩⟩⟩
      · exact .inr ⟨hs.1, value.root, stages, hs.2.1.only,
          fun _ => .inr ⟨hdone.2.mono w hs.2.1.has, hs.2.2⟩⟩
      · obtain ⟨o, hsince, hdone⟩ := hs
        exact ⟨(o, s.log), ⟨hsince.only, fun _ he => he, hsince.authorization⟩,
          hdone (not_not.1 houtcome) (not_not.1 hdurable) hstages⟩
    · exact Ensures.pure fun s hs => ⟨value.root, stages, .inl ⟨not_not.1 hstages,
        hs.choose_spec.1.only⟩⟩

/-! ### Runs -/

/-- The ways in which the task of `chat` ends: `dispatch` is cut short, or it ends. -/
theorem run_cases :
    (w.closed.isSome = true ∧ ∃ n, n < (w.dispatch ⟨[], none⟩).2.log.length ∧
      w.run = (w.dispatch ⟨[], none⟩).2.log.take n ++ [.cancel]) ∨
    w.run = w.report (w.dispatch ⟨[], none⟩) := by
  cases hclosed : w.closed.filter fun n => n < (w.dispatch ⟨[], none⟩).2.log.length with
  | none => exact .inr (by simp only [run, hclosed])
  | some n =>
    obtain ⟨hsome, hn⟩ := Option.filter_eq_some_iff.1 hclosed
    exact .inl ⟨by rw [hsome]; rfl, n, of_decide_eq_true hn, by simp only [run, hclosed]⟩

/-- What the task of `chat` adds to the record. -/
def closing : Set (Event V) := {e | e = .cancel ∨ e = .fail ∨ e = .sent w.errorText}

/-- What the task records at its end is plain. -/
theorem closing_subset_plain : w.closing ⊆ plain root stages := by
  rintro e (rfl | rfl | rfl)
  · simp [plain]
  · simp [plain]
  · simp [plain, w.errorText_ne_marker]

/-- The events of a run are those of `dispatch` and of the end of the task. -/
theorem mem_report {r : Except Stop Unit × State V} {e : Event V} (h : e ∈ w.report r) :
    e ∈ r.2.log ∨ e ∈ w.closing := by
  unfold report at h
  split at h
  · exact .inl h
  · exact .inl h
  · rcases List.mem_append.1 h with h | h
    · rcases List.mem_append.1 h with h | h
      · exact .inl h
      · exact .inr (.inr (.inl (List.mem_singleton.1 h)))
    · split at h
      · exact .inr (.inr (.inr (List.mem_singleton.1 h)))
      · exact absurd h List.not_mem_nil

/-- A failed `dispatch` is reported. -/
theorem report_failed {s : State V} {e : Event V} (h : e ∈ s.log ∨ e = .fail) :
    e ∈ w.report (.error .failed, s) := by
  refine List.mem_append_left _ (List.mem_append.2 (h.imp_right fun he => ?_))
  exact List.mem_singleton.2 he

/-- A record has its only final marker at its end. -/
theorem eq_of_append_marker {before after log : List (Event V)} (hlog : .sent marker ∉ log)
    (h : before ++ .sent marker :: after = log ++ [.sent marker]) : after = [] ∧ before = log := by
  rcases List.append_eq_append_iff.1 h with ⟨mid, rfl, hmid⟩ | ⟨mid, rfl, hmid⟩
  · cases mid with
    | nil => exact ⟨(List.cons.inj hmid).2, (List.append_nil before).symm⟩
    | cons x mid =>
      obtain ⟨rfl, -⟩ := List.cons.inj hmid
      exact absurd (List.mem_append_right _ (List.mem_cons_self ..)) hlog
  · cases mid with
    | nil => exact ⟨(List.cons.inj hmid).2.symm, List.append_nil log⟩
    | cons x mid =>
      have hlength := congrArg List.length hmid
      simp at hlength

/-- What a cut record holds was there before the final marker. -/
theorem take_plain (htext : ∀ v, w.text v ≠ "[DONE]") {n : Nat}
    (hn : n < (w.dispatch ⟨[], none⟩).2.log.length) :
    ∃ root stages, ∀ e ∈ (w.dispatch ⟨[], none⟩).2.log.take n, e ∈ plain root stages := by
  have hspec := w.dispatch_ensures htext ⟨[], none⟩ rfl
  rcases hr : w.dispatch ⟨[], none⟩ with ⟨e | u, s⟩
  · rw [hr] at hspec
    rcases hspec with hearly | ⟨-, root, stages, hplain, -⟩
    · exact ⟨⟨none, none, none, none, none⟩, [], fun e he =>
        w.early_subset_plain (hearly e (List.mem_of_mem_take he))⟩
    · exact ⟨root, stages, fun e he => hplain e (List.mem_of_mem_take he)⟩
  · rw [hr] at hspec hn
    obtain ⟨root, stages, ⟨-, hplain⟩ | ⟨before, hlog, hplain, -⟩⟩ := hspec
    · exact ⟨root, stages, fun e he => hplain e (List.mem_of_mem_take he)⟩
    · refine ⟨root, stages, fun e he => hplain e ?_⟩
      have hle : n ≤ before.length := by
        rw [hlog, List.length_append] at hn
        exact Nat.lt_succ_iff.1 hn
      rw [show (Except.ok (ε := Stop) u, s).2.log = _ from hlog, List.take_append_of_le_length hle]
        at he
      exact List.mem_of_mem_take he

/-- A run ends with the final marker of a completed session, or has none.

**Proof sketch.** A run is cut short by the client, with the cancellation at its end, or it is that
of `dispatch` with its report (`run_cases`). In either case no marker is added to the record. -/
theorem run_spec (htext : ∀ v, w.text v ≠ "[DONE]") :
    (∃ root stages before, w.run = before ++ [.sent marker] ∧
      (∀ e ∈ before, e ∈ plain root stages) ∧ w.Completed before) ∨
    ∃ root stages, (∀ e ∈ w.run, e ∈ plain root stages) ∧ (stages ≠ [] →
      w.Released root stages w.run ∨ (w.Late w.run ∧ .fail ∈ w.run) ∨
        (w.closed.isSome ∧ .cancel ∈ w.run)) := by
  rcases w.run_cases with ⟨hclosed, n, hn, hrun⟩ | hrun
  · obtain ⟨root, stages, hplain⟩ := w.take_plain htext hn
    have hcancel : .cancel ∈ w.run := by
      rw [hrun]
      exact List.mem_append_right _ (List.mem_singleton.2 rfl)
    refine .inr ⟨root, stages, fun e he => ?_, fun _ => .inr (.inr ⟨hclosed, hcancel⟩)⟩
    rw [hrun] at he
    rcases List.mem_append.1 he with he | he
    · exact hplain e he
    · exact w.closing_subset_plain (.inl (List.mem_singleton.1 he))
  · have hspec := w.dispatch_ensures htext ⟨[], none⟩ rfl
    rcases hr : w.dispatch ⟨[], none⟩ with ⟨e | u, s⟩
    · rw [hr] at hspec hrun
      have hkept {root : Part} {stages : List Part} (hplain : ∀ e ∈ s.log, e ∈ plain root stages) :
          ∀ e ∈ w.run, e ∈ plain root stages := fun e he =>
        (w.mem_report (hrun ▸ he)).elim (hplain e) fun he => w.closing_subset_plain he
      rcases hspec with hearly | ⟨rfl, root, stages, hplain, hend⟩
      · exact .inr ⟨⟨none, none, none, none, none⟩, [],
          hkept fun e he => w.early_subset_plain (hearly e he), fun h => absurd rfl h⟩
      · have hlog : ∀ e ∈ s.log, e ∈ w.run := fun e he => hrun ▸ w.report_failed (.inl he)
        refine .inr ⟨root, stages, hkept hplain, fun hstages => ?_⟩
        rcases hend hstages with hreleased | hlate
        · exact .inl ⟨fun p hp hsend => hlog _ (hreleased.release p hp hsend),
            hlog _ hreleased.cancel⟩
        · exact .inr (.inl ⟨⟨hlate.stages.mono w hlog, hlate.cause⟩,
            hrun ▸ w.report_failed (.inr rfl)⟩)
    · rw [hr] at hspec hrun
      obtain ⟨root, stages, ⟨rfl, hplain⟩ | ⟨before, hlog, hplain, hdone⟩⟩ := hspec
      · exact .inr ⟨root, [], hrun ▸ hplain, fun h => absurd rfl h⟩
      · exact .inl ⟨root, stages, before, hrun.trans hlog, hplain, hdone⟩

/-- **No final marker without receipts.** Whatever the other parties do, the final marker is sent
last, after the root, the stages and the coordinator completed the session. In a session with a
route the bytes of the root are never passed on, and without a final marker every participant is
asked to release and the coordinator to cancel, unless the stages had completed, or the client went
away.

**Proof sketch.** By `run_spec`. In the record of a completed session there is one marker, at its
end, so that what stands before it is what completed the session. An admitted session is the one of
the record, and with stages nothing of a plain record passes bytes on. -/
theorem marker_after_completion (htext : ∀ v, w.text v ≠ "[DONE]") :
    (∀ before after, w.run = before ++ .sent marker :: after →
      after = [] ∧ w.Completed before) ∧
    ∀ root stages, .admitted root stages ∈ w.run → stages ≠ [] →
      (∀ b, .passed b ∉ w.run) ∧
      (.sent marker ∉ w.run → w.Released root stages w.run ∨ (w.Late w.run ∧ .fail ∈ w.run) ∨
        (w.closed.isSome ∧ .cancel ∈ w.run)) := by
  rcases w.run_spec htext with ⟨root, stages, before, hrun, hplain, hdone⟩ |
    ⟨root, stages, hplain, hend⟩
  · have hmarker : .sent marker ∈ w.run := by
      rw [hrun]
      exact List.mem_append_right _ (List.mem_singleton.2 rfl)
    refine ⟨fun before' after hsplit => ?_, fun root' stages' hadmitted hstages =>
      ⟨fun b hb => ?_, fun hno => absurd hmarker hno⟩⟩
    · have hunmarked : .sent marker ∉ before := fun h => (hplain _ h).1 rfl
      obtain ⟨hafter, rfl⟩ := eq_of_append_marker hunmarked (hsplit.symm.trans hrun)
      exact ⟨hafter, hdone⟩
    · rw [hrun] at hb hadmitted
      have hadmitted' : .admitted root' stages' ∈ before := by simpa using hadmitted
      obtain ⟨-, rfl⟩ := (hplain _ hadmitted').2.2 _ _ rfl
      have hb' : .passed b ∈ before := by simpa using hb
      exact (hplain _ hb').2.1 hstages b rfl
  · refine ⟨fun before' after hsplit => ?_, fun root' stages' hadmitted hstages => ?_⟩
    · have hmarker : .sent marker ∈ w.run := by
        rw [hsplit]
        exact List.mem_append_right _ (List.mem_cons_self ..)
      exact absurd rfl (hplain _ hmarker).1
    · obtain ⟨rfl, rfl⟩ := (hplain _ hadmitted).2.2 _ _ rfl
      exact ⟨fun b hb => (hplain _ hb).2.1 hstages b rfl, fun _ => hend hstages⟩

end World

/-! ### A route of two nodes -/

/-- The root of a route. -/
def labRoot : Part where
  nodeId := some "1"
  nodeUrl := some "http://127.0.0.1:43103"
  role := some "ROOT"
  capability := some "root"
  finishCapability := none

/-- The stage of the route. -/
def labStage : Part where
  nodeId := some "2"
  nodeUrl := some "http://127.0.0.1:43104"
  role := some "STAGE"
  capability := some "stage"
  finishCapability := some "finish"

/-- The marker of the root. -/
def labBytes : List UInt8 := utf8 "data: [DONE]\n\n".toList

/-- Two nodes that do their work, a coordinator that reports a state of the session, and a client
that may go away. -/
def labWorld (reported : String) (closed : Option Nat) : World Unit where
  url node := some ⟨"http", some "127.0.0.1", "", none, none, none, "/",
    if node = "http://127.0.0.1:43103" then some 43103 else some 43104⟩
  uuid _ := true
  parse _ := some ()
  text _ := "null"
  hasError _ := false
  quote text := "\"" ++ text ++ "\""
  statusText := "null"
  id := "0"
  polls := [some ⟨some "PREPARING", labRoot, some (some [labRoot, labStage])⟩]
  reply _ _ := some ⟨(), true, some "COMPLETED"⟩
  order _ n := List.range n
  order_perm _ _ := .refl _
  rootPrepare := some ⟨(), false, none⟩
  authorization := some ⟨some "execute", some [labStage]⟩
  stream := some [some labBytes]
  reported := some (some reported)
  listening _ := true
  closed := closed

/-- The session is completed, its final marker last. -/
theorem marker_after_completion_lab :
    ∃ before, (labWorld "COMPLETED" none).run = before ++ [.sent marker] ∧
      (labWorld "COMPLETED" none).Completed before := by
  have hrun : (labWorld "COMPLETED" none).run =
      (labWorld "COMPLETED" none).run.dropLast ++ .sent marker :: [] := by decide +kernel
  exact ⟨_, hrun, ((World.marker_after_completion (labWorld "COMPLETED" none)
    fun _ => show "null" ≠ "[DONE]" by decide).1 _ _ hrun).2⟩

/-- Two sessions whose stage has prepared, without a final marker, and the stage is not asked to
release: the client went away, or the session was reported to have failed after all receipts. -/
theorem unreleased_stage :
    (let log := (labWorld "COMPLETED" (some 6)).run
     .answered .prepare labStage (some ⟨(), true, some "COMPLETED"⟩) ∈ log ∧
      (labWorld "COMPLETED" (some 6)).sendable .release labStage ∧
      .sent marker ∉ log ∧ .posted .release labStage ∉ log ∧ .cancel ∈ log) ∧
    (let log := (labWorld "FAILED" none).run
     .answered .prepare labStage (some ⟨(), true, some "COMPLETED"⟩) ∈ log ∧
      (labWorld "FAILED" none).sendable .release labStage ∧
      .sent marker ∉ log ∧ .posted .release labStage ∉ log ∧ .cancel ∉ log) := by
  decide +kernel

end NetworkAi.Gateway
