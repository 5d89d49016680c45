import Mathlib.Data.List.Nodup

set_option relaxedAutoImplicit false
set_option autoImplicit false

/-!
# The outbox of the node agent

An execution that has ended leaves its receipt as a file; a pass over the outbox submits the files
to the coordinator and removes those that it has answered. Every error inside the pass is returned
with `?` and ends it, so that what is listed behind the error waits for the next pass.

## Main definitions

* `NetworkAi.NodeAgent.Receipt`, `NetworkAi.NodeAgent.Reply` — what is sent and what comes back.
* `NetworkAi.NodeAgent.flushOutbox` — one pass.
* `NetworkAi.NodeAgent.Unblocked` — no entry ends the pass before a receipt.

## Main results

* `NetworkAi.NodeAgent.flushFrom_submitted` — without such an entry all receipts are submitted.
* `NetworkAi.NodeAgent.flushFrom_ended` — such an entry is the last one that is submitted.
* `NetworkAi.NodeAgent.flush_submits_all_iff` — exactly when a pass submits every receipt.

## Implementation notes

The coordinator is any function of the receipts that the pass has sent so far; the content of a
file is read by any function, so that the results cover every behaviour of both.
-/

namespace NetworkAi.NodeAgent

/-! ### Receipts and replies -/

/-- The receipt that `run` builds. -/
structure Receipt where
  sessionId : String
  attemptId : String
  epoch : Nat
  state : String
  promptTokens : Nat
  completionTokens : Nat
  outputSha256 : String
  streamDone : Bool
  finishReason : Option String
  errorCode : Option String
  elapsedMs : Nat
  deriving DecidableEq, Repr

/-- What the agent reads of a JSON answer: whether `accepted` and `terminal` are `true`. -/
structure Answer where
  accepted : Bool
  terminal : Bool
  deriving DecidableEq, Repr

/-- The coordinator is done with the receipt. -/
def Answer.settles (a : Answer) : Bool := a.accepted || a.terminal

/-- What becomes of an HTTP request. -/
inductive Reply where
  | lost
  | response (status : Nat) (body : Option Answer)
  deriving DecidableEq, Repr

/-- `App::signed`: a JSON body under a successful status, or an error. -/
def Reply.signed : Reply → Option Answer
  | .lost => none
  | .response status body => if 200 ≤ status ∧ status < 300 then body else none

/-! ### One pass -/

/-- `Path::extension` of a file name: what follows its last dot, unless nothing precedes it. -/
def extension (name : String) : Option String :=
  match name.toList.reverse.span (· ≠ '.') with
  | (tail, _ :: _ :: _) => some (String.ofList tail.reverse)
  | _ => none

/-- An entry that `read_dir` yields: an error, or a file with its content, when it can be read, and
whether it can be removed. -/
inductive Entry where
  | unreadable
  | file (name : String) (content : Option (List UInt8)) (removable : Bool)
  deriving DecidableEq, Repr

section Pass

variable {V : Type} (parse : List UInt8 → Option V) (coordinator : List V → Reply)

/-- The receipt in an entry: a `.json` file that can be read and parsed. -/
def Entry.receipt? : Entry → Option (String × V)
  | .unreadable => none
  | .file name content _ =>
    if extension name = some "json" then (content.bind parse).map fun v => (name, v) else none

/-- The receipts among entries. -/
def pending (entries : List Entry) : List (String × V) := entries.filterMap (·.receipt? parse)

/-- What a pass did: the receipts it submitted, in order, the files it removed, and whether it came
to its end. -/
structure Pass (V : Type) where
  submitted : List (String × V)
  removed : List String
  ok : Bool
  deriving DecidableEq, Repr

/-- The pass over the rest of the entries, after it has submitted `sent`. -/
def flushFrom (sent : List (String × V)) : List Entry → Pass V
  | [] => ⟨sent, [], true⟩
  | .unreadable :: _ => ⟨sent, [], false⟩
  | .file name content removable :: entries =>
    if extension name ≠ some "json" then flushFrom sent entries
    else
      match content.bind parse with
      | none => ⟨sent, [], false⟩
      | some receipt =>
        let sent := sent ++ [(name, receipt)]
        match (coordinator (sent.map Prod.snd)).signed with
        | none => ⟨sent, [], false⟩
        | some answer =>
          if answer.settles then
            if removable then
              let rest := flushFrom sent entries
              { rest with removed := name :: rest.removed }
            else ⟨sent, [], false⟩
          else flushFrom sent entries

/-- A directory: its entries, no two files of one name, and whether it can be listed. -/
structure Directory where
  entries : List Entry
  listable : Bool
  nodup : (entries.filterMap fun
    | .unreadable => none
    | .file name _ _ => some name).Nodup

/-- `flush_outbox`: a pass over the first hundred entries. -/
def flushOutbox (d : Directory) : Pass V :=
  if d.listable then flushFrom parse coordinator [] (d.entries.take 100) else ⟨[], [], false⟩

/-! ### Entries that end a pass -/

/-- An entry ends the pass that has submitted `sent` before it: it cannot be read, its file cannot
be read or parsed, its receipt is answered with an error, or its file cannot be removed. -/
def Entry.Ends (sent : List (String × V)) : Entry → Prop
  | .unreadable => True
  | .file name content removable => extension name = some "json" ∧
    ∀ v ∈ content.bind parse, ∀ a ∈ (coordinator ((sent ++ [(name, v)]).map Prod.snd)).signed,
      a.settles = true ∧ removable = false

/-- No entry ends the pass before a receipt: the directory can be listed, every receipt is among
the first hundred entries, and no entry listed before a receipt ends the pass. -/
structure Unblocked (d : Directory) : Prop where
  listable : d.listable = true
  early : pending parse (d.entries.drop 100) = []
  clear : ∀ before e after, d.entries.take 100 = before ++ e :: after →
    pending parse after ≠ [] → ¬ e.Ends parse coordinator (pending parse before)

variable {parse coordinator}

/-- The pending receipts of a list of files, by the first one. -/
theorem pending_cons (e : Entry) (entries : List Entry) :
    pending parse (e :: entries) = (e.receipt? parse).toList ++ pending parse entries := by
  rw [pending, List.filterMap_cons]
  cases e.receipt? parse <;> rfl

/-- The pending receipts of two lists of files. -/
theorem pending_append (entries more : List Entry) :
    pending parse (entries ++ more) = pending parse entries ++ pending parse more :=
  List.filterMap_append

/-- No files have no pending receipts. -/
@[simp] theorem pending_nil : pending parse [] = [] := rfl

/-- A file that is no receipt. -/
theorem receipt?_other {name : String} {content : Option (List UInt8)} {removable : Bool}
    (h : extension name ≠ some "json") :
    (Entry.file name content removable).receipt? parse = none := if_neg h

/-- A file that is a receipt, or would be one if it could be read and parsed. -/
theorem receipt?_json {name : String} {content : Option (List UInt8)} {removable : Bool}
    (h : extension name = some "json") :
    (Entry.file name content removable).receipt? parse =
      (content.bind parse).map fun v => (name, v) := if_pos h

/-- The receipts of a directory belong to different files. -/
theorem pending_nodup (d : Directory) : ((pending parse d.entries).map Prod.fst).Nodup := by
  have hsub : ∀ entries : List Entry, ((pending parse entries).map Prod.fst).Sublist
      (entries.filterMap fun
        | .unreadable => none
        | .file name _ _ => some name) := by
    intro entries
    induction entries with
    | nil => exact .slnil
    | cons e entries ih =>
      rw [pending_cons]
      cases e with
      | unreadable => exact ih
      | file name content removable =>
        by_cases hjson : extension name = some "json"
        · rw [receipt?_json hjson]
          cases content.bind parse with
          | none => exact ih.cons name
          | some v => exact ih.cons_cons name
        · rw [receipt?_other hjson]
          exact ih.cons name
  exact (hsub d.entries).nodup d.nodup

/-- The pass behind an entry that does not end it has submitted the receipt of that entry. -/
theorem flushFrom_cons {sent : List (String × V)} {e : Entry} {entries : List Entry}
    (h : ¬ e.Ends parse coordinator sent) :
    (flushFrom parse coordinator sent (e :: entries)).submitted =
      (flushFrom parse coordinator (sent ++ (e.receipt? parse).toList) entries).submitted := by
  cases e with
  | unreadable => exact absurd trivial h
  | file name content removable =>
    by_cases hjson : extension name = some "json"
    · rw [receipt?_json hjson]
      cases hread : content.bind parse with
      | none => exact absurd ⟨hjson, by simp [hread]⟩ h
      | some v =>
        simp only [flushFrom, hjson, ne_eq, not_true_eq_false, if_false, hread]
        cases hreply : (coordinator ((sent ++ [(name, v)]).map Prod.snd)).signed with
        | none =>
          refine absurd ⟨hjson, fun w hw a ha => ?_⟩ h
          rw [hread, Option.mem_some_iff] at hw
          rw [← hw, hreply] at ha
          cases ha
        | some a =>
          by_cases hsettles : a.settles = true
          · cases removable with
            | false =>
              refine absurd ⟨hjson, fun w hw b hb => ?_⟩ h
              rw [hread, Option.mem_some_iff] at hw
              rw [← hw, hreply, Option.mem_some_iff] at hb
              exact ⟨hb ▸ hsettles, rfl⟩
            | true => simp [hsettles]
          · simp [hsettles]
    · rw [receipt?_other hjson, flushFrom, if_pos hjson]
      simp

/-- An entry that ends the pass is the last one that is submitted. -/
theorem flushFrom_ends {sent : List (String × V)} {e : Entry} {entries : List Entry}
    (h : e.Ends parse coordinator sent) :
    (flushFrom parse coordinator sent (e :: entries)).submitted =
      sent ++ (e.receipt? parse).toList := by
  cases e with
  | unreadable => simp [flushFrom, Entry.receipt?]
  | file name content removable =>
    obtain ⟨hjson, hend⟩ := h
    rw [receipt?_json hjson]
    simp only [flushFrom, hjson, ne_eq, not_true_eq_false, if_false]
    cases hread : content.bind parse with
    | none => simp
    | some v =>
      simp only [Option.map_some, Option.toList_some]
      cases hreply : (coordinator ((sent ++ [(name, v)]).map Prod.snd)).signed with
      | none => rfl
      | some a =>
        obtain ⟨hsettles, hkept⟩ := hend v hread a hreply
        simp [hsettles, hkept]

/-- **All receipts are submitted** when no entry before one of them ends the pass. -/
theorem flushFrom_submitted {sent : List (String × V)} {entries : List Entry}
    (h : ∀ before e after, entries = before ++ e :: after → pending parse after ≠ [] →
      ¬ e.Ends parse coordinator (sent ++ pending parse before)) :
    (flushFrom parse coordinator sent entries).submitted = sent ++ pending parse entries := by
  induction entries generalizing sent with
  | nil => simp [flushFrom, pending]
  | cons e entries ih =>
    rw [pending_cons]
    by_cases hend : e.Ends parse coordinator sent
    · have hnone : pending parse entries = [] := by
        by_contra hsome
        exact h [] e entries rfl hsome (by simpa using hend)
      rw [flushFrom_ends hend, hnone, List.append_nil]
    · rw [flushFrom_cons hend, ih, List.append_assoc]
      intro before e' after hsplit hsome
      have hnext := h (e :: before) e' after (by rw [hsplit, List.cons_append]) hsome
      rwa [pending_cons, ← List.append_assoc] at hnext

/-- **An entry that ends the pass** leaves what is listed behind it unsubmitted. -/
theorem flushFrom_ended {sent : List (String × V)} {before : List Entry} (after : List Entry)
    {e : Entry}
    (h : e.Ends parse coordinator (sent ++ pending parse before)) :
    (flushFrom parse coordinator sent (before ++ e :: after)).submitted <+:
      sent ++ pending parse (before ++ [e]) := by
  induction before generalizing sent with
  | nil =>
    have hend : e.Ends parse coordinator sent := by simpa using h
    have heq : (flushFrom parse coordinator sent ([] ++ e :: after)).submitted =
        sent ++ pending parse ([] ++ [e]) := by
      rw [List.nil_append, flushFrom_ends hend, List.nil_append, pending_cons, pending_nil,
        List.append_nil]
    exact heq ▸ List.prefix_rfl
  | cons b before ih =>
    rw [List.cons_append, List.cons_append, pending_cons b (before ++ [e]), ← List.append_assoc]
    by_cases hb : b.Ends parse coordinator sent
    · rw [flushFrom_ends hb]
      exact List.prefix_append _ _
    · rw [flushFrom_cons hb]
      refine ih ?_
      rwa [pending_cons, ← List.append_assoc] at h

/-- **When a pass submits every receipt**: exactly when there is none, or no entry ends the pass
before a receipt.

**Proof sketch.** A pass reads the first hundred entries and submits their receipts in order, until
an entry ends it. If no entry with receipts behind it does, all of these are submitted
(`flushFrom_submitted`); if one does, those behind it are not (`flushFrom_ended`), and no receipt is
listed twice. -/
theorem flush_submits_all_iff (d : Directory) :
    (∀ p ∈ pending parse d.entries, p ∈ (flushOutbox parse coordinator d).submitted) ↔
      pending parse d.entries = [] ∨ Unblocked parse coordinator d := by
  have hsplit : pending parse d.entries =
      pending parse (d.entries.take 100) ++ pending parse (d.entries.drop 100) := by
    rw [← pending_append, List.take_append_drop]
  have hnodup : ((pending parse d.entries).map Prod.fst).Nodup := pending_nodup d
  rw [hsplit, List.map_append, List.nodup_append] at hnodup
  obtain ⟨htake, -, hdisjoint⟩ := hnodup
  constructor
  · intro h
    by_cases hnone : pending parse d.entries = []
    · exact .inl hnone
    refine .inr ?_
    obtain ⟨p, hp⟩ := List.exists_mem_of_ne_nil _ hnone
    have hlist : d.listable = true := by
      by_contra hno
      have hp' := h p hp
      rw [flushOutbox, if_neg hno] at hp'
      exact List.not_mem_nil hp'
    have hflush : flushOutbox parse coordinator d =
        flushFrom parse coordinator [] (d.entries.take 100) := by
      rw [flushOutbox, if_pos hlist]
    rw [hflush] at h
    -- Whatever is submitted is one of the receipts listed first.
    have hsub : ∀ q ∈ (flushFrom parse coordinator [] (d.entries.take 100)).submitted,
        q ∈ pending parse (d.entries.take 100) := by
      intro q hq
      by_cases hclear : ∀ before e after, d.entries.take 100 = before ++ e :: after →
          pending parse after ≠ [] → ¬ e.Ends parse coordinator ([] ++ pending parse before)
      · rw [flushFrom_submitted hclear] at hq
        simpa using hq
      · push Not at hclear
        obtain ⟨before, e, after, heq, -, hend⟩ := hclear
        rw [heq] at hq ⊢
        have hin := (flushFrom_ended after hend).subset hq
        rw [List.nil_append] at hin
        rw [List.append_cons, pending_append]
        exact List.mem_append_left _ hin
    refine ⟨hlist, ?_, fun before e after heq hsome hend => ?_⟩
    · rw [List.eq_nil_iff_forall_not_mem]
      intro q hq
      have hin := hsub q (h q (by rw [hsplit]; exact List.mem_append_right _ hq))
      exact hdisjoint _ (List.mem_map_of_mem hin) _ (List.mem_map_of_mem hq) rfl
    · obtain ⟨q, hq⟩ := List.exists_mem_of_ne_nil _ hsome
      have hall : pending parse (d.entries.take 100) =
          pending parse (before ++ [e]) ++ pending parse after := by
        rw [heq, List.append_cons, pending_append]
      have hin : q ∈ pending parse (before ++ [e]) := by
        have hmem := h q (by
          rw [hsplit, hall]
          exact List.mem_append_left _ (List.mem_append_right _ hq))
        rw [heq] at hmem
        have hend' : e.Ends parse coordinator ([] ++ pending parse before) := by
          rwa [List.nil_append]
        simpa using (flushFrom_ended after hend').subset hmem
      rw [hall, List.map_append, List.nodup_append] at htake
      exact htake.2.2 _ (List.mem_map_of_mem hin) _ (List.mem_map_of_mem hq) rfl
  · rintro (hnone | h) p hp
    · rw [hnone] at hp
      exact absurd hp List.not_mem_nil
    · rw [hsplit, h.early, List.append_nil] at hp
      rw [flushOutbox, if_pos h.listable, flushFrom_submitted]
      · simpa using hp
      · intro before e after heq hsome
        rw [List.nil_append]
        exact h.clear before e after heq hsome

end Pass

/-! ### A receipt that is always refused -/

/-- The receipt of an execution whose engine gave `reason` as its finish reason. -/
def labReceipt (sessionId reason : String) : Receipt where
  sessionId
  attemptId := "attempt"
  epoch := 1
  state := "COMPLETED"
  promptTokens := 10
  completionTokens := 1
  outputSha256 := "digest"
  streamDone := true
  finishReason := some reason
  errorCode := none
  elapsedMs := 100

/-- An outbox with two receipts; the finish reason in the first has 41 characters. -/
def labOutbox : Directory where
  entries := [.file "a.json" (some [0]) true, .file "b.json" (some [1]) true]
  listable := true
  nodup := by decide

/-- The contents of that outbox. -/
def labParse : List UInt8 → Option Receipt
  | [0] => some (labReceipt "a" "stopped_by_a_rule_of_the_engine_it_names_")
  | [1] => some (labReceipt "b" "stop")
  | _ => none

/-- The coordinator refuses a finish reason of more than 40 characters with status 400, as
`receiptSchema` requires, and accepts the others. -/
def labCoordinator (sent : List Receipt) : Reply :=
  match sent.getLast?.bind Receipt.finishReason with
  | some reason =>
    if reason.length ≤ 40 then .response 201 (some ⟨true, false⟩)
    else .response 400 (some ⟨false, false⟩)
  | none => .response 201 (some ⟨true, false⟩)

/-- The refused receipt keeps the other one from being submitted. -/
theorem flush_blocked : ¬ ∀ (parse : List UInt8 → Option Receipt)
    (coordinator : List Receipt → Reply) (d : Directory), (pending parse d.entries).length ≤ 100 →
    ∀ p ∈ pending parse d.entries, p ∈ (flushOutbox parse coordinator d).submitted := by
  intro h
  have hall := h labParse labCoordinator labOutbox (by decide +kernel)
    ("b.json", labReceipt "b" "stop") (by decide +kernel)
  revert hall
  decide +kernel

end NetworkAi.NodeAgent
