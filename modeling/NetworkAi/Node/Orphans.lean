import NetworkAi.Node.Slots

set_option relaxedAutoImplicit false
set_option autoImplicit false

/-!
# Orphaned claims of the node agent

An accepted claim is with the handler that awaits its answer, then with the task of its execution,
and then with its receipt. The handler is a future that is dropped when its client disconnects: the
coordinator may have accepted the claim by then, or may accept it afterwards, and no task is left to
write a receipt for it.

## Main definitions

* `NetworkAi.NodeAgent.Agent.NoOrphan` — every accepted claim is with somebody.
* `NetworkAi.NodeAgent.KeepsAlong` — no event of a run loses an accepted claim.

## Main results

* `NetworkAi.NodeAgent.Event.orphans` — an event that loses an accepted claim leaves an orphan.
* `NetworkAi.NodeAgent.no_orphan_iff` — without failures of the storage, a run has no orphan in any
  of its states exactly if none of its events loses an accepted claim.
-/

namespace NetworkAi.NodeAgent

open Roster

variable {c : Config} {s s' : Agent} {i : Nat} {e d : Execution}

/-- Every accepted claim is with its handler, in an execution that will write its receipt, has its
receipt on disk, or has had it answered. -/
def Agent.NoOrphan (s : Agent) : Prop :=
  ∀ e ∈ s.executions, e.accepted = true →
    e.phase.inHandler = true ∨ e.phase = .engine ∨
      (∃ r, s.outbox e.cap.sessionId = some r) ∨ ∃ r ∈ s.answered, r.sessionId = e.cap.sessionId

/-- Every accepted claim is with its handler, in its engine, or has a receipt. -/
def Agent.Carried (s : Agent) : Prop :=
  ∀ e ∈ s.executions, e.accepted = true →
    e.phase.inHandler = true ∨ e.phase = .engine ∨
      ∃ r ∈ s.written, r.sessionId = e.cap.sessionId

/-- A receipt is on disk or answered. -/
theorem Agent.Carried.noOrphan (h : s.Carried) (hf : s.Files) : s.NoOrphan := by
  intro e he hacc
  rcases h e he hacc with hin | hengine | ⟨r, hr, hsession⟩
  · exact .inl hin
  · exact .inr (.inl hengine)
  · rcases hf.kept r hr with hfile | hanswered
    · rw [hsession] at hfile
      exact .inr (.inr (.inl ⟨r, hfile⟩))
    · exact .inr (.inr (.inr ⟨r, hanswered, hsession⟩))

/-- **What a move that loses nothing preserves.**

**Proof sketch.** By the move, and for every execution with an accepted claim. The handler, the
engine and the receipt follow each other, and a move from one of them to the next keeps the session
in one of the three; a move that would drop it is excluded. -/
theorem Move.carried (h : Move True s s') (hs : s.Carried) : s'.Carried := by
  cases h with
  | quiet h =>
    unfold Agent.Carried
    rw [h.executions, h.written]
    exact hs
  | forget | hold | settle => exact hs
  | start =>
    intro x hx hacc
    rcases List.mem_append.1 hx with hx | hx
    · exact hs x hx hacc
    · rw [List.mem_singleton.1 hx] at hacc
      cases hacc
  | @accept i e he hnew hsafe =>
    intro x hx hacc
    rcases mem_set hx with rfl | hx
    · have hphase : e.phase = .claiming := hsafe trivial
      refine .inl ?_
      show e.phase.inHandler = true
      rw [hphase]
      rfl
    · exact hs x hx hacc
  | @flags i e _ _ he =>
    intro x hx hacc
    rcases mem_set hx with rfl | hx
    · exact hs e (mem_of_at he) hacc
    · exact hs x hx hacc
  | @phase i e p he hp =>
    intro x hx hacc
    rcases mem_set hx with rfl | hx
    · cases hp with
      | claimed => exact .inl rfl
      | spawned => exact .inr (.inl rfl)
      | lost _ hno => exact absurd trivial hno
      | submitted h | unregistered h =>
        rcases hs e (mem_of_at he) hacc with hin | hengine | hreceipt
        · rw [h] at hin
          cases hin
        · rw [h] at hengine
          cases hengine
        · exact .inr (.inr hreceipt)
    · exact hs x hx hacc
  | @drop i e he hp hsafe =>
    intro x hx hacc
    rcases mem_set hx with rfl | hx
    · have hnone : e.accepted = false := hsafe trivial
      have hsome : e.accepted = true := hacc
      rw [hnone] at hsome
      cases hsome
    · exact hs x hx hacc
  | @finish i e he hp =>
    intro x hx hacc
    rcases mem_set hx with rfl | hx
    · rcases hs e (mem_of_at he) hacc with hin | hengine | hreceipt
      · rw [hp] at hin
        cases hin
      · rw [hp] at hengine
        cases hengine
      · exact .inr (.inr hreceipt)
    · exact hs x hx hacc
  | @write i e r he hp hr =>
    intro x hx hacc
    rcases mem_set hx with rfl | hx
    · exact .inr (.inr ⟨r, List.mem_append_right _ (List.mem_singleton.2 rfl), hr⟩)
    · rcases hs x hx hacc with hin | hengine | ⟨r', hr', hsession⟩
      · exact .inl hin
      · exact .inr (.inl hengine)
      · exact .inr (.inr ⟨r', List.mem_append_left _ hr', hsession⟩)

/-! ### Losing a claim -/

/-- An accepted claim whose handler is gone is an orphan: its session has no receipt. -/
theorem Agent.Files.orphan (h : s.Files) (he : s.executions[i]? = some e)
    (hacc : e.accepted = true) (hphase : e.phase = .dropped) : ¬ s.NoOrphan := by
  intro hno
  have hnone := h.unmetered he hacc (by rw [hphase]; rfl)
  rcases hno e (mem_of_at he) hacc with hin | hengine | ⟨r, hfile⟩ | ⟨r, hanswered, hsession⟩
  · rw [hphase] at hin
    cases hin
  · rw [hphase] at hengine
    cases hengine
  · obtain ⟨hwritten, hsession⟩ := h.file _ r hfile
    exact hnone r hwritten hsession
  · exact hnone r (h.answered r hanswered) hsession

/-- **An event that loses an accepted claim leaves an orphan.**

**Proof sketch.** By the event that loses the claim: it is accepted after its handler was dropped,
or its handler is dropped or answered with an error. The execution is then neither with a handler
nor in the engine, and has no receipt. -/
theorem Event.orphans {ev : Event} (h : s.Files) (hlost : ¬ ev.Keeps s) :
    ¬ (s.step c ev).NoOrphan := by
  have hfiles : (s.step c ev).Files := by
    have hmoves : Moves False s (s.step c ev) := step_moves fun hf => hf.elim
    exact Machine.Star.preserves (P := Agent.Files) (fun _ _ hmove hp => Move.files hmove hp)
      hmoves h
  cases ev with
  | accept i =>
    simp only [Event.Keeps] at hlost
    push Not at hlost
    obtain ⟨e, he, hnew, hphase⟩ := hlost
    have hnone : ¬ e.accepted = true := fun hacc => hnew (List.mem_append_right _
      (List.mem_map_of_mem (List.mem_filter.2 ⟨mem_of_at he, hacc⟩)))
    have hdropped : e.phase = .dropped := by
      by_contra hother
      exact hnone (h.begun e (mem_of_at he) hphase hother)
    have hstep : s.step c (.accept i) = s.put i { e with accepted := true } :=
      act_of he (decide_eq_true hnew)
    rw [hstep] at hfiles ⊢
    exact hfiles.orphan (at_set_self he) rfl hdropped
  | claimAnswered i ok =>
    simp only [Event.Keeps] at hlost
    push Not at hlost
    obtain ⟨rfl, e, he, hphase, hacc⟩ := hlost
    have hstep : s.step c (.claimAnswered i false) = s.dropHandler i e :=
      act_of he (decide_eq_true hphase)
    rw [hstep] at hfiles ⊢
    exact hfiles.orphan (at_set_self he) (by simpa using hacc) rfl
  | disconnect i =>
    simp only [Event.Keeps] at hlost
    push Not at hlost
    obtain ⟨e, he, hin, hacc⟩ := hlost
    have hstep : s.step c (.disconnect i) = s.dropHandler i e := by
      have hon : s.step c (.disconnect i) =
          if e.phase.inHandler then s.dropHandler i e else s.put i { e with client := false } :=
        act_of he rfl
      rw [hon, if_pos hin]
    rw [hstep] at hfiles ⊢
    exact hfiles.orphan (at_set_self he) (by simpa using hacc) rfl
  | _ => exact absurd trivial hlost

/-! ### Runs -/

/-- No event of a run loses an accepted claim. -/
def KeepsAlong (c : Config) : Agent → List Event → Prop
  | _, [] => True
  | s, ev :: evs => ev.Keeps s ∧ KeepsAlong c (s.step c ev) evs

/-- **Orphans.** In a run without failures of the storage every accepted claim is with its handler,
in an execution, on disk or answered, in all states, exactly if no handler with an accepted claim is
dropped or answered with an error, and no claim is accepted after its handler is gone.

**Proof sketch.** Induction on the events. An event that keeps the claims keeps them carried, so
that the rest of the run is as good as from a fresh start. One that loses a claim leaves an orphan
in the very next state. -/
theorem no_orphan_iff (c : Config) {s : Agent} (h : s.Fresh) (evs : List Event)
    (hstored : ∀ ev ∈ evs, ev.Stored) :
    (∀ before, before <+: evs → ((agentSystem c).run s before).NoOrphan) ↔
      KeepsAlong c s evs := by
  have hcarried : s.Carried := by
    intro e he
    rw [h.executions] at he
    exact absurd he List.not_mem_nil
  have hfiles := h.files
  clear h
  induction evs generalizing s with
  | nil =>
    refine ⟨fun _ => trivial, fun _ before hbefore => ?_⟩
    rw [List.prefix_nil.1 hbefore]
    exact hcarried.noOrphan hfiles
  | cons ev evs ih =>
    have hstep : ev.Keeps s →
        ((∀ before, before <+: evs →
          ((agentSystem c).run (s.step c ev) before).NoOrphan) ↔
            KeepsAlong c (s.step c ev) evs) := by
      intro hkeeps
      have hmoves : Moves True s (s.step c ev) :=
        step_moves fun _ => ⟨hkeeps, hstored ev List.mem_cons_self⟩
      refine ih (fun x hx => hstored x (List.mem_cons_of_mem _ hx)) ?_ ?_
      · exact Machine.Star.preserves (P := Agent.Carried)
          (fun _ _ hmove hp => Move.carried hmove hp) hmoves hcarried
      · exact Machine.Star.preserves (P := Agent.Files)
          (fun _ _ hmove hp => Move.files hmove hp) hmoves hfiles
    constructor
    · intro hall
      have hkeeps : ev.Keeps s := by
        by_contra hlost
        exact Event.orphans hfiles hlost (hall [ev] ⟨evs, rfl⟩)
      refine ⟨hkeeps, (hstep hkeeps).1 fun before hbefore => ?_⟩
      exact hall (ev :: before) (List.cons_prefix_cons.2 ⟨rfl, hbefore⟩)
    · rintro ⟨hkeeps, hrest⟩ before hbefore
      cases before with
      | nil => exact hcarried.noOrphan hfiles
      | cons x before =>
        obtain ⟨rfl, hlater⟩ := List.cons_prefix_cons.1 hbefore
        exact (hstep hkeeps).2 hrest before hlater

/-- A handler whose claim is answered spawns the task of its execution. -/
theorem no_orphan_iff_run :
    let evs := [.prepare "prepare", .execute "execute" [], .accept 0, .claimAnswered 0 true, .spawn 0]
    (∀ before, before <+: evs → ((agentSystem labConfig).run labAgent before).NoOrphan) ↔
      KeepsAlong labConfig labAgent evs :=
  no_orphan_iff labConfig labAgent_fresh _ (by simp [Event.Stored])

/-- The client disconnects after the coordinator has accepted the claim and before its answer has
arrived: the agent is as at its start, and the claim has no task and no receipt. -/
theorem orphaned_claim : ¬ ∀ (c : Config) (s : Agent), s.Fresh → ∀ evs : List Event,
    (∀ ev ∈ evs, ev.Stored) → ((agentSystem c).run s evs).NoOrphan := by
  intro h
  have hno := h labConfig labAgent labAgent_fresh
    [.prepare "prepare", .execute "execute" [], .accept 0, .disconnect 0] (by simp [Event.Stored])
  have hat : ((agentSystem labConfig).run labAgent
      [.prepare "prepare", .execute "execute" [], .accept 0, .disconnect 0]).executions[0]? =
      some ⟨labCapability "execute" (some 0), ⟨0, labCapability "prepare" none, 1015⟩, 1000, true,
        true, false, .dropped⟩ := by decide +kernel
  have hreach : Machine.Reachable (agentSystem labConfig) ((agentSystem labConfig).run labAgent
      [.prepare "prepare", .execute "execute" [], .accept 0, .disconnect 0]) :=
    Machine.reachable_run (.init labAgent_fresh) _
  exact (reachable_sound hreach).2.orphan hat rfl rfl hno

end NetworkAi.NodeAgent
