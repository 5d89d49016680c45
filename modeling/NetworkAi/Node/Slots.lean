import NetworkAi.Lib.Roster
import NetworkAi.Node.Moves

set_option relaxedAutoImplicit false
set_option autoImplicit false

/-!
# The slot and the receipts of the node agent

The permit of the agent is free, with a reservation, or with an execution; a nonce names one
reservation and then one execution; an execution takes a reservation that is in force and of its
own attempt. A receipt that has been written stays in the outbox until it is settled: only one
execution of a session is ever claimed, so that no other receipt takes its place.

## Main definitions

* `NetworkAi.NodeAgent.Agent.Slots` — permits, reservations and executions.
* `NetworkAi.NodeAgent.Agent.Files` — claims, receipts and the outbox.

## Main results

* `NetworkAi.NodeAgent.Move.slots`, `NetworkAi.NodeAgent.Move.files` — what every move preserves.
* `NetworkAi.NodeAgent.slot_accounting` — both, in every state of the agent.
-/

namespace NetworkAi.NodeAgent

open Relational Roster

variable {safe : Prop} {c : Config} {s s' : Agent} {i : Nat} {e d : Execution}

/-! ### The slot -/

/-- An execution took a reservation in force, of its attempt, under the nonce it was asked with. -/
structure Execution.Taken (e : Execution) : Prop where
  inForce : e.takenAt ≤ e.prepared.validUntil
  nonce : some e.prepared.id = e.cap.prepareId
  attempt : e.prepared.cap.attemptId = e.cap.attemptId

/-- The nonces of the reservations and of the executions. -/
def Agent.nonces (s : Agent) : List Nat :=
  s.prepared.rows.map (fun r => r.2.id) ++ s.executions.map (·.prepared.id)

/-- The permit is free, with a reservation, or with an execution, and every nonce was drawn once. -/
structure Agent.Slots (s : Agent) : Prop where
  balance : s.permits + s.prepared.rows.length + s.executions.countP (·.phase.holds) = 1
  nonces : s.nonces.Nodup
  drawn : ∀ n ∈ s.nonces, n < s.drawn
  taken : ∀ e ∈ s.executions, e.Taken

/-- A replacement of an execution by one that took the same reservation keeps the nonces. -/
theorem put_nonces (he : s.executions[i]? = some e) (hprep : d.prepared = e.prepared) :
    (s.put i d).nonces = s.nonces := by
  have hmap : (s.executions.set i d).map (·.prepared.id) = s.executions.map (·.prepared.id) :=
    map_set (·.prepared.id) he (by rw [hprep])
  show s.prepared.rows.map (fun r => r.2.id) ++ (s.executions.set i d).map (·.prepared.id) = _
  rw [hmap]
  rfl

/-- A replacement of an execution by one that took the same reservation, with as many permits more
as it gives back. -/
theorem Agent.Slots.put (h : s.Slots) (he : s.executions[i]? = some e)
    (hold : e.phase.holds = true) (hprep : d.prepared = e.prepared) (htaken : d.Taken)
    (hslot : s'.permits = s.permits + (if d.phase.holds then 0 else 1))
    (hprepared : s'.prepared = s.prepared) (hdrawn : s'.drawn = s.drawn)
    (hexec : s'.executions = (s.put i d).executions) : s'.Slots := by
  have hnonces : s'.nonces = s.nonces := by
    rw [← put_nonces he hprep, Agent.nonces, hprepared, hexec]
    rfl
  refine ⟨?_, by rw [hnonces]; exact h.nonces, ?_, fun x hx => ?_⟩
  · have hcount := countP_set (b := d) (p := (·.phase.holds)) he hold
    have hbalance := h.balance
    rw [hslot, hprepared, hexec]
    show s.permits + _ + s.prepared.rows.length + (s.executions.set i d).countP _ = 1
    omega
  · rw [hnonces, hdrawn]
    exact h.drawn
  · rw [hexec] at hx
    rcases mem_set hx with rfl | hx
    · exact htaken
    · exact h.taken x hx

/-- A replacement of an execution in its phase. -/
theorem Agent.Slots.keep (h : s.Slots) (he : s.executions[i]? = some e)
    (hphase : d.phase.holds = e.phase.holds) (hprep : d.prepared = e.prepared)
    (htaken : d.Taken) : (s.put i d).Slots := by
  have hcount : (s.put i d).executions.countP (·.phase.holds) =
      s.executions.countP (·.phase.holds) := countP_set_same he hphase
  have hnonces : (s.put i d).nonces = s.nonces := put_nonces he hprep
  refine ⟨?_, by rw [hnonces]; exact h.nonces, by rw [hnonces]; exact h.drawn, fun x hx => ?_⟩
  · rw [hcount]
    exact h.balance
  · rcases mem_set hx with rfl | hx
    · exact htaken
    · exact h.taken x hx

/-- The phases of an execution that go on hold their permit. -/
theorem Execution.Follows.holds {p : Phase} (h : e.Follows safe p) :
    e.phase.holds = true ∧ p.holds = true := by
  cases h with
  | claimed h | spawned h | lost h | submitted h | unregistered h => rw [h]; exact ⟨rfl, rfl⟩

/-- A phase inside the handler holds a slot. -/
theorem Phase.holds_of_inHandler {p : Phase} (h : p.inHandler = true) : p.holds = true := by
  cases p <;> first | rfl | cases h

/-- Forgetting preparations keeps the account of the slots. -/
theorem Agent.Slots.forget (h : s.Slots) (q : String → Prepared → Bool) : (s.forget q).Slots := by
  have hrows : (s.prepared.deleteWhere q).rows.Sublist s.prepared.rows := List.filter_sublist
  have hnonces : (s.forget q).nonces.Sublist s.nonces :=
    (hrows.map _).append (List.Sublist.refl _)
  refine ⟨?_, hnonces.nodup h.nonces, fun n hn => h.drawn n (hnonces.subset hn), h.taken⟩
  have hbalance := h.balance
  have hle := hrows.length_le
  show s.permits + (s.prepared.rows.length - (s.prepared.deleteWhere q).rows.length) +
    (s.prepared.deleteWhere q).rows.length + s.executions.countP (·.phase.holds) = 1
  omega

/-- Holding a slot for a preparation keeps the account of the slots. -/
theorem Agent.Slots.hold {cap : Capability} (h : s.Slots) (validUntil : Nat)
    (hnone : s.prepared.find? cap.sessionId = none) (hp : s.permits ≠ 0) :
    (s.hold cap validUntil hnone).Slots := by
  have hnonces : (s.hold cap validUntil hnone).nonces.Perm (s.drawn :: s.nonces) := by
    have hrows : (s.hold cap validUntil hnone).prepared.rows =
        s.prepared.rows ++ [(cap.sessionId, ⟨s.drawn, cap, validUntil⟩)] := rfl
    rw [Agent.nonces, hrows, List.map_append, List.append_assoc]
    exact List.perm_middle
  refine ⟨?_, ?_, fun n hn => ?_, h.taken⟩
  · have hbalance := h.balance
    show s.permits - 1 + (s.prepared.rows ++ [_]).length +
      s.executions.countP (·.phase.holds) = 1
    rw [List.length_append, List.length_singleton]
    omega
  · rw [hnonces.nodup_iff, List.nodup_cons]
    exact ⟨fun hin => absurd (h.drawn _ hin) (lt_irrefl _), h.nonces⟩
  · show n < s.drawn + 1
    rcases List.mem_cons.1 (hnonces.mem_iff.1 hn) with rfl | hn
    · exact Nat.lt_succ_self _
    · exact Nat.lt_succ_of_lt (h.drawn n hn)

/-- Starting a preparation keeps the account of the slots. -/
theorem Agent.Slots.start {cap : Capability} {p : Prepared} (h : s.Slots)
    (hp : s.prepared.find? cap.sessionId = some p) (hvalid : s.now ≤ p.validUntil)
    (hid : some p.id = cap.prepareId) (hattempt : p.cap.attemptId = cap.attemptId) :
    (s.start cap p).Slots := by
  obtain ⟨a, b, hrows, hdelete⟩ := Table.rows_delete hp
  have hwithout : (s.prepared.without cap.sessionId).rows = a ++ b := hdelete
  -- The nonce goes from the reservation to the execution.
  have hnonces : (s.start cap p).nonces.Perm s.nonces := by
    simp only [Agent.nonces, Agent.start, hwithout, hrows, List.map_append, List.map_cons,
      List.map_nil, List.append_assoc, List.cons_append]
    refine List.Perm.append_left _ ?_
    rw [← List.append_assoc]
    exact List.perm_append_singleton _ _
  refine ⟨?_, hnonces.nodup_iff.2 h.nonces, fun n hn => h.drawn n (hnonces.mem_iff.1 hn),
    fun x hx => ?_⟩
  · have hbalance := h.balance
    rw [hrows] at hbalance
    simp only [List.length_append, List.length_cons] at hbalance
    have hexec : (s.start cap p).executions = s.executions ++
        [⟨cap, p, s.now, false, true, false, .claiming⟩] := rfl
    have hone : [(⟨cap, p, s.now, false, true, false, .claiming⟩ : Execution)].countP
        (·.phase.holds) = 1 := rfl
    rw [hexec, List.countP_append, hone]
    show s.permits + (s.prepared.without cap.sessionId).rows.length +
      (s.executions.countP (·.phase.holds) + 1) = 1
    rw [hwithout, List.length_append]
    omega
  · rcases List.mem_append.1 hx with hx | hx
    · exact h.taken x hx
    · obtain rfl := List.mem_singleton.1 hx
      exact ⟨hvalid, hid, hattempt⟩

/-- **What every move preserves** of the slot. -/
theorem Move.slots (h : Move safe s s') (hs : s.Slots) : s'.Slots := by
  cases h with
  | quiet h =>
    have hnonces : s'.nonces = s.nonces := by
      rw [Agent.nonces, Agent.nonces, h.prepared, h.executions]
    refine ⟨?_, by rw [hnonces]; exact hs.nonces, ?_, ?_⟩
    · rw [h.permits, h.prepared, h.executions]
      exact hs.balance
    · rw [hnonces, h.drawn]
      exact hs.drawn
    · rw [h.executions]
      exact hs.taken
  | forget q => exact hs.forget q
  | hold validUntil hnone hp => exact hs.hold validUntil hnone hp
  | start hp hvalid hid hattempt => exact hs.start hp hvalid hid hattempt
  | accept he | flags _ _ he =>
    have htaken := hs.taken _ (mem_of_at he)
    exact hs.keep he rfl rfl ⟨htaken.inForce, htaken.nonce, htaken.attempt⟩
  | phase he hp =>
    have htaken := hs.taken _ (mem_of_at he)
    exact hs.keep he (hp.holds.2.trans hp.holds.1.symm) rfl
      ⟨htaken.inForce, htaken.nonce, htaken.attempt⟩
  | @drop i e he hp =>
    have htaken := hs.taken _ (mem_of_at he)
    exact hs.put (d := { e with phase := .dropped }) he (Phase.holds_of_inHandler hp) rfl
      ⟨htaken.inForce, htaken.nonce, htaken.attempt⟩ rfl rfl rfl rfl
  | @finish i e he hp =>
    have htaken := hs.taken _ (mem_of_at he)
    exact hs.put (d := { e with phase := .finished }) he (by rw [hp]; rfl) rfl
      ⟨htaken.inForce, htaken.nonce, htaken.attempt⟩ rfl rfl rfl rfl
  | @write i e r he hp =>
    have htaken := hs.taken _ (mem_of_at he)
    exact hs.put (d := { e with phase := .submitting r }) he (by rw [hp]; rfl) rfl
      ⟨htaken.inForce, htaken.nonce, htaken.attempt⟩ rfl rfl rfl rfl
  | settle => exact ⟨hs.balance, hs.nonces, hs.drawn, hs.taken⟩

/-! ### The receipts -/

/-- Claims, receipts and the outbox agree: one execution of a session at most has an accepted claim,
a receipt comes from an accepted execution that has left its engine, or from an earlier process, and
its file stays until it is answered. -/
structure Agent.Files (s : Agent) : Prop where
  single : ∀ (i j : Nat) (e d : Execution), s.executions[i]? = some e → s.executions[j]? = some d →
    e.accepted = true → d.accepted = true → e.cap.sessionId = d.cap.sessionId → i = j
  earlier : ∀ e ∈ s.executions, e.accepted = true → e.cap.sessionId ∉ s.earlier
  begun : ∀ e ∈ s.executions, e.phase ≠ .claiming → e.phase ≠ .dropped → e.accepted = true
  source : ∀ r ∈ s.written, r.sessionId ∈ s.earlier ∨
    ∃ e ∈ s.executions, e.accepted = true ∧ e.cap.sessionId = r.sessionId ∧ e.phase.metered = true
  unique : ∀ r ∈ s.written, ∀ r' ∈ s.written, r.sessionId = r'.sessionId → r = r'
  file : ∀ name r, s.outbox name = some r → r ∈ s.written ∧ r.sessionId = name
  kept : ∀ r ∈ s.written, s.outbox r.sessionId = some r ∨ r ∈ s.answered
  loop : ∀ name r left, s.loop = .submitting name r left → r ∈ s.written ∧ r.sessionId = name
  tasks : ∀ e ∈ s.executions, ∀ r, e.phase = .submitting r →
    r ∈ s.written ∧ r.sessionId = e.cap.sessionId
  answered : ∀ r ∈ s.answered, r ∈ s.written

/-- An execution at an index is the accepted one of its session. -/
theorem Agent.Files.same (h : s.Files) (he : s.executions[i]? = some e)
    (hacc : e.accepted = true) (hd : d ∈ s.executions) (hdacc : d.accepted = true)
    (hsession : e.cap.sessionId = d.cap.sessionId) : e = d := by
  obtain ⟨j, hj⟩ := List.mem_iff_getElem?.1 hd
  have hij := h.single i j e d he hj hacc hdacc hsession
  rw [hij, hj] at he
  exact (Option.some.inj he).symm

/-- A session of an execution that has not left its engine has no receipt. -/
theorem Agent.Files.unmetered (h : s.Files) (he : s.executions[i]? = some e)
    (hacc : e.accepted = true) (hphase : e.phase.metered = false) :
    ∀ r ∈ s.written, r.sessionId ≠ e.cap.sessionId := by
  intro r hr hsession
  rcases h.source r hr with hearlier | ⟨d, hd, hdacc, hdsession, hmetered⟩
  · rw [hsession] at hearlier
    exact h.earlier e (mem_of_at he) hacc hearlier
  · have hsame := h.same he hacc hd hdacc (hsession.symm.trans hdsession.symm)
    rw [← hsame, hphase] at hmetered
    cases hmetered

/-- A replacement of an execution that keeps its session and its claim and goes forward.

**Proof sketch.** The replacement has the session and the claim of the execution that it replaces,
so that what is said of pairs of executions and of the source of a receipt holds of it as well. -/
theorem Agent.Files.put (h : s.Files) (he : s.executions[i]? = some e)
    (hsession : d.cap.sessionId = e.cap.sessionId) (hacc : d.accepted = e.accepted)
    (hbegun : d.phase ≠ .claiming → d.phase ≠ .dropped → e.accepted = true)
    (hmetered : e.phase.metered = true → d.phase.metered = true)
    (hsubmits : ∀ r, d.phase = .submitting r → e.phase = .submitting r) : (s.put i d).Files where
  single := by
    intro j k x y hj hk hx hy hxy
    rcases at_set he hj with ⟨rfl, rfl⟩ | ⟨-, hjx⟩ <;>
      rcases at_set he hk with ⟨rfl, rfl⟩ | ⟨-, hky⟩
    · rfl
    · exact h.single _ _ e y he hky (hacc ▸ hx) hy (hsession ▸ hxy)
    · exact h.single _ _ x e hjx he hx (hacc ▸ hy) (hsession ▸ hxy)
    · exact h.single _ _ x y hjx hky hx hy hxy
  earlier := by
    intro x hx hxacc
    rcases mem_set hx with rfl | hx
    · rw [hsession]
      exact h.earlier e (mem_of_at he) (hacc ▸ hxacc)
    · exact h.earlier x hx hxacc
  begun := by
    intro x hx hc hd
    rcases mem_set hx with rfl | hx
    · rw [hacc]
      exact hbegun hc hd
    · exact h.begun x hx hc hd
  source := by
    intro r hr
    rcases h.source r hr with hearlier | ⟨x, hx, hxacc, hxsession, hxmetered⟩
    · exact .inl hearlier
    · obtain ⟨j, hj⟩ := List.mem_iff_getElem?.1 hx
      by_cases hji : j = i
      · obtain rfl := hji
        rw [he] at hj
        obtain rfl := Option.some.inj hj
        exact .inr ⟨d, mem_of_at (at_set_self he), hacc.trans hxacc, hsession.trans hxsession,
          hmetered hxmetered⟩
      · have hother : (s.put i d).executions[j]? = some x := by
          rw [← hj]
          exact List.getElem?_set_ne (Ne.symm hji)
        exact .inr ⟨x, mem_of_at hother, hxacc, hxsession, hxmetered⟩
  unique := h.unique
  file := h.file
  kept := h.kept
  loop := h.loop
  tasks := by
    intro x hx r hr
    rcases mem_set hx with rfl | hx
    · rw [hsession]
      exact h.tasks e (mem_of_at he) r (hsubmits r hr)
    · exact h.tasks x hx r hr
  answered := h.answered

/-- The coordinator accepts the claim of a session that was not claimed.

**Proof sketch.** No execution of the session was accepted, and none before the restart. So the new
claim is the only one of its session, and no receipt is written for it yet. -/
theorem Agent.Files.accept (h : s.Files) (he : s.executions[i]? = some e)
    (hnew : e.cap.sessionId ∉ s.acceptedSessions) : (s.put i { e with accepted := true }).Files := by
  have hearlier : e.cap.sessionId ∉ s.earlier := fun hin =>
    hnew (List.mem_append_left _ hin)
  have hfree : ∀ x ∈ s.executions, x.accepted = true → x.cap.sessionId ≠ e.cap.sessionId := by
    intro x hx hacc hsession
    refine hnew (List.mem_append_right _ ?_)
    rw [← hsession]
    exact List.mem_map_of_mem (List.mem_filter.2 ⟨hx, hacc⟩)
  have hnone : ¬ e.accepted = true := fun hacc => hfree e (mem_of_at he) hacc rfl
  refine ⟨?_, ?_, ?_, ?_, h.unique, h.file, h.kept, h.loop, ?_, h.answered⟩
  · intro j k x y hj hk hx hy hxy
    rcases at_set he hj with ⟨rfl, rfl⟩ | ⟨-, hjx⟩ <;>
      rcases at_set he hk with ⟨rfl, rfl⟩ | ⟨-, hky⟩
    · rfl
    · exact absurd hxy.symm (hfree y (mem_of_at hky) hy)
    · exact absurd hxy (hfree x (mem_of_at hjx) hx)
    · exact h.single _ _ x y hjx hky hx hy hxy
  · intro x hx hxacc
    rcases mem_set hx with rfl | hx
    · exact hearlier
    · exact h.earlier x hx hxacc
  · intro x hx hc hd
    rcases mem_set hx with rfl | hx
    · rfl
    · exact h.begun x hx hc hd
  · intro r hr
    rcases h.source r hr with hold | ⟨x, hx, hxacc, hxsession, hxmetered⟩
    · exact .inl hold
    · obtain ⟨j, hj⟩ := List.mem_iff_getElem?.1 hx
      have hji : j ≠ i := by
        rintro rfl
        rw [he] at hj
        obtain rfl := Option.some.inj hj
        exact hnone hxacc
      have hother : (s.put i { e with accepted := true }).executions[j]? = some x := by
        rw [← hj]
        exact List.getElem?_set_ne (Ne.symm hji)
      exact .inr ⟨x, mem_of_at hother, hxacc, hxsession, hxmetered⟩
  · intro x hx r hr
    rcases mem_set hx with rfl | hx
    · exact h.tasks e (mem_of_at he) r hr
    · exact h.tasks x hx r hr

/-- Starting a preparation keeps the account of the files. -/
theorem Agent.Files.start {cap : Capability} {p : Prepared} (h : s.Files) :
    (s.start cap p).Files := by
  have hnew : ∀ x ∈ (s.start cap p).executions, x ∈ s.executions ∨
      x = ⟨cap, p, s.now, false, true, false, .claiming⟩ := by
    intro x hx
    rcases List.mem_append.1 hx with hx | hx
    · exact .inl hx
    · exact .inr (List.mem_singleton.1 hx)
  have hat : ∀ (j : Nat) (x : Execution), (s.start cap p).executions[j]? = some x →
      x.accepted = true → s.executions[j]? = some x := by
    intro j x hj hacc
    have happend : (s.start cap p).executions = s.executions ++
      [⟨cap, p, s.now, false, true, false, .claiming⟩] := rfl
    rw [happend, List.getElem?_append] at hj
    split at hj
    · exact hj
    · have hmem := List.mem_singleton.1 (List.mem_of_getElem? hj)
      rw [hmem] at hacc
      cases hacc
  refine ⟨?_, ?_, ?_, ?_, h.unique, h.file, h.kept, h.loop, ?_, h.answered⟩
  · intro j k x y hj hk hx hy hxy
    exact h.single j k x y (hat j x hj hx) (hat k y hk hy) hx hy hxy
  · intro x hx hxacc
    rcases hnew x hx with hx | rfl
    · exact h.earlier x hx hxacc
    · cases hxacc
  · intro x hx hc hd
    rcases hnew x hx with hx | rfl
    · exact h.begun x hx hc hd
    · exact absurd rfl hc
  · intro r hr
    rcases h.source r hr with hold | ⟨x, hx, hrest⟩
    · exact .inl hold
    · exact .inr ⟨x, List.mem_append_left _ hx, hrest⟩
  · intro x hx r hr
    rcases hnew x hx with hx | rfl
    · exact h.tasks x hx r hr
    · cases hr

/-- The receipt of an execution is the first one of its session.

**Proof sketch.** The execution is in its engine, so that its session has no receipt yet. The file
of its session is the new receipt, and the other files and receipts are those from before. -/
theorem Agent.Files.write {r : Receipt} (h : s.Files) (he : s.executions[i]? = some e)
    (hp : e.phase = .engine) (hr : r.sessionId = e.cap.sessionId) : (s.write i e r).Files := by
  have hacc : e.accepted = true :=
    h.begun e (mem_of_at he) (by rw [hp]; decide) (by rw [hp]; decide)
  have hfirst := h.unmetered he hacc (by rw [hp]; rfl)
  have hother : ∀ r' ∈ s.written, r'.sessionId ≠ r.sessionId := fun r' hr' => by
    rw [hr]
    exact hfirst r' hr'
  -- The execution with its new phase, its receipt not yet in place.
  have hwritten : (s.write i e r).written = s.written ++ [r] := rfl
  have hexec : (s.write i e r).executions = (s.put i { e with phase := .submitting r }).executions :=
    rfl
  refine ⟨?_, ?_, ?_, ?_, ?_, ?_, ?_, ?_, ?_,
    fun r' hr' => List.mem_append_left _ (h.answered r' hr')⟩
  · intro j k x y hj hk hx hy hxy
    rw [hexec] at hj hk
    rcases at_set he hj with ⟨rfl, rfl⟩ | ⟨-, hjx⟩ <;>
      rcases at_set he hk with ⟨rfl, rfl⟩ | ⟨-, hky⟩
    · rfl
    · exact h.single _ _ e y he hky hacc hy hxy
    · exact h.single _ _ x e hjx he hx hacc hxy
    · exact h.single _ _ x y hjx hky hx hy hxy
  · intro x hx hxacc
    rcases mem_set hx with rfl | hx
    · exact h.earlier e (mem_of_at he) hacc
    · exact h.earlier x hx hxacc
  · intro x hx hc hd
    rcases mem_set hx with rfl | hx
    · exact hacc
    · exact h.begun x hx hc hd
  · intro r' hr'
    rw [hwritten] at hr'
    rcases List.mem_append.1 hr' with hr' | hr'
    · rcases h.source r' hr' with hold | ⟨x, hx, hxacc, hxsession, hxmetered⟩
      · exact .inl hold
      · obtain ⟨j, hj⟩ := List.mem_iff_getElem?.1 hx
        have hji : j ≠ i := by
          rintro rfl
          rw [he] at hj
          obtain rfl := Option.some.inj hj
          rw [hp] at hxmetered
          cases hxmetered
        have hstill : (s.write i e r).executions[j]? = some x := by
          rw [← hj]
          exact List.getElem?_set_ne (Ne.symm hji)
        exact .inr ⟨x, mem_of_at hstill, hxacc, hxsession, hxmetered⟩
    · obtain rfl := List.mem_singleton.1 hr'
      exact .inr ⟨{ e with phase := .submitting r' }, mem_of_at (at_set_self he), hacc, hr.symm, rfl⟩
  · intro a ha b hb hab
    rw [hwritten] at ha hb
    rcases List.mem_append.1 ha with ha | ha <;> rcases List.mem_append.1 hb with hb | hb
    · exact h.unique a ha b hb hab
    · rw [List.mem_singleton.1 hb] at hab
      exact absurd hab (hother a ha)
    · rw [List.mem_singleton.1 ha] at hab
      exact absurd hab.symm (hother b hb)
    · rw [List.mem_singleton.1 ha, List.mem_singleton.1 hb]
  · intro name r' hfile
    rw [hwritten]
    have hupdate : Function.update s.outbox e.cap.sessionId (some r) name = some r' := hfile
    by_cases hname : name = e.cap.sessionId
    · rw [hname, Function.update_self] at hupdate
      obtain rfl := Option.some.inj hupdate
      exact ⟨List.mem_append_right _ (List.mem_singleton.2 rfl), hr.trans hname.symm⟩
    · rw [Function.update_of_ne hname] at hupdate
      exact ⟨List.mem_append_left _ (h.file name r' hupdate).1, (h.file name r' hupdate).2⟩
  · intro r' hr'
    show Function.update s.outbox e.cap.sessionId (some r) r'.sessionId = some r' ∨ r' ∈ s.answered
    rw [hwritten] at hr'
    rcases List.mem_append.1 hr' with hr' | hr'
    · rw [Function.update_of_ne (hfirst r' hr')]
      exact h.kept r' hr'
    · rw [List.mem_singleton.1 hr', hr, Function.update_self]
      exact .inl rfl
  · intro name r' left hloop
    exact ⟨List.mem_append_left _ (h.loop name r' left hloop).1, (h.loop name r' left hloop).2⟩
  · intro x hx r' hr'
    rcases mem_set hx with rfl | hx
    · obtain rfl := Phase.submitting.inj hr'
      exact ⟨List.mem_append_right _ (List.mem_singleton.2 rfl), hr⟩
    · exact ⟨List.mem_append_left _ (h.tasks x hx r' hr').1, (h.tasks x hx r' hr').2⟩

/-- The file that is removed when a receipt is settled is the one of that receipt. -/
theorem Agent.Files.settled {name : String} {r : Receipt} (removed : Bool) (h : s.Files)
    (hsub : s.Submits name r) : (s.settled name r removed).Files := by
  have hr : r ∈ s.written ∧ r.sessionId = name := by
    rcases hsub with ⟨left, hloop⟩ | ⟨j, x, hj, hphase, hname⟩
    · exact h.loop name r left hloop
    · rw [← hname]
      exact h.tasks x (mem_of_at hj) r hphase
  refine ⟨h.single, h.earlier, h.begun, h.source, h.unique, ?_, ?_, h.loop, h.tasks, ?_⟩
  · intro name' r' hfile
    have hcases : (if removed then Function.update s.outbox name none else s.outbox) name' =
        some r' := hfile
    cases removed with
    | false => exact h.file name' r' hcases
    | true =>
      rw [if_pos rfl] at hcases
      by_cases hname : name' = name
      · rw [hname, Function.update_self] at hcases
        cases hcases
      · rw [Function.update_of_ne hname] at hcases
        exact h.file name' r' hcases
  · intro r' hr'
    show (if removed then Function.update s.outbox name none else s.outbox) r'.sessionId = some r' ∨
      r' ∈ s.answered ++ [r]
    by_cases hsame : r' = r
    · exact .inr (List.mem_append_right _ (List.mem_singleton.2 hsame))
    · have hname : r'.sessionId ≠ name := fun heq =>
        hsame (h.unique r' hr' r hr.1 (heq.trans hr.2.symm))
      have hstill : (if removed then Function.update s.outbox name none else s.outbox)
          r'.sessionId = s.outbox r'.sessionId := by
        split
        · exact Function.update_of_ne hname _ _
        · rfl
      rw [hstill]
      exact (h.kept r' hr').imp_right (List.mem_append_left _)
  · intro r' hr'
    rcases List.mem_append.1 hr' with hr' | hr'
    · exact h.answered r' hr'
    · rw [List.mem_singleton.1 hr']
      exact hr.1

/-- **What every move preserves** of the receipts.

**Proof sketch.** By the move. The ones that write an execution keep its session and its claim
(`Agent.Files.put`), and go from one phase to a later one. -/
theorem Move.files (h : Move safe s s') (hs : s.Files) : s'.Files := by
  cases h with
  | quiet h =>
    refine ⟨?_, ?_, ?_, ?_, ?_, ?_, ?_, ?_, ?_, ?_⟩ <;>
      simp only [h.executions, h.earlier, h.written, h.outbox, h.answered]
    · exact hs.single
    · exact hs.earlier
    · exact hs.begun
    · exact hs.source
    · exact hs.unique
    · exact hs.file
    · exact hs.kept
    · intro name r left hloop
      rcases h.loop name r left hloop with hold | hfile
      · exact hs.loop name r left hold
      · exact hs.file name r hfile
    · exact hs.tasks
    · exact hs.answered
  | forget q =>
    exact ⟨hs.single, hs.earlier, hs.begun, hs.source, hs.unique, hs.file, hs.kept, hs.loop,
      hs.tasks, hs.answered⟩
  | hold =>
    exact ⟨hs.single, hs.earlier, hs.begun, hs.source, hs.unique, hs.file, hs.kept, hs.loop,
      hs.tasks, hs.answered⟩
  | start => exact hs.start
  | accept he hnew => exact hs.accept he hnew
  | @flags i e _ _ he =>
    exact hs.put he rfl rfl (hs.begun e (mem_of_at he)) id fun _ => id
  | @phase i e p he hp =>
    have hin := mem_of_at he
    cases hp with
    | claimed h hacc =>
      exact hs.put he rfl rfl (fun _ _ => hacc) (fun hm => by rw [h] at hm; cases hm)
        fun r hr => by cases hr
    | spawned h =>
      refine hs.put he rfl rfl (fun _ _ => hs.begun e hin ?_ ?_)
        (fun hm => by rw [h] at hm; cases hm) fun r hr => by cases hr
      · rw [h]; decide
      · rw [h]; decide
    | lost h =>
      refine hs.put he rfl rfl (fun _ _ => hs.begun e hin ?_ ?_)
        (fun hm => by rw [h] at hm; cases hm) fun r hr => by cases hr
      · rw [h]; decide
      · rw [h]; decide
    | submitted h =>
      refine hs.put he rfl rfl (fun _ _ => hs.begun e hin ?_ ?_) (fun _ => rfl)
        fun r hr => by cases hr
      · rw [h]; exact Phase.noConfusion
      · rw [h]; exact Phase.noConfusion
    | unregistered h =>
      refine hs.put he rfl rfl (fun _ _ => hs.begun e hin ?_ ?_) (fun _ => rfl)
        fun r hr => by cases hr
      · rw [h]; decide
      · rw [h]; decide
  | @drop i e he hp =>
    have hput : (s.put i { e with phase := .dropped }).Files := by
      refine hs.put he rfl rfl (fun _ hd => absurd rfl hd) (fun hm => ?_) fun r hr => by cases hr
      cases hphase : e.phase with
      | claiming | claimed => rw [hphase] at hm; cases hm
      | _ => rw [hphase] at hp; cases hp
    exact ⟨hput.single, hput.earlier, hput.begun, hput.source, hput.unique, hput.file, hput.kept,
      hput.loop, hput.tasks, hput.answered⟩
  | @finish i e he hp =>
    have hput : (s.put i { e with phase := .finished }).Files := by
      refine hs.put he rfl rfl (fun _ _ => hs.begun e (mem_of_at he) ?_ ?_) (fun _ => rfl)
        fun r hr => by cases hr
      · rw [hp]; decide
      · rw [hp]; decide
    exact ⟨hput.single, hput.earlier, hput.begun, hput.source, hput.unique, hput.file, hput.kept,
      hput.loop, hput.tasks, hput.answered⟩
  | write he hp hr => exact hs.write he hp hr
  | settle removed hsub => exact hs.settled removed hsub

/-! ### Every state -/

/-- A fresh agent accounts for its slots. -/
theorem Agent.Fresh.slots (h : s.Fresh) : s.Slots := by
  have hnonces : s.nonces = [] := by
    rw [Agent.nonces, h.prepared, h.executions]
    rfl
  refine ⟨?_, ?_, ?_, ?_⟩
  · rw [h.permits, h.prepared, h.executions]
    rfl
  · rw [hnonces]
    exact List.nodup_nil
  · rw [hnonces]
    exact fun n hn => absurd hn List.not_mem_nil
  · rw [h.executions]
    exact fun e he => absurd he List.not_mem_nil

/-- A fresh agent accounts for its files. -/
theorem Agent.Fresh.files (h : s.Fresh) : s.Files := by
  have hnone : ∀ e, e ∉ s.executions := by
    rw [h.executions]
    exact fun e => List.not_mem_nil
  refine ⟨fun i j e d hi => absurd (mem_of_at hi) (hnone e), fun e he => absurd he (hnone e),
    fun e he => absurd he (hnone e), fun r hr => .inl (h.written r hr).1, ?_, ?_, ?_, ?_,
    fun e he => absurd he (hnone e), ?_⟩
  · intro r hr r' hr' hsession
    exact ((h.written r hr).2 r' hr' hsession.symm).symm
  · intro name r hfile
    exact (h.outbox name r).1 hfile
  · intro r hr
    exact .inl ((h.outbox r.sessionId r).2 ⟨hr, rfl⟩)
  · intro name r left hloop
    rw [h.loop] at hloop
    cases hloop
  · intro r hr
    rw [h.answered] at hr
    exact absurd hr List.not_mem_nil

/-- What finitely many moves preserve. -/
theorem Moves.sound (h : Moves safe s s') (hs : s.Slots ∧ s.Files) : s'.Slots ∧ s'.Files :=
  Machine.Star.preserves (P := fun s => s.Slots ∧ s.Files)
    (fun _ _ hmove hp => ⟨Move.slots hmove hp.1, Move.files hmove hp.2⟩) h hs

/-- Every state of the agent keeps its slot and its receipts. -/
theorem reachable_sound (h : Machine.Reachable (agentSystem c) s) : s.Slots ∧ s.Files := by
  refine Machine.Reachable.invariant (P := fun s => s.Slots ∧ s.Files)
    (fun s hs => ⟨Agent.Fresh.slots hs, Agent.Fresh.files hs⟩) (fun s e _ hs => ?_) h
  have hmoves : Moves False s (s.step c e) := step_moves fun hf => hf.elim
  exact hmoves.sound hs

/-- **Slot accounting.** In every state of the agent the free permits, the reservations and the
executions that hold a permit are one; every nonce starts at most one execution; an execution took a
reservation that was in force and of its own attempt; and a receipt that was written is on disk
until it has been answered as accepted or terminal.

**Proof sketch.** From the two invariants of the agent, of its permits and nonces and of its files,
which every step keeps. -/
theorem slot_accounting (h : Machine.Reachable (agentSystem c) s) :
    s.permits + s.prepared.rows.length + s.executions.countP (·.phase.holds) = 1 ∧
      (s.executions.map (·.prepared.id)).Nodup ∧
      (∀ e ∈ s.executions, e.takenAt ≤ e.prepared.validUntil ∧
        some e.prepared.id = e.cap.prepareId ∧ e.prepared.cap.attemptId = e.cap.attemptId) ∧
      ∀ r ∈ s.written, s.outbox r.sessionId = some r ∨ r ∈ s.answered := by
  obtain ⟨hslots, hfiles⟩ := reachable_sound h
  refine ⟨hslots.balance, ?_, fun e he => ?_, hfiles.kept⟩
  · exact (List.nodup_append.1 hslots.nonces).2.1
  · have htaken := hslots.taken e he
    exact ⟨htaken.inForce, htaken.nonce, htaken.attempt⟩

/-! ### A run -/

/-- A capability of the session and attempt that the agent below is asked for. -/
def labCapability (scope : String) (prepareId : Option Nat) : Capability where
  network := "network-ai-private-lab"
  aud := "network-ai-node"
  scope
  sessionId := "session"
  attemptId := "attempt"
  nodeId := "node"
  epoch := 1
  model := "model"
  backendModel := "backend"
  requestSha256 := "digest"
  maxOutputTokens := 24
  maxContextTokens := 2048
  maxInputBytes := 1400
  generationProfile := none
  prepareId
  exp := 1060

/-- An agent with two tokens, one to prepare and one to execute the first reservation. -/
def labConfig : Config where
  nodeId := "node"
  backendModel := "backend"
  generationProfile := none
  epoch := 1
  opened
    | "prepare" => some (labCapability "prepare" none)
    | "execute" => some (labCapability "execute" (some 0))
    | _ => none
  chat _ := some ⟨"model", 24, 1, 4⟩
  hash _ := "digest"

/-- That agent at its start. -/
def labAgent : Agent where
  now := 1000
  drawn := 0
  permits := 1
  ready := true
  storageHealthy := true
  prepared := .empty
  executions := []
  running _ := none
  outbox _ := none
  loop := .sleeping
  earlier := []
  written := []
  answered := []

/-- The agent of the laboratory is fresh. -/
theorem labAgent_fresh : labAgent.Fresh where
  permits := rfl
  prepared := rfl
  executions := rfl
  loop := rfl
  answered := rfl
  outbox := by
    intro name r
    exact ⟨fun h => (by cases h), fun h => absurd h.1 List.not_mem_nil⟩
  written := fun r hr => absurd hr List.not_mem_nil

/-- What the engine of that agent meters. -/
def labMeter : Meter := ⟨10, 1, some "stop", true, "digest"⟩

/-- An execution runs to its end: it has given back the permit, and its receipt waits for the pass
over the outbox, because the answer to its first submission was lost. -/
theorem slot_accounting_run :
    let s := (agentSystem labConfig).run labAgent
      [.prepare "prepare", .execute "execute" [], .accept 0, .claimAnswered 0 true, .spawn 0,
        .outcome 0 (.engine true) labMeter 100 true, .receiptAnswered 0 .lost true, .unregister 0,
        .finish 0]
    (s.permits = 1 ∧ s.executions.length = 1 ∧ s.written.length = 1 ∧ s.answered = []) ∧
      s.permits + s.prepared.rows.length + s.executions.countP (·.phase.holds) = 1 ∧
      (s.executions.map (·.prepared.id)).Nodup ∧
      (∀ e ∈ s.executions, e.takenAt ≤ e.prepared.validUntil ∧
        some e.prepared.id = e.cap.prepareId ∧ e.prepared.cap.attemptId = e.cap.attemptId) ∧
      ∀ r ∈ s.written, s.outbox r.sessionId = some r ∨ r ∈ s.answered :=
  ⟨by decide +kernel, slot_accounting (Machine.reachable_run (.init labAgent_fresh) _)⟩

end NetworkAi.NodeAgent
