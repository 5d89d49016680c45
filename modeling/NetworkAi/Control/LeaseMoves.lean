import NetworkAi.Control.SessionMoves

set_option relaxedAutoImplicit false
set_option autoImplicit false

/-!
# The moves of the readiness windows

Each operation of `availability.ts` and `route-availability.ts` that commits is a sequence of
moves of its lease: offered, accepted, activated, sampled, drained, closed.

## Main results

* `NetworkAi.Db.updateRouteLease_running`, `NetworkAi.Db.updateRouteLease_ends`, … — the trigger
  `maintain_availability_claims` at each kind of update.
* `NetworkAi.advanceRoute_moves`, `NetworkAi.cancelRoute_moves`, … — the operations.
-/

namespace NetworkAi

open Relational

variable {env : Env} {req : Request} {tx t : Tx} {db db' : Db} {id : LeaseId}

/-! ### Node leases -/

section NodeLease

variable {row new : NodeLease}

/-- What an update of a node's lease checks, and what it writes. -/
theorem Db.updateNodeLease_ok (h : db.updateNodeLease id row new = .ok db') :
    new.Valid ∧ ∃ claims, db' = { db with nodeLeases := db.nodeLeases.set id new, claims } ∧
      ((new.state = .active ∧ row.state ≠ .active ∧
          insertClaims db.claims (.nodeLease id) [new.resourceDomainId] = .ok claims) ∨
        (¬ (new.state = .active ∧ row.state ≠ .active) ∧
          claims = releaseClaims (new.state ≠ .active ∧ row.state = .active) db.claims
            (.nodeLease id))) := by
  unfold Db.updateNodeLease at h
  simp only [Checked.ite_bind, Checked.bind_ok, constraint_ok, Checked.pure_ok,
    exists_const] at h
  obtain ⟨hvalid, -, claims, hclaims, rfl⟩ := h
  refine ⟨hvalid, claims, rfl, ?_⟩
  split at hclaims
  · rename_i hc
    exact .inl ⟨hc.1, hc.2, hclaims⟩
  rename_i hc
  refine .inr ⟨hc, ?_⟩
  split at hclaims <;> rename_i hd <;> simp only [Checked.pure_ok] at hclaims
  · simp only [releaseClaims, hd, hclaims, and_self, decide_true, if_true, ne_eq,
      not_false_eq_true]
  · simp only [releaseClaims, hd, hclaims, decide_false, Bool.false_eq_true, if_false]

/-- An accepted contract is activated once. -/
theorem acceptLease_moves {user : Actor} (h : acceptLease t db user id = .ok db') :
    Moves env req tx db db' := by
  unfold acceptLease at h
  simp only [Checked.bind_ok, needRow_ok, need_ok, exists_const] at h
  obtain ⟨row, hrow, -, h⟩ := h
  split at h
  · simp only [Checked.pure_ok] at h
    exact h ▸ .refl db
  simp only [Checked.bind_ok, need_ok, exists_const] at h
  obtain ⟨⟨hstate, -⟩, -, node, -, -, hupdate⟩ := h
  obtain ⟨-, claims, rfl, ⟨-, -, hclaims⟩ | ⟨hnot, -⟩⟩ := Db.updateNodeLease_ok hupdate
  · exact .single (.nodeLeaseActivated hrow hstate hclaims)
  · exact absurd ⟨rfl, by rw [hstate]; decide⟩ hnot

/-- A sample of a contract pays what it adds and writes its row. -/
theorem sampleLease_moves {now previous ends : Int} {sampled : NodeLease}
    (hrow : db.nodeLeases.find? id = some row) (hstate : row.state = .active)
    (hprev : row.sampleMs = some previous) (hends : row.endsMs = some ends)
    (h : sampleLease env t db id row now previous ends = .ok (sampled, db')) :
    Moves env req tx db db' ∧ db'.nodeLeases.find? id = some sampled ∧ sampled.state = .active := by
  unfold sampleLease at h
  simp only [Checked.ite_bind, Checked.bind_ok, Checked.pure_ok, Prod.mk.injEq, Prod.exists] at h
  obtain ⟨node, hnode, j, db₁, hpost, db₂, hupdate, rfl, rfl⟩ := h
  obtain ⟨books, hb, rfl⟩ := Db.postIf_ok hpost
  obtain ⟨hvalid, claims, rfl, ⟨-, hne, -⟩ | ⟨-, rfl⟩⟩ := Db.updateNodeLease_ok hupdate
  · exact absurd hstate hne
  have hclaims : releaseClaims ((row.sampled node now previous ends).state ≠ .active ∧
      row.state = .active) db.claims (.nodeLease id) = db.claims := by
    simp [releaseClaims, NodeLease.sampled, hstate]
  refine ⟨?_, Table.find?_set_self hrow, hstate⟩
  dsimp only
  rw [hclaims]
  have hmove : Move env req tx db _ := .nodeLeaseSampled hrow hstate hprev hends hnode hvalid hb
  exact .single hmove

/-- A closed contract pays back the rest of its escrow and writes its row. -/
theorem closeLease_moves {state : NodeLeaseState} (hrow : db.nodeLeases.find? id = some row)
    (hopen : row.state.isOpen = true) (hstate : state.isOpen = false)
    (h : closeLease env t db id row state = .ok db') : Moves env req tx db db' := by
  unfold closeLease at h
  simp only [Checked.ite_bind, Checked.bind_ok, Prod.exists] at h
  obtain ⟨j, db₁, hpost, hupdate⟩ := h
  obtain ⟨books, hb, rfl⟩ := Db.postIf_ok hpost
  have hactive : state ≠ .active := by rintro rfl; cases hstate
  obtain ⟨-, claims, rfl, ⟨ha, -, -⟩ | ⟨-, rfl⟩⟩ := Db.updateNodeLease_ok hupdate
  · exact absurd ha hactive
  have hclaims : releaseClaims ((row.closed t state).state ≠ .active ∧ row.state = .active)
      db.claims (.nodeLease id) = releaseClaims (row.state = .active) db.claims (.nodeLease id) := by
    simp [NodeLease.closed, hactive]
  dsimp only
  rw [hclaims]
  have hmove : Move env req tx db _ := .nodeLeaseClosed (t := t) hrow hopen hstate hb
  exact .single hmove

/-- A contract that is advanced is sampled, and closed where it is at its end. -/
theorem advanceLease_moves {cancel : Bool} (hrow : db.nodeLeases.find? id = some row)
    (hopen : row.state.isOpen = true) (h : advanceLease env t db id row cancel = .ok db') :
    Moves env req tx db db' := by
  unfold advanceLease at h
  split at h
  · rename_i hstate
    simp only [Checked.bind_ok, reference_ok, Prod.exists] at h
    obtain ⟨previous, hprev, ends, hends, sampled, db₁, hsample, h⟩ := h
    obtain ⟨hmoves, hrow₁, hactive⟩ : Moves env req tx db db₁ ∧ _ :=
      sampleLease_moves hrow hstate hprev hends hsample
    have hopen₁ : sampled.state.isOpen = true := by rw [hactive]; rfl
    refine hmoves.trans ?_
    split at h
    · exact closeLease_moves hrow₁ hopen₁ rfl h
    split at h
    · exact closeLease_moves hrow₁ hopen₁ rfl h
    · simp only [Checked.pure_ok] at h
      exact h ▸ .refl db₁
  split at h
  · exact closeLease_moves hrow hopen rfl h
  dsimp only at h
  split at h
  · exact closeLease_moves hrow hopen rfl h
  · simp only [Checked.pure_ok] at h
    exact h ▸ .refl db

/-- A cancelled contract is advanced to its end. -/
theorem cancelLease_moves {user : Actor} (h : cancelLease env t db user id = .ok db') :
    Moves env req tx db db' := by
  unfold cancelLease at h
  simp only [Checked.bind_ok, needRow_ok, need_ok, exists_const] at h
  obtain ⟨row, hrow, -, h⟩ := h
  split at h
  · exact advanceLease_moves hrow ‹_› h
  · simp only [Checked.pure_ok] at h
    exact h ▸ .refl db

/-- A reconciled contract is advanced where it is still open. -/
theorem reconcileLease_moves (h : reconcileLease env t db id = .ok db') :
    Moves env req tx db db' := by
  unfold reconcileLease at h
  split at h
  · rename_i row hrow
    split at h
    · exact advanceLease_moves hrow ‹_› h
    · simp only [Checked.pure_ok] at h
      exact h ▸ .refl db
  · simp only [Checked.pure_ok] at h
    exact h ▸ .refl db

/-- A new contract posts its budget and adds its row. -/
theorem offerNewLease_moves {user : Actor} {d : LeaseOffer} (hd : d.Valid)
    (h : offerNewLease env t db user d = .ok (id, db')) : Moves env req tx db db' := by
  unfold offerNewLease at h
  simp only [Checked.bind_ok, needRow_ok, need_ok, reference_ok, Checked.pure_ok, exists_const,
    Table.insert?_eq_some, Prod.mk.injEq, Prod.exists] at h
  obtain ⟨hcontracts, node, -, model, -, owner, -, -, books₁, hopen, j, db₁, hpost, _,
    ⟨hid, rfl⟩, rfl, rfl⟩ := h
  obtain ⟨books, hb, rfl⟩ := Db.post_ok hpost
  rw [openFresh_ok hopen] at hb
  have hfresh : db.nodeLeases.find? (t.uuid 0) = none := hid
  exact .single (.nodeLeaseOffered (l := { sponsorId := user.id, .. }) hfresh rfl
    ⟨rfl, rfl, rfl⟩ rfl hd.2.2 hd.1 hcontracts hb)

/-- A contract that was sent before changes nothing; a new one adds its row. -/
theorem offerLease_moves {user : Actor} {d : LeaseOffer}
    (h : offerLease env t db user d = .ok (id, db')) : Moves env req tx db db' := by
  unfold offerLease at h
  simp only [Checked.bind_ok, parse_ok, need_ok, exists_const] at h
  obtain ⟨hd, -, h⟩ := h
  split at h
  · simp only [Checked.bind_ok, need_ok, Checked.pure_ok, exists_const, Prod.mk.injEq] at h
    exact h.2.2 ▸ .refl db
  · exact offerNewLease_moves hd h

end NodeLease

/-! ### Windows of routes -/

section RouteLease

variable {row new : RouteLease}

/-- What an update of a window checks, and what it writes. -/
theorem Db.updateRouteLease_ok (h : db.updateRouteLease id row new = .ok db') :
    new.Valid ∧ ∃ claims, db' = { db with routeLeases := db.routeLeases.set id new, claims } ∧
      ((new.state.running = true ∧ row.state.running = false ∧
          insertClaims db.claims (.routeLease id) new.domains = .ok claims) ∨
        (¬ (new.state.running = true ∧ row.state.running = false) ∧
          claims = releaseClaims (row.state.running && !new.state.running) db.claims
            (.routeLease id))) := by
  unfold Db.updateRouteLease at h
  simp only [Checked.ite_bind, Checked.bind_ok, constraint_ok, Checked.pure_ok,
    exists_const] at h
  obtain ⟨hvalid, claims, hclaims, rfl⟩ := h
  refine ⟨hvalid, claims, rfl, ?_⟩
  split at hclaims
  · rename_i hc
    exact .inl ⟨hc.1, by simpa using hc.2, hclaims⟩
  rename_i hc
  refine .inr ⟨by simpa using hc, ?_⟩
  split at hclaims <;> rename_i hd <;> simp only [Checked.pure_ok] at hclaims
  · have hrelease : (row.state.running && !new.state.running) = true := by
      simpa [and_comm] using hd
    rw [hrelease, ← hclaims]
    rfl
  · have hrelease : (row.state.running && !new.state.running) = false := by
      cases hold : row.state.running <;> cases hnew : new.state.running <;> simp [hold, hnew] at hd ⊢
    rw [hrelease, ← hclaims]
    rfl

/-- An update that starts a window claims its domains. -/
theorem Db.updateRouteLease_starts (h : db.updateRouteLease id row new = .ok db')
    (hold : row.state.running = false) (hnew : new.state.running = true) :
    ∃ claims, insertClaims db.claims (.routeLease id) new.domains = .ok claims ∧
      db' = { db with routeLeases := db.routeLeases.set id new, claims } := by
  obtain ⟨-, claims, rfl, ⟨-, -, hc⟩ | ⟨hnot, -⟩⟩ := Db.updateRouteLease_ok h
  · exact ⟨claims, hc, rfl⟩
  · exact absurd ⟨hnew, hold⟩ hnot

/-- An update of a running window that goes on leaves the claims alone. -/
theorem Db.updateRouteLease_running (h : db.updateRouteLease id row new = .ok db')
    (hold : row.state.running = true) (hnew : new.state.running = true) :
    new.Valid ∧ db' = { db with routeLeases := db.routeLeases.set id new } := by
  obtain ⟨hvalid, claims, rfl, ⟨-, hf, -⟩ | ⟨-, rfl⟩⟩ := Db.updateRouteLease_ok h
  · rw [hold] at hf
    cases hf
  · simp [releaseClaims, hnew, hvalid]

/-- An update that ends a window releases its domains. -/
theorem Db.updateRouteLease_ends (h : db.updateRouteLease id row new = .ok db')
    (hnew : new.state.running = false) :
    db' = { db with
      routeLeases := db.routeLeases.set id new
      claims := releaseClaims row.state.running db.claims (.routeLease id) } := by
  obtain ⟨-, claims, rfl, ⟨ht, -, -⟩ | ⟨-, rfl⟩⟩ := Db.updateRouteLease_ok h
  · rw [hnew] at ht
    cases ht
  · simp [hnew]

/-- A closed window pays back the rest of its escrow and writes its row. -/
theorem closeRoute_moves {state : RouteLeaseState} {paid : Int}
    (hrow : db.routeLeases.find? id = some row)
    (hend : (row.state = .offered ∧ (paid = 0 ∨ paid = row.paid) ∧
        (state = .cancelled ∨ (state = .expired ∧ toMs row.offerExpiresAt ≤ tx.clock 0))) ∨
      (row.state.running = true ∧ paid = row.paid ∧ state = .completed ∧
        ∃ ends, row.endsMs = some ends ∧ ends ≤ tx.clock 0))
    (hreq : row.state.running = true → req.advances id = true)
    (h : closeRoute env t db id row state paid = .ok db') : Moves env req tx db db' := by
  unfold closeRoute at h
  simp only [Checked.ite_bind, Checked.bind_ok, Prod.exists] at h
  obtain ⟨j, db₁, hpost, hupdate⟩ := h
  obtain ⟨books, hb, rfl⟩ := Db.postIf_ok hpost
  have hnew : (row.closed t state).state.running = false := by
    show state.running = false
    rcases hend with ⟨-, -, rfl | ⟨rfl, -⟩⟩ | ⟨-, -, rfl, -⟩ <;> rfl
  rw [Db.updateRouteLease_ends hupdate hnew]
  have hmove : Move env req tx db _ := .routeClosed (t := t) hrow hend hb hreq
  exact .single hmove

/-- A sample of a running window leaves it running. -/
theorem RouteLease.sampled_running (h : row.state.running = true) (joint contiguous : Bool)
    (elapsed untilMs : Int) (credits : List (LeaseMember × Bool)) :
    (row.sampled joint contiguous elapsed untilMs credits).state.running = true := by
  unfold RouteLease.sampled
  cases joint
  · rfl
  · exact h

/-- A sample of a window pays its members, writes its row, and closes it at its end. -/
theorem sampleRoute_moves {previous ends : Int} (hrow : db.routeLeases.find? id = some row)
    (hstate : row.state.running = true) (hprev : row.sampleMs = some previous)
    (hends : row.endsMs = some ends) (hnow : previous ≤ tx.clock 0)
    (hreq : req.advances id = true)
    (h : sampleRoute env t db id row (tx.clock 0) previous ends = .ok db') :
    Moves env req tx db db' := by
  unfold sampleRoute at h
  simp only [Checked.ite_bind, Checked.bind_ok, Prod.exists] at h
  obtain ⟨observation, hobs, credits, hcredits, j, db₁, hpost, db₂, hupdate, h⟩ := h
  obtain ⟨books, hb, rfl⟩ := Db.postIf_ok hpost
  have hrunning := RouteLease.sampled_running hstate observation.joint
    (decide (tx.clock 0 - previous ≤ 6000)) (max previous (min (tx.clock 0) ends) - previous)
    (max previous (min (tx.clock 0) ends)) credits
  obtain ⟨hvalid, rfl⟩ := Db.updateRouteLease_running hupdate hstate hrunning
  have hmove : Move env req tx db _ :=
    .routeSampled hrow hstate hprev hends hnow hobs hcredits rfl hvalid hb hreq
  refine (Moves.single hmove).trans ?_
  split at h
  · rename_i hend
    exact closeRoute_moves (Table.find?_set_self hrow)
      (.inr ⟨hrunning, rfl, rfl, ends, hends, hend⟩) (fun _ => hreq) h
  · simp only [Checked.pure_ok] at h
    exact h ▸ .refl _

/-- A window that is advanced is expired, or sampled, or closed. -/
theorem advanceRoute_moves (hrow : db.routeLeases.find? id = some row)
    (hfunded : row.state.funded = true) (hreq : req.advances id = true)
    (h : advanceRoute env tx db id row = .ok db') : Moves env req tx db db' := by
  unfold advanceRoute at h
  split at h
  · rename_i hstate
    dsimp only at h
    split at h
    · rename_i hexp
      exact closeRoute_moves hrow (.inl ⟨hstate, .inl rfl, .inr ⟨rfl, hexp⟩⟩) (fun _ => hreq) h
    · simp only [Checked.pure_ok] at h
      exact h ▸ .refl db
  rename_i hstate
  have hrunning : row.state.running = true := by
    revert hstate hfunded
    cases row.state <;> simp [RouteLeaseState.funded, RouteLeaseState.running]
  simp only [Checked.bind_ok, reference_ok] at h
  obtain ⟨previous, hprev, ends, hends, h⟩ := h
  split at h
  · simp only [Checked.pure_ok] at h
    exact h ▸ .refl db
  · rename_i hnow
    exact sampleRoute_moves hrow hrunning hprev hends (by omega) hreq h

/-- A drained window is at most one change. -/
theorem drainRoute_moves {user : UserId} (hreq : req.advances id = true)
    (h : drainRoute t db user id = .ok db') : Moves env req tx db db' := by
  unfold drainRoute at h
  simp only [Checked.bind_ok, reference_ok] at h
  obtain ⟨row, hrow, h⟩ := h
  split at h
  · rename_i hstate
    obtain ⟨-, rfl⟩ := Db.updateRouteLease_running h hstate rfl
    exact .single (.routeDrained hrow hstate hreq)
  · simp only [Checked.pure_ok] at h
    exact h ▸ .refl db

/-- A cancelled window is closed, or advanced and drained. -/
theorem cancelRoute_moves {user : Actor} (hreq : req.advances id = true)
    (h : cancelRoute env tx db user id = .ok db') : Moves env req tx db db' := by
  unfold cancelRoute at h
  simp only [Checked.bind_ok, needRow_ok, need_ok, exists_const] at h
  obtain ⟨row, hrow, -, h⟩ := h
  split at h
  · rename_i hstate
    exact closeRoute_moves hrow (.inl ⟨hstate, .inr rfl, .inl rfl⟩) (fun _ => hreq) h
  split at h
  · rename_i hstate
    simp only [Checked.bind_ok] at h
    obtain ⟨db₁, hadvance, hdrain⟩ := h
    have hfunded : row.state.funded = true := by
      revert hstate
      cases row.state <;> simp [RouteLeaseState.funded, RouteLeaseState.running]
    exact (advanceRoute_moves hrow hfunded hreq hadvance).trans (drainRoute_moves hreq hdrain)
  · simp only [Checked.pure_ok] at h
    exact h ▸ .refl db

/-- A reconciled window is advanced where it is still funded. -/
theorem reconcileRoute_moves (hreq : req.advances id = true)
    (h : reconcileRoute env tx db id = .ok db') : Moves env req tx db db' := by
  unfold reconcileRoute at h
  split at h
  · rename_i row hrow
    split at h
    · exact advanceRoute_moves hrow ‹_› hreq h
    · simp only [Checked.pure_ok] at h
      exact h ▸ .refl db
  · simp only [Checked.pure_ok] at h
    exact h ▸ .refl db

/-! ### Acceptance -/

/-- The acceptances with that of one more provider, if it had not accepted. -/
theorem RouteLease.accepting_mem (row : RouteLease) (user : UserId) (sha : String)
    (mandate : Option MandateId) :
    ∃ acceptances, (if row.accepted user then row
        else { row with acceptances := row.acceptances ++ [⟨user, sha, mandate⟩] }) =
      { row with acceptances } ∧ (∀ a ∈ row.acceptances, a ∈ acceptances) ∧
        Acceptances row.acceptances acceptances := by
  split
  · exact ⟨row.acceptances, rfl, fun _ h => h, fun h => h⟩
  · rename_i hnew
    refine ⟨_, rfl, fun a h => List.mem_append_left _ h, fun hnodup => ?_⟩
    rw [List.map_append, List.map_singleton]
    refine hnodup.append (List.nodup_singleton _) ?_
    rw [List.disjoint_singleton]
    intro hmem
    obtain ⟨a, ha, huser⟩ := List.mem_map.1 hmem
    exact hnew (List.any_eq_true.2 ⟨a, ha, by simpa using huser⟩)

/-- An acceptance is one change, and the last one activates the window. -/
theorem acceptRouteTransaction_moves {user : UserId} {sha : String} {mandate : Option MandateId}
    (h : acceptRouteTransaction t db user id sha mandate = .ok db') : Moves env req tx db db' := by
  unfold acceptRouteTransaction at h
  simp only [Checked.bind_ok, needRow_ok, need_ok, exists_const] at h
  obtain ⟨row, hrow, -, -, h⟩ := h
  split at h
  · simp only [Checked.pure_ok] at h
    exact h ▸ .refl db
  simp only [Checked.bind_ok, need_ok, exists_const] at h
  obtain ⟨⟨hstate, -⟩, h⟩ := h
  obtain ⟨acceptances, haccepting, hmem, hkeys⟩ := row.accepting_mem user sha mandate
  rw [haccepting] at h
  split at h
  · simp only [Checked.pure_ok] at h
    exact h ▸ .single (.routeAccepted hrow hstate hmem hkeys)
  rename_i hall
  unfold activateRoute at h
  simp only [Checked.bind_ok, need_ok, exists_const] at h
  obtain ⟨-, -, observation, hobs, hjoint, hupdate⟩ := h
  obtain ⟨claims, hclaims, rfl⟩ :=
    Db.updateRouteLease_starts hupdate (by rw [hstate]; rfl) rfl
  refine .single (.routeActivated hrow hstate hmem (fun m hm => ?_) hobs hjoint hclaims hkeys)
  simp only [RouteLease.accepted, not_exists, not_and, Bool.not_eq_false, List.any_eq_true,
    decide_eq_true_eq] at hall
  exact hall m hm

/-! ### Offers -/

/-- What an inserted window posts, what it was checked against, and the row that it adds. -/
theorem insertRouteLease_ok {d : RouteOffer} {route : ExecutionRoute} {terms : LeaseTerms}
    (h : insertRouteLease env t db d route terms = .ok db') :
    ∃ books, db.books.accounts.find? (.routeEscrow terms.leaseId) = none ∧
      Booked env db.xid (db.books.openAccount (.routeEscrow terms.leaseId) .leaseEscrow)
        (.routeFund terms.leaseId)
        [(fundingAccount terms.sponsorId terms.cooperative, -terms.budget),
          (.routeEscrow terms.leaseId, terms.budget)] books ∧
      ((30 ≤ terms.durationSeconds ∧ terms.durationSeconds ≤ 3600) ∧ 0 < terms.rate) ∧
      checkRouteAvailabilityTerms route (newRouteLease env t db.xid d terms) ∧
      ∃ hid : db.routeLeases.find? terms.leaseId = none, db' = { db with
        books
        routeLeases := db.routeLeases.insert terms.leaseId (newRouteLease env t db.xid d terms)
          hid } := by
  unfold insertRouteLease at h
  simp only [Checked.bind_ok, constraint_ok, reference_ok, Checked.pure_ok, exists_const,
    Table.insert?_eq_some, Prod.exists] at h
  obtain ⟨books₁, hopen, j, db₁, hpost, -, ⟨hduration, hrate, -⟩, hcheck, _, ⟨hid, rfl⟩, rfl⟩ := h
  obtain ⟨books, hb, rfl⟩ := Db.post_ok hpost
  have hfresh : db.books.accounts.find? (.routeEscrow terms.leaseId) = none := by
    unfold Ledger.openFresh at hopen
    simp only [Checked.bind_ok, constraint_ok, exists_const] at hopen
    exact hopen.1
  rw [openFresh_ok hopen] at hb
  exact ⟨books, hfresh, hb, ⟨hduration, hrate⟩, hcheck, hid, rfl⟩

/-- **A new window**: the terms that were offered, and the lease inserted under them. -/
theorem offerNewRoute_ok {sponsor : UserId} {d : RouteOffer} {cooperative : Option CoopContext}
    (h : offerNewRoute env t db sponsor d cooperative = .ok (id, db')) :
    ∃ route terms books, ∃ hoffer : RouteOffered env t db d route terms books,
      terms.leaseId = id ∧ terms.routeId = d.routeId ∧ terms.sponsorId = sponsor ∧
      terms.rate = d.rate ∧ terms.durationSeconds = d.durationSeconds ∧ terms.cooperative = cooperative ∧
      db' = { db with
        books
        routeLeases := db.routeLeases.insert terms.leaseId (newRouteLease env t db.xid d terms)
          hoffer.id } := by
  unfold offerNewRoute at h
  simp only [Checked.bind_ok, need_ok, needRow_ok, Checked.pure_ok, exists_const,
    Prod.mk.injEq] at h
  obtain ⟨hcontracts, route, hroute, hready, maxima, hmaxima, hpos, db₁, hinsert, rfl, rfl⟩ := h
  obtain ⟨books, hescrow, hb, ⟨hduration, hrate⟩, hcheck, hid, rfl⟩ := insertRouteLease_ok hinsert
  exact ⟨route, _, books, ⟨hid, hroute, hready, hcontracts, hduration, hrate, rfl, rfl,
    ⟨maxima, hmaxima, hpos, rfl⟩, hcheck, hescrow, hb⟩, rfl, rfl, rfl, rfl, rfl, rfl, rfl⟩

/-- A window that was sent before changes nothing; a new one adds its row. -/
theorem offerRoute_moves {user : Actor} {d : RouteOffer}
    (h : offerRoute env t db user d = .ok (id, db')) : Moves env req tx db db' := by
  unfold offerRoute offerRouteTransaction at h
  simp only [Checked.bind_ok, parse_ok, need_ok, exists_const] at h
  obtain ⟨-, -, h⟩ := h
  split at h
  · simp only [Checked.bind_ok, need_ok, Checked.pure_ok, exists_const, Prod.mk.injEq] at h
    exact h.2.2 ▸ .refl db
  · obtain ⟨route, terms, books, hoffer, -, -, -, -, -, hplain, rfl⟩ := offerNewRoute_ok h
    exact .single (.routeOffered hoffer hplain)

end RouteLease

end NetworkAi
