import NetworkAi.Control.Frames

set_option relaxedAutoImplicit false
set_option autoImplicit false

/-!
# The steps of the contracts

What any change of the database does to the contracts of nodes, to the windows of routes and to
their escrows: it writes at most one of them, by one of a few operations, and leaves all others
with their escrows as they were. An invariant of contracts is a case analysis over these operations.

## Main definitions

* `NetworkAi.NodeLease.Written`, `NetworkAi.RouteLease.Written` — what a change does to the one
  contract or window that it writes.
* `NetworkAi.NodeLeasesBut`, `NetworkAi.RouteLeasesBut` — the others stay as they are.

## Main results

* `NetworkAi.Change.lease_cases` — a change writes at most one contract or window.
-/

namespace NetworkAi

open Relational

variable {env : Env} {req : Request} {tx : Tx} {db db' : Db}

/-! ### What a change writes -/

/-- **What a change does to the one contract of a node that it writes.** -/
inductive NodeLease.Written (env : Env) (db db' : Db) (id : LeaseId) : NodeLease → Prop
  | offered {l : NodeLease} (hid : db.nodeLeases.find? id = none) (hstate : l.state = .offered)
      (hnew : l.paid = 0 ∧ l.credited = 0 ∧ l.sampleMs = none)
      (hbudget : l.budget = l.rate * l.durationSeconds) (hrate : 0 < l.rate)
      (hb : Booked env db.xid (db.books.openAccount (.leaseEscrow id) .leaseEscrow) (.leaseFund id)
        [(.available l.sponsorId, -l.budget), (.leaseEscrow id, l.budget)] db'.books) :
      NodeLease.Written env db db' id l
  | activated {row : NodeLease} {now : Int} {epoch : Nat}
      (hrow : db.nodeLeases.find? id = some row) (hstate : row.state = .offered)
      (hb : db'.books = db.books) : NodeLease.Written env db db' id (row.activated now epoch)
  | sampled {row : NodeLease} {node : NodeObservation} {now previous ends : Int}
      (hrow : db.nodeLeases.find? id = some row) (hstate : row.state = .active)
      (hprev : row.sampleMs = some previous) (hends : row.endsMs = some ends)
      (hb : BookedIf (row.paid < (row.sampled node now previous ends).credited * row.rate / 1000)
        env db.xid db.books (.leasePay id (row.sampled node now previous ends).credited)
        [(.leaseEscrow id,
            row.paid - (row.sampled node now previous ends).credited * row.rate / 1000),
          (.available row.providerId,
            (row.sampled node now previous ends).credited * row.rate / 1000 - row.paid)]
        db'.books) :
      NodeLease.Written env db db' id (row.sampled node now previous ends)
  | closed {t : Tx} {row : NodeLease} {state : NodeLeaseState}
      (hrow : db.nodeLeases.find? id = some row) (hopen : row.state.isOpen = true)
      (hstate : state.isOpen = false)
      (hb : BookedIf (0 < row.budget - row.paid) env db.xid db.books (.leaseRefund id)
        [(.leaseEscrow id, -(row.budget - row.paid)),
          (.available row.sponsorId, row.budget - row.paid)] db'.books) :
      NodeLease.Written env db db' id (row.closed t state)

/-- **What a change does to the one window that it writes.** -/
inductive RouteLease.Written (env : Env) (req : Request) (tx : Tx) (db db' : Db) (id : LeaseId) :
    RouteLease → Prop
  | offered {t : Tx} {d : RouteOffer} {route : ExecutionRoute} {terms : LeaseTerms}
      (h : RouteOffered env t db d route terms db'.books) (hid : terms.leaseId = id) :
      RouteLease.Written env req tx db db' id (newRouteLease env t db.xid d terms)
  | accepted {row : RouteLease} {acceptances : List LeaseAcceptance}
      (hrow : db.routeLeases.find? id = some row) (hstate : row.state = .offered)
      (hb : db'.books = db.books) :
      RouteLease.Written env req tx db db' id { row with acceptances }
  | activated {row : RouteLease} {acceptances : List LeaseAcceptance} {observation : Observation}
      {now : Int} (hrow : db.routeLeases.find? id = some row) (hstate : row.state = .offered)
      (hobs : observeRoute db { row with acceptances } now = .ok observation)
      (hjoint : observation.joint = true) (hb : db'.books = db.books) :
      RouteLease.Written env req tx db db' id
        (({ row with acceptances } : RouteLease).activated observation now)
  | sampled {row sampled : RouteLease} {now previous ends : Int} {observation : Observation}
      {credits : List (LeaseMember × Bool)} (hrow : db.routeLeases.find? id = some row)
      (hstate : row.state.running = true) (hprev : row.sampleMs = some previous)
      (hends : row.endsMs = some ends) (hnow : previous ≤ now)
      (hobs : observeRoute db row now = .ok observation)
      (hcredits : observation.members.mapM (creditMember row
        (max previous (min now ends) - previous) (now - previous ≤ 6000)) = .ok credits)
      (hsampled : sampled = row.sampled observation.joint (now - previous ≤ 6000)
        (max previous (min now ends) - previous) (max previous (min now ends)) credits)
      (hb : BookedIf (0 < sampled.paid - row.paid) env db.xid db.books (.routePay id sampled.paid)
        (paymentLines id row.members sampled.members (sampled.paid - row.paid)) db'.books)
      (hreq : req.advances id = true) : RouteLease.Written env req tx db db' id sampled
  | drained {t : Tx} {user : UserId} {row : RouteLease}
      (hrow : db.routeLeases.find? id = some row) (hstate : row.state.running = true)
      (hb : db'.books = db.books) (hreq : req.advances id = true) :
      RouteLease.Written env req tx db db' id (row.drained t user)
  | closed {t : Tx} {row : RouteLease} {state : RouteLeaseState} {paid : Int}
      (hrow : db.routeLeases.find? id = some row)
      (hend : (row.state = .offered ∧ (paid = 0 ∨ paid = row.paid) ∧
          (state = .cancelled ∨ (state = .expired ∧ toMs row.offerExpiresAt ≤ tx.clock 0))) ∨
        (row.state.running = true ∧ paid = row.paid ∧ state = .completed ∧
          ∃ ends, row.endsMs = some ends ∧ ends ≤ tx.clock 0))
      (hb : BookedIf (0 < row.budget - paid) env db.xid db.books (.routeRefund id)
        [(.routeEscrow id, -(row.budget - paid)),
          (fundingAccount row.sponsorId row.terms.cooperative, row.budget - paid)] db'.books)
      (hreq : row.state.running = true → req.advances id = true) :
      RouteLease.Written env req tx db db' id (row.closed t state)

/-! ### What a change leaves alone -/

/-- The escrows of contracts and windows. -/
def AccountId.isEscrow : AccountId → Bool
  | .leaseEscrow _ | .routeEscrow _ => true
  | _ => false

/-- The business keys of refunds from escrows. -/
def BusinessKey.isRefund : BusinessKey → Bool
  | .leaseRefund _ | .routeRefund _ => true
  | _ => false

/-- The escrows of some contracts and windows. -/
def escrowsOf (nodes routes : List LeaseId) : List AccountId :=
  nodes.map .leaseEscrow ++ routes.map .routeEscrow

/-- The business keys of the refunds of some contracts and windows. -/
def refundsOf (nodes routes : List LeaseId) : List BusinessKey :=
  nodes.map .leaseRefund ++ routes.map .routeRefund

/-- A change of the books that concerns no escrow and no refund but those of some contracts and
windows. -/
structure EscrowsBut (nodes routes : List LeaseId) (books books' : Books) : Prop where
  balance : ∀ a, a.isEscrow = true → a ∉ escrowsOf nodes routes →
    books'.balance a = books.balance a
  keys : ∀ key, key.isRefund = true → key ∉ refundsOf nodes routes →
    (books'.findKey key = none ↔ books.findKey key = none)

section EscrowsBut

variable {nodes routes : List LeaseId} {books books' : Books} {key : BusinessKey}
  {entries : List (AccountId × Int)} {xid : Nat}

/-- No change of the books concerns no escrow. -/
theorem EscrowsBut.refl (nodes routes : List LeaseId) (books : Books) :
    EscrowsBut nodes routes books books :=
  ⟨fun _ _ _ => rfl, fun _ _ _ => Iff.rfl⟩

/-- An account that was opened before a change moves no escrow. -/
theorem EscrowsBut.openAccount {a : AccountId} {kind : AccountKind}
    (h : EscrowsBut nodes routes (books.openAccount a kind) books') :
    EscrowsBut nodes routes books books' where
  balance b hb hown := by rw [h.balance b hb hown, balance_openAccount]
  keys key hkey hown := by rw [h.keys key hkey hown, findKey_openAccount]

/-- A posting that names no escrow and refunds none, but some. -/
theorem BookedIf.escrowsBut {c : Prop} (h : BookedIf c env xid books key entries books')
    (nodes routes : List LeaseId)
    (hkey : key.isRefund = false ∨ key ∈ refundsOf nodes routes)
    (hentries : ∀ e ∈ entries, e.1.isEscrow = false ∨ e.1 ∈ escrowsOf nodes routes) :
    EscrowsBut nodes routes books books' where
  balance a ha hown := by
    refine h.balance_of_not_named fun e he heq => ?_
    rcases hentries e he with hfree | hmem
    · rw [heq, ha] at hfree
      cases hfree
    · exact hown (heq ▸ hmem)
  keys k hk hown := by
    refine h.findKey_ne fun heq => ?_
    rcases hkey with hfree | hmem
    · rw [← heq, hk] at hfree
      cases hfree
    · exact hown (heq ▸ hmem)

/-- A posting that names no escrow and refunds none, but some. -/
theorem Booked.escrowsBut (h : Booked env xid books key entries books')
    (nodes routes : List LeaseId)
    (hkey : key.isRefund = false ∨ key ∈ refundsOf nodes routes)
    (hentries : ∀ e ∈ entries, e.1.isEscrow = false ∨ e.1 ∈ escrowsOf nodes routes) :
    EscrowsBut nodes routes books books' :=
  BookedIf.escrowsBut (c := True) (.inl ⟨trivial, h⟩) nodes routes hkey hentries

end EscrowsBut

/-- The contracts of nodes but for some, with their escrows and their refunds, stay as they are. -/
def NodeLeasesBut (db db' : Db) (ids : List LeaseId) : Prop :=
  ∀ id, id ∉ ids → db'.nodeLeases.find? id = db.nodeLeases.find? id ∧
    db'.books.balance (.leaseEscrow id) = db.books.balance (.leaseEscrow id) ∧
    (db'.books.findKey (.leaseRefund id) = none ↔ db.books.findKey (.leaseRefund id) = none)

/-- The windows but for some, with their escrows and their refunds, stay as they are. -/
def RouteLeasesBut (db db' : Db) (ids : List LeaseId) : Prop :=
  ∀ id, id ∉ ids → db'.routeLeases.find? id = db.routeLeases.find? id ∧
    db'.books.balance (.routeEscrow id) = db.books.balance (.routeEscrow id) ∧
    (db'.books.findKey (.routeRefund id) = none ↔ db.books.findKey (.routeRefund id) = none)

/-- The contracts and windows but for some stay as they are. -/
def LeasesBut (db db' : Db) (nodes routes : List LeaseId) : Prop :=
  NodeLeasesBut db db' nodes ∧ RouteLeasesBut db db' routes

/-- Contracts and windows stay when the change of the books concerns the escrows of some, and no
other row is written. -/
theorem EscrowsBut.leases {nodes routes : List LeaseId}
    (h : EscrowsBut nodes routes db.books db'.books)
    (hnodes : ∀ id, id ∉ nodes → db'.nodeLeases.find? id = db.nodeLeases.find? id)
    (hroutes : ∀ id, id ∉ routes → db'.routeLeases.find? id = db.routeLeases.find? id) :
    LeasesBut db db' nodes routes := by
  refine ⟨fun id hid => ⟨hnodes id hid, h.balance _ rfl ?_, h.keys _ rfl ?_⟩,
    fun id hid => ⟨hroutes id hid, h.balance _ rfl ?_, h.keys _ rfl ?_⟩⟩ <;>
  simpa [escrowsOf, refundsOf] using hid

/-- No part of a charge goes to an escrow. -/
theorem Split.not_isEscrow {k : SessionId} {s s' : Session} {charge : Int}
    {entries : List (AccountId × Int)} {settlements : Table SessionId Settlement}
    (h : Split db k s charge entries s' settlements) : ∀ e ∈ entries, e.1.isEscrow = false := by
  intro e he
  cases h with
  | free => cases he
  | recycled =>
    simp only [List.mem_cons, List.not_mem_nil, or_false] at he
    rcases he with rfl | rfl | rfl <;> rfl
  | route =>
    simp only [List.mem_append, List.mem_map, List.mem_singleton] at he
    rcases he with ⟨p, -, rfl⟩ | rfl <;> rfl
  | node =>
    simp only [List.mem_cons, List.not_mem_nil, or_false] at he
    rcases he with rfl | rfl <;> rfl

/-- The account that funds a window is no escrow. -/
theorem fundingAccount_not_isEscrow (sponsor : UserId) (c : Option CoopContext) :
    (fundingAccount sponsor c).isEscrow = false := by
  unfold fundingAccount FundSource.account
  split
  · split <;> rfl
  · rfl

/-- A payment of a window names its own escrow alone. -/
theorem paymentLines_not_escrow {id : LeaseId} {before after : List LeaseMember} {delta : Int}
    {e : AccountId × Int} (he : e ∈ paymentLines id before after delta) :
    e.1.isEscrow = false ∨ e.1 = .routeEscrow id := by
  unfold paymentLines at he
  simp only [List.mem_append, List.mem_filterMap, List.mem_singleton] at he
  rcases he with ⟨p, -, hp⟩ | rfl
  · split at hp
    · simp only [Option.some.injEq] at hp
      rw [← hp]
      exact .inl rfl
    · cases hp
  · exact .inr rfl

/-- **A change writes at most one contract or window**, and leaves all others with their
escrows.

**Proof sketch.** By the move. The moves of the contracts and windows write one row and post to its
own escrow alone. All other moves that post name no escrow at all, as their entries show, and leave
both tables alone. -/
theorem Change.lease_cases (h : Change env req tx db db') :
    LeasesBut db db' [] [] ∨
      (∃ id l, db'.nodeLeases.find? id = some l ∧ NodeLease.Written env db db' id l ∧
        LeasesBut db db' [id] []) ∨
      ∃ id l, db'.routeLeases.find? id = some l ∧ RouteLease.Written env req tx db db' id l ∧
        LeasesBut db db' [] [id] := by
  have hsame : EscrowsBut [] [] db.books db.books := .refl _ _ _
  have hrows : ∀ {β : Type} (t : Table LeaseId β), ∀ id ∉ ([] : List LeaseId),
      t.find? id = t.find? id := fun _ _ _ => rfl
  rcases h with h | h
  · cases h with
    | accounts u =>
      have hbooks : EscrowsBut [] [] db.books (createAccounts db.books u) :=
        (EscrowsBut.refl _ _ _).openAccount.openAccount
      exact .inl (hbooks.leases (hrows _) (hrows _))
    | @granted key user amount books hkey hb =>
      have hbooks : EscrowsBut [] [] db.books books := by
        refine hb.escrowsBut [] [] (.inl ?_) (by simp [AccountId.isEscrow])
        rcases hkey with rfl | ⟨_, rfl⟩ <;> rfl
      exact .inl (hbooks.leases (hrows _) (hrows _))
    | sessionCreated _ _ _ _ hb =>
      have hbooks := hb.escrowsBut [] [] (.inl rfl)
        (by simp [AccountId.isEscrow])
      exact .inl (hbooks.leases (hrows _) (hrows _))
    | sessionFinalized _ _ _ _ _ _ hsplit hb =>
      have hbooks := hb.escrowsBut [] [] (.inl rfl) fun e he => .inl ?_
      · exact .inl (hbooks.leases (hrows _) (hrows _))
      rcases List.mem_append.1 he with he | he
      · simp only [holdEntries, List.mem_cons, List.not_mem_nil, or_false] at he
        rcases he with rfl | rfl <;> rfl
      · exact hsplit.not_isEscrow e he
    | consumptionRefunded _ _ _ hb =>
      have hbooks := hb.escrowsBut [] [] (.inl rfl)
        (by simp [refundEntries, AccountId.isEscrow])
      exact .inl (hbooks.leases (hrows _) (hrows _))
    | @nodeLeaseOffered id l books hid hstate hnew hbudget hrate _ _ hb =>
      have hbooks := (hb.escrowsBut [id] []
        (.inl rfl) (by simp [AccountId.isEscrow, escrowsOf])).openAccount
      refine .inr (.inl ⟨id, l, Table.find?_insert_self (h := hid),
        .offered hid hstate hnew hbudget hrate hb, hbooks.leases (fun k hk => ?_) (hrows _)⟩)
      have hk : id ≠ k := by simpa [eq_comm] using hk
      rw [Table.find?_insert, if_neg hk]
    | @nodeLeaseActivated id row now epoch claims hrow hstate =>
      refine .inr (.inl ⟨id, _, Table.find?_set_self hrow, .activated hrow hstate rfl,
        EscrowsBut.leases (.refl _ _ _) (fun k hk => ?_) (hrows _)⟩)
      exact Table.find?_set_ne (by simpa using hk)
    | @nodeLeaseSampled id row node now previous ends books hrow hstate hprev hends _ _ hb =>
      have hbooks := hb.escrowsBut [id] []
        (.inl rfl) (by simp [AccountId.isEscrow, escrowsOf])
      refine .inr (.inl ⟨id, _, Table.find?_set_self hrow, .sampled hrow hstate hprev hends hb,
        hbooks.leases (fun k hk => ?_) (hrows _)⟩)
      exact Table.find?_set_ne (by simpa using hk)
    | @nodeLeaseClosed t id row state books hrow hopen hstate hb =>
      have hbooks := hb.escrowsBut [id] []
        (.inr (by simp [refundsOf]))
        (by simp [AccountId.isEscrow, escrowsOf])
      refine .inr (.inl ⟨id, _, Table.find?_set_self hrow, .closed hrow hopen hstate hb,
        hbooks.leases (fun k hk => ?_) (hrows _)⟩)
      exact Table.find?_set_ne (by simpa using hk)
    | @routeOffered t d route terms books h | @windowOffered t d route terms books _ _ _ _ h =>
      have hbooks := (h.booked.escrowsBut [] [terms.leaseId] (.inl rfl)
        (by simp [fundingAccount_not_isEscrow, escrowsOf])).openAccount
      refine .inr (.inr ⟨terms.leaseId, _, Table.find?_insert_self (h := h.id), .offered h rfl,
        hbooks.leases (hrows _) fun k hk => ?_⟩)
      have hk : terms.leaseId ≠ k := by simpa [eq_comm] using hk
      rw [Table.find?_insert, if_neg hk]
    | @routeAccepted id row acceptances hrow hstate =>
      refine .inr (.inr ⟨id, _, Table.find?_set_self hrow, .accepted hrow hstate rfl,
        EscrowsBut.leases (.refl _ _ _) (hrows _) fun k hk => ?_⟩)
      exact Table.find?_set_ne (by simpa using hk)
    | @routeActivated id row acceptances observation now claims hrow hstate _ _ hobs hjoint =>
      refine .inr (.inr ⟨id, _, Table.find?_set_self hrow, .activated hrow hstate hobs hjoint rfl,
        EscrowsBut.leases (.refl _ _ _) (hrows _) fun k hk => ?_⟩)
      exact Table.find?_set_ne (by simpa using hk)
    | @routeSampled id row now previous ends observation credits books sampled hrow hstate hprev
        hends hnow hobs hcredits hsampled _ hb hreq =>
      have hbooks := hb.escrowsBut [] [id]
        (.inl rfl) fun e he => (paymentLines_not_escrow he).imp_right fun h => by simp [h, escrowsOf]
      refine .inr (.inr ⟨id, _, Table.find?_set_self hrow,
        .sampled hrow hstate hprev hends hnow hobs hcredits hsampled hb hreq,
        hbooks.leases (hrows _) fun k hk => ?_⟩)
      exact Table.find?_set_ne (by simpa using hk)
    | @routeDrained t user id row hrow hstate hreq =>
      refine .inr (.inr ⟨id, _, Table.find?_set_self hrow, .drained hrow hstate rfl hreq,
        EscrowsBut.leases (.refl _ _ _) (hrows _) fun k hk => ?_⟩)
      exact Table.find?_set_ne (by simpa using hk)
    | @routeClosed t id row state paid books hrow hend hb hreq =>
      have hbooks := hb.escrowsBut [] [id]
        (.inr (by simp [refundsOf]))
        (by simp [fundingAccount_not_isEscrow, escrowsOf])
      refine .inr (.inr ⟨id, _, Table.find?_set_self hrow, .closed hrow hend hb hreq,
        hbooks.leases (hrows _) fun k hk => ?_⟩)
      exact Table.find?_set_ne (by simpa using hk)
    | @poolCreated id =>
      have hbooks : EscrowsBut [] [] db.books (((db.books.openAccount (.coopWorking id)
          .coopWorking).openAccount (.coopReserve id) .coopCoreReserve).openAccount (.coopBurn id)
          .coopBurn) := (EscrowsBut.refl _ _ _).openAccount.openAccount.openAccount
      exact .inl (hbooks.leases (hrows _) (hrows _))
    | @funded _ f _ _ _ hb =>
      have hbooks := hb.escrowsBut [] [] (.inl rfl) fun e he => .inl ?_
      · exact .inl (hbooks.leases (hrows _) (hrows _))
      simp only [List.mem_cons, List.not_mem_nil, or_false] at he
      rcases he with rfl | rfl
      · rfl
      · cases f.destination <;> rfl
    | _ => exact .inl (hsame.leases (hrows _) (hrows _))
  · cases h <;> exact .inl (hsame.leases (hrows _) (hrows _))

end NetworkAi
