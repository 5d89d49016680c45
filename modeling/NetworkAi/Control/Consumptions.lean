import NetworkAi.Control.Cooperative
import NetworkAi.Control.Postings
import NetworkAi.Control.Recycling
import NetworkAi.Control.Sessions
import NetworkAi.Ledger.Covered

set_option relaxedAutoImplicit false
set_option autoImplicit false

/-!
# The consumption of one pool

What settlements and refunds of one pool read and write: the ledger, the settled consumption with
its parts, and the refunds. The floor and the targets of a settlement are its arguments.

## Main definitions

* `NetworkAi.PoolConsumption` — what a refund reads of a settled session.
* `NetworkAi.PoolTables` — the tables of the pool.
* `NetworkAi.PoolTables.settle`, `NetworkAi.PoolTables.refund` — the two operations.

## Main results

* `NetworkAi.recycleSettlement_consumption` — `recycleSettlement` records the parts and returns the
  entries of `settle`.
* `NetworkAi.refundConsumption_refund` — `Cooperative.refund` posts the entries of `refund`.
* `NetworkAi.PoolTables.settle_covered`, `NetworkAi.PoolTables.refund_covered` — what the operations
  post when the accounts cover it.
* `NetworkAi.PoolTables.settle_ok`, `NetworkAi.PoolTables.refund_ok` — what their success shows.

## Implementation notes

A session is held and settled for its charge in one step. `randomUUID()` never repeats a result:
the identifiers of journal entries are counted.
-/

namespace NetworkAi

open Relational

/-- What a refund reads of a settled session and its settlement. -/
structure PoolConsumption where
  userId : UserId
  charge : Int
  working : Int
  reserve : Int
  burned : Int
  deriving DecidableEq, Repr

/-- The consumption of a recycled charge. -/
def Recycled.consumption (a : Recycled) (userId : UserId) (charge : Int) : PoolConsumption where
  userId := userId
  charge := charge
  working := a.floor + a.working
  reserve := a.reserve
  burned := a.burned

/-- The consumption of a settlement's row. -/
def Settlement.consumption (s : Settlement) (userId : UserId) : PoolConsumption where
  userId := userId
  charge := s.charge
  working := s.working
  reserve := s.reserve
  burned := s.burned

/-- The entries that move a recycled charge to the accounts of a pool. -/
def recycledEntries (pool : PoolId) (a : Recycled) : List (AccountId × Int) :=
  [(.coopWorking pool, a.floor + a.working), (.coopReserve pool, a.reserve),
    (.coopBurn pool, a.burned)]

/-- The entries of a refund. -/
def PoolConsumption.refundEntries (c : PoolConsumption) (pool : PoolId) : List (AccountId × Int) :=
  [(.coopWorking pool, -c.working), (.coopReserve pool, -c.reserve), (.coopBurn pool, -c.burned),
    (.available c.userId, c.charge)]

/-- The tables that settlements and refunds of a pool use, and the number of the next journal
entry. -/
structure PoolTables where
  books : Books
  consumptions : Table SessionId PoolConsumption
  refunds : Table SessionId JournalId
  next : JournalId

/-- The data of a journal entry. -/
def journalInfo (kind : PostKind) : PostInfo := { kind, createdAt := 0, grant := none }

/-- The entries that a session's hold moves. -/
def reservedEntries (userId : UserId) (charge : Int) : List (AccountId × Int) :=
  [(.available userId, -charge), (.held userId, charge)]

/-- The entries of the settlement of a session whose hold is its charge. -/
def settledEntries (pool : PoolId) (userId : UserId) (charge : Int) (a : Recycled) :
    List (AccountId × Int) :=
  [(.held userId, -charge), (.available userId, charge - charge)] ++ recycledEntries pool a

namespace PoolTables

/-- The hold and the settlement of a session. -/
def settle (le : AccountId → AccountId → Bool) (pool : PoolId) (t : PoolTables) (id : SessionId)
    (userId : UserId) (charge f wt rt : Int) : Except Failure PoolTables := do
  let (_, books) ← t.books.post le 0 t.next (.hold id) (journalInfo .reserve)
    (reservedEntries userId charge)
  let a := recycle charge (books.balance (.coopWorking pool)) (books.balance (.coopReserve pool))
    f wt rt
  constraint (0 < charge ∧ 0 ≤ a.floor + a.working ∧ 0 ≤ a.reserve ∧ 0 ≤ a.burned ∧
    charge = a.floor + a.working + a.reserve + a.burned) "cooperative_settlements_check"
  let consumptions ← reference (t.consumptions.insert? id (a.consumption userId charge))
    "cooperative_settlements_pkey"
  let (_, books) ← books.post le 0 (t.next + 1) (.settle id) (journalInfo .settle)
    (settledEntries pool userId charge a)
  return { t with books, consumptions, next := t.next + 2 }

/-- The refund of a session, and whether it is made now. -/
def refund (le : AccountId → AccountId → Bool) (pool : PoolId) (t : PoolTables) (id : SessionId) :
    Except Failure (Bool × PoolTables) := do
  let c ← needRow (t.consumptions.find? id) 404 "settlement_missing"
    "Consumo cooperativo liquidado não encontrado."
  match t.refunds.find? id with
  | some _ => return (false, t)
  | none =>
    let (journalId, books) ← t.books.post le 0 t.next (.coopRefund id)
      (journalInfo .cooperativeConsumptionRefund) (c.refundEntries pool)
    let refunds ← reference (t.refunds.insert? id journalId) "cooperative_refunds_pkey"
    return (true, { t with books, refunds, next := t.next + 1 })

end PoolTables

/-! ### The operations of the coordinator -/

variable {env : Env} {tx : Tx} {db db' : Db} {id : SessionId}

/-- `recycleSettlement` recycles the charge at the floor and the targets of the snapshot, records
its parts, and returns the entries of the pool. -/
theorem recycleSettlement_consumption {s : Session} {charge : Int}
    {entries : List (AccountId × Int)}
    (h : recycleSettlement tx db id s charge = .ok (entries, db')) :
    ∃ pool p, s.cooperativePoolId = some pool ∧ db.pools.find? pool = some p ∧
      ∃ a row, a = recycle charge (db.books.balance (.coopWorking pool))
          (db.books.balance (.coopReserve pool)) (cooperativeSnapshot (tx.call 0) db pool p).floor
          (cooperativeSnapshot (tx.call 0) db pool p).workingTarget
          (cooperativeSnapshot (tx.call 0) db pool p).reserveTarget ∧
        entries = recycledEntries pool a ∧ db.settlements.find? id = none ∧
        db'.settlements.find? id = some row ∧
        row.consumption s.userId = a.consumption s.userId charge := by
  unfold recycleSettlement at h
  simp only [Checked.bind_ok, needRow_ok, need_ok, constraint_ok, reference_ok, Checked.pure_ok,
    exists_const, Table.insert?_eq_some, Prod.mk.injEq] at h
  obtain ⟨pool, hpool, p, hp, lease, -, -, -, -, _, ⟨hid, rfl⟩, rfl, rfl⟩ := h
  exact ⟨pool, p, hpool, hp, _, _, rfl, rfl, hid, Table.find?_insert_self (h := hid), rfl⟩

/-- The settlement of a session whose hold is its charge posts the entries of `settle`. -/
theorem holdEntries_settle {s : Session} {pool : PoolId} {charge : Int} (a : Recycled)
    (h : s.hold = charge) :
    holdEntries s charge ++ recycledEntries pool a = settledEntries pool s.userId charge a := by
  subst h
  rfl

/-- `Cooperative.refund` returns the refund that there is, or posts the entries of `refund`. -/
theorem refundConsumption_refund {user : Actor} {reason : String}
    (h : refundConsumption env tx db user id reason = .ok db') :
    ∃ session s, db.sessions.find? id = some session ∧ db.settlements.find? id = some s ∧
      ((db.refunds.find? id ≠ none ∧ db' = db) ∨
        (db.refunds.find? id = none ∧ db'.refunds.find? id ≠ none ∧
          db'.settlements = db.settlements ∧
          ∃ j, db.books.post env.accountLe db.xid (tx.uuid 0) (.coopRefund id)
            (tx.posting .cooperativeConsumptionRefund)
            ((s.consumption session.userId).refundEntries s.poolId) = .ok (j, db'.books))) := by
  unfold refundConsumption at h
  simp only [Checked.bind_ok, needRow_ok, need_ok, exists_const] at h
  obtain ⟨-, session, hsession, s, hs, h⟩ := h
  refine ⟨session, s, hsession, hs, ?_⟩
  split at h
  · next old hold =>
    simp only [Checked.pure_ok] at h
    exact .inl ⟨by rw [hold]; exact Option.some_ne_none _, h.symm⟩
  · next hnone =>
    unfold Db.post at h
    simp only [Checked.bind_ok, needRow_ok, constraint_ok, reference_ok, Checked.pure_ok,
      exists_const, Table.insert?_eq_some, Prod.exists, Prod.mk.injEq] at h
    obtain ⟨_, -, j, _, ⟨j', books, hpost, rfl, rfl⟩, -, _, ⟨hid, rfl⟩, rfl⟩ := h
    refine .inr ⟨hnone, ?_, rfl, j', hpost⟩
    rw [Table.find?_insert_self]
    exact Option.some_ne_none _

/-! ### When the operations succeed -/

open Ledger

variable {le : AccountId → AccountId → Bool} {pool : PoolId} {t : PoolTables} {u : UserId}

/-- An account that exists, and stays between zero and the largest amount when `v` enters it. -/
def Takes (books : Books) (account : AccountId) (v : Int) : Prop :=
  (books.accounts.find? account).isSome ∧ 0 ≤ books.balance account + v ∧
    books.balance account + v ≤ maxAmount

/-- An account that a posting does not move takes what it took. -/
theorem takes_of_posted {xid : Nat} {books books' : Books} {j : JournalId} {key : BusinessKey}
    {info : PostInfo} {entries : List (AccountId × Int)} {account : AccountId} {v : Int}
    (h : Posted le xid books j key info entries books')
    (ht : Takes books account (entrySum account entries + v)) : Takes books' account v := by
  refine ⟨(h.isSome_iff account).2 ht.1, ?_⟩
  rw [h.balance account, add_assoc]
  exact ht.2

/-- Entries of distinct accounts that take them are covered. -/
theorem covers_of_takes {books : Books} {entries : List (AccountId × Int)}
    (hnodup : (entries.map Prod.fst).Nodup)
    (h : ∀ e ∈ entries, e.2 ≠ 0 → Takes books e.1 e.2 ∧ e.2 ≤ maxAmount ∧ -maxAmount ≤ e.2) :
    Covers books entries := by
  refine covers_of_entries hnodup fun e he hne => ?_
  obtain ⟨htakes, hmax, hmin⟩ := h e he hne
  exact ⟨htakes.1, htakes.2.1, htakes.2.2, hmax, hmin⟩

namespace PoolTables

/-- What the entries of a hold add to an account. -/
theorem entrySum_reserved (account : AccountId) (charge : Int) :
    entrySum account (reservedEntries u charge) =
      (if .available u = account then -charge else 0) +
        (if .held u = account then charge else 0) := by
  simp [reservedEntries]

/-- What the entries of a recycled charge add to an account. -/
theorem entrySum_settled (account : AccountId) (charge : Int) (a : Recycled) :
    entrySum account (settledEntries pool u charge a) =
      (if .held u = account then -charge else 0) +
        (if .coopWorking pool = account then a.floor + a.working else 0) +
        (if .coopReserve pool = account then a.reserve else 0) +
        (if .coopBurn pool = account then a.burned else 0) := by
  simp [settledEntries, recycledEntries]
  ring

/-- What the entries of a consumption's refund add to an account. -/
theorem entrySum_refund (account : AccountId) (c : PoolConsumption) :
    entrySum account (c.refundEntries pool) =
      (if .coopWorking pool = account then -c.working else 0) +
        (if .coopReserve pool = account then -c.reserve else 0) +
        (if .coopBurn pool = account then -c.burned else 0) +
        (if .available c.userId = account then c.charge else 0) := by
  simp [PoolConsumption.refundEntries]
  ring

/-- A settlement under new keys, whose charge the consumer has, posts the hold and then the parts
of the recycled charge.

**Proof sketch.** The hold moves the charge from the available to the held account, both of which
take it, and no account of the pool. So the balances that the recycling reads are those from before,
and the parts, which sum up to the charge, are taken by the accounts of the second posting. -/
theorem settle_covered (le : AccountId → AccountId → Bool) (pool : PoolId) {id : SessionId}
    {charge f wt rt : Int} (hfresh : t.books.FreshFrom t.next)
    (hhold : t.books.findKey (.hold id) = none) (hsettle : t.books.findKey (.settle id) = none)
    (hnone : t.consumptions.find? id = none) (hq : 0 < charge) (hmax : charge ≤ maxAmount)
    {a : Recycled} (ha : recycle charge (t.books.balance (.coopWorking pool))
      (t.books.balance (.coopReserve pool)) f wt rt = a)
    (havailable : Takes t.books (.available u) (-charge)) (hheld : Takes t.books (.held u) charge)
    (hheld0 : 0 ≤ t.books.balance (.held u))
    (hworking : Takes t.books (.coopWorking pool) (a.floor + a.working))
    (hreserve : Takes t.books (.coopReserve pool) a.reserve)
    (hburn : Takes t.books (.coopBurn pool) a.burned) :
    ∃ books₁ books₂,
      Posted le 0 t.books t.next (.hold id) (journalInfo .reserve) (reservedEntries u charge)
        books₁ ∧
      Posted le 0 books₁ (t.next + 1) (.settle id) (journalInfo .settle)
        (settledEntries pool u charge a) books₂ ∧
      t.settle le pool id u charge f wt rt = .ok { t with
        books := books₂
        consumptions := t.consumptions.insert id (a.consumption u charge) hnone
        next := t.next + 2 } := by
  have hfills : a.Fills charge (t.books.balance (.coopWorking pool))
      (t.books.balance (.coopReserve pool)) f wt rt := ha ▸ recycle_fills hq.le
  have hfloor0 := hfills.floor_nonneg
  have hreserve0 := hfills.reserve_nonneg
  have hworking0 := hfills.working_nonneg
  have hburned0 := hfills.burned_nonneg
  have hsum := hfills.sum
  have hmax0 : (0 : Int) ≤ maxAmount := by decide
  obtain ⟨books₁, hpost₁, hposted₁⟩ := post_of_covers le 0 (journalInfo .reserve)
    (reservedEntries u charge) (a := .held u) hhold hfresh.unused
    (by simp [reservedEntries]) (by rw [entrySum_reserved]; simp; omega)
    (covers_of_takes (by simp [reservedEntries]) (by
      intro e he _
      simp only [reservedEntries, List.mem_cons, List.not_mem_nil, or_false] at he
      rcases he with rfl | rfl
      · exact ⟨havailable, by show -charge ≤ maxAmount; omega, by
          show -maxAmount ≤ -charge
          omega⟩
      · exact ⟨hheld, hmax, by show -maxAmount ≤ charge; omega⟩))
  -- The hold does not move the accounts of the pool.
  have hsame : ∀ account v, (∀ u', account ≠ .available u') → (∀ u', account ≠ .held u') →
      Takes t.books account v → Takes books₁ account v := by
    intro account v hna hnh htakes
    refine takes_of_posted hposted₁ ?_
    rw [entrySum_reserved, if_neg (hna u).symm, if_neg (hnh u).symm, zero_add, zero_add]
    exact htakes
  have hbalance : ∀ account, (∀ u', account ≠ .available u') → (∀ u', account ≠ .held u') →
      books₁.balance account = t.books.balance account := by
    intro account hna hnh
    rw [hposted₁.balance, entrySum_reserved, if_neg (hna u).symm, if_neg (hnh u).symm, zero_add,
      add_zero]
  have hsettle₁ : books₁.findKey (.settle id) = none :=
    (hposted₁.findKey_none (.settle id)).2 ⟨by simp, hsettle⟩
  have hheld₁ : Takes books₁ (.held u) (-charge) := by
    refine takes_of_posted hposted₁ ?_
    rw [entrySum_reserved]
    refine ⟨hheld.1, ?_, ?_⟩
    · simp only [reduceCtorEq, if_false, if_true]
      omega
    · have hle := hheld.2.2
      simp only [reduceCtorEq, if_false, if_true]
      omega
  obtain ⟨books₂, hpost₂, hposted₂⟩ := post_of_covers le 0 (journalInfo .settle)
    (settledEntries pool u charge a) (a := .held u) hsettle₁
    (hposted₁.freshFrom hfresh).unused
    (by simp [settledEntries, recycledEntries]; omega) (by rw [entrySum_settled]; simp; omega)
    (covers_of_takes (by simp [settledEntries, recycledEntries]) (by
      intro e he hne
      simp only [settledEntries, recycledEntries, List.cons_append, List.nil_append, List.mem_cons,
        List.not_mem_nil, or_false] at he
      rcases he with rfl | rfl | rfl | rfl | rfl
      · exact ⟨hheld₁, by show -charge ≤ maxAmount; omega, by
          show -maxAmount ≤ -charge
          omega⟩
      · exact absurd (sub_self charge) hne
      · exact ⟨hsame _ _ (by simp) (by simp) hworking, by show a.floor + a.working ≤ _; omega, by
          show -maxAmount ≤ a.floor + a.working
          omega⟩
      · exact ⟨hsame _ _ (by simp) (by simp) hreserve, by show a.reserve ≤ _; omega, by
          show -maxAmount ≤ a.reserve
          omega⟩
      · exact ⟨hsame _ _ (by simp) (by simp) hburn, by show a.burned ≤ _; omega, by
          show -maxAmount ≤ a.burned
          omega⟩))
  refine ⟨books₁, books₂, hposted₁, hposted₂, ?_⟩
  unfold settle
  simp only [Checked.bind_ok, constraint_ok, reference_ok, Checked.pure_ok, exists_const,
    Table.insert?_eq_some, Prod.exists]
  refine ⟨_, books₁, hpost₁, ?_⟩
  rw [hbalance _ (by simp) (by simp), hbalance _ (by simp) (by simp), ha]
  exact ⟨⟨hq, by omega, hreserve0, hburned0, by omega⟩, _, ⟨hnone, rfl⟩, _, books₂, hpost₂, rfl⟩

/-- A settlement that succeeds is the first under its identifier, and its hold was made. -/
theorem settle_ok {id : SessionId} {charge f wt rt : Int} {t' : PoolTables}
    (h : t.settle le pool id u charge f wt rt = .ok t') : t.consumptions.find? id = none ∧
      (t.books.findKey (.hold id) ≠ none ∨ ∃ books, Posted le 0 t.books t.next (.hold id)
        (journalInfo .reserve) (reservedEntries u charge) books) := by
  unfold settle at h
  simp only [Checked.bind_ok, constraint_ok, reference_ok, Checked.pure_ok, exists_const,
    Table.insert?_eq_some, Prod.exists] at h
  obtain ⟨j, books, hpost, -, -, ⟨hnone, -⟩, -⟩ := h
  refine ⟨hnone, ?_⟩
  rcases post_cases hpost with ⟨hknown, -⟩ | ⟨-, hposted⟩
  · exact .inl (by rw [hknown]; exact Option.some_ne_none _)
  · exact .inr ⟨books, hposted⟩

/-- A refund of a consumption that has none, whose parts the accounts cover, posts them. -/
theorem refund_covered (le : AccountId → AccountId → Bool) (pool : PoolId) {id : SessionId}
    {c : PoolConsumption} (hfresh : t.books.FreshFrom t.next)
    (hc : t.consumptions.find? id = some c) (hnone : t.refunds.find? id = none)
    (hkey : t.books.findKey (.coopRefund id) = none) (hcharge : 0 < c.charge)
    (hmax : c.charge ≤ maxAmount) (hworking0 : 0 ≤ c.working) (hreserve0 : 0 ≤ c.reserve)
    (hburned0 : 0 ≤ c.burned) (hsum : c.working + c.reserve + c.burned = c.charge)
    (hworking : Takes t.books (.coopWorking pool) (-c.working))
    (hreserve : Takes t.books (.coopReserve pool) (-c.reserve))
    (hburn : Takes t.books (.coopBurn pool) (-c.burned))
    (havailable : Takes t.books (.available c.userId) c.charge) :
    ∃ books, Posted le 0 t.books t.next (.coopRefund id) (journalInfo .cooperativeConsumptionRefund)
        (c.refundEntries pool) books ∧
      t.refund le pool id = .ok (true, { t with
        books, refunds := t.refunds.insert id t.next hnone, next := t.next + 1 }) := by
  obtain ⟨books, hpost, hposted⟩ := post_of_covers le 0
    (journalInfo .cooperativeConsumptionRefund) (c.refundEntries pool)
    (a := .available c.userId) hkey hfresh.unused (by simp [PoolConsumption.refundEntries]; omega)
    (by rw [entrySum_refund]; simp; omega)
    (covers_of_takes (by simp [PoolConsumption.refundEntries]) (by
      have hmax0 : (0 : Int) ≤ maxAmount := by decide
      intro e he _
      simp only [PoolConsumption.refundEntries, List.mem_cons, List.not_mem_nil, or_false] at he
      rcases he with rfl | rfl | rfl | rfl
      · exact ⟨hworking, by show -c.working ≤ _; omega, by show -maxAmount ≤ -c.working; omega⟩
      · exact ⟨hreserve, by show -c.reserve ≤ _; omega, by show -maxAmount ≤ -c.reserve; omega⟩
      · exact ⟨hburn, by show -c.burned ≤ _; omega, by show -maxAmount ≤ -c.burned; omega⟩
      · exact ⟨havailable, hmax, by show -maxAmount ≤ c.charge; omega⟩))
  refine ⟨books, hposted, ?_⟩
  unfold refund
  simp only [Checked.bind_ok, needRow_ok]
  refine ⟨c, hc, ?_⟩
  rw [hnone]
  simp only [Checked.bind_ok, reference_ok, Checked.pure_ok, Table.insert?_eq_some, Prod.exists]
  exact ⟨t.next, books, hpost, _, ⟨hnone, rfl⟩, rfl⟩

/-- A refund that succeeds was there, or was made for a consumption that had none. -/
theorem refund_ok {id : SessionId} {b : Bool} {t' : PoolTables}
    (h : t.refund le pool id = .ok (b, t')) : ∃ c, t.consumptions.find? id = some c ∧
      ((t.refunds.find? id ≠ none ∧ b = false ∧ t' = t) ∨
        (t.refunds.find? id = none ∧ (t.books.findKey (.coopRefund id) ≠ none ∨
          ∃ books, Posted le 0 t.books t.next (.coopRefund id)
            (journalInfo .cooperativeConsumptionRefund) (c.refundEntries pool) books))) := by
  unfold refund at h
  simp only [Checked.bind_ok, needRow_ok] at h
  obtain ⟨c, hc, h⟩ := h
  refine ⟨c, hc, ?_⟩
  split at h
  · next old hold =>
    cases h
    exact .inl ⟨by rw [hold]; exact Option.some_ne_none _, rfl, rfl⟩
  · next hnone =>
    simp only [Checked.bind_ok, Prod.exists] at h
    obtain ⟨j, books, hpost, -⟩ := h
    refine .inr ⟨hnone, ?_⟩
    rcases post_cases hpost with ⟨hknown, -⟩ | ⟨-, hposted⟩
    · exact .inl (by rw [hknown]; exact Option.some_ne_none _)
    · exact .inr ⟨books, hposted⟩

end PoolTables

end NetworkAi
