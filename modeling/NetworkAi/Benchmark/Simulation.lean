import NetworkAi.Benchmark.Pools
import NetworkAi.Lib.LockStep

set_option relaxedAutoImplicit false
set_option autoImplicit false

/-!
# The pool and the reference ledger in lock step

The tables of a pool post the parts of charges and refunds between accounts that may not be
negative; the reference ledger moves holds and reservations. From equal balances they give the same
answers to settlements and requests for refunds, and keep the balances equal.

## Main definitions

* `NetworkAi.Benchmark.Start` — where both start.
* `NetworkAi.Benchmark.Mirror` — the relation that they stay in.

## Main results

* `NetworkAi.Benchmark.Mirror.settle`, `NetworkAi.Benchmark.Mirror.refund` — what a request
  preserves.
* `NetworkAi.Benchmark.pool_lock_step` — equal balances and answers after every sequence of
  requests.

## Implementation notes

The burned parts stay in the ledger's exposure bound because what the pool has burned and what
exists never exceed what existed at the start.
-/

namespace NetworkAi.Benchmark

open Relational Checked Machine

/-! ### The relation -/

/-- What has not been given back of the burned parts. -/
def outstanding (t : PoolTables) : Int :=
  t.consumptions.sum fun id c => if t.refunds.find? id = none then c.burned else 0

/-- A consumption in the reference ledger. -/
def refillOf (names : Names) (c : PoolConsumption) : Refill :=
  ⟨names.owner c.userId, c.working, c.reserve, c.burned⟩

/-- The parts of a consumption. -/
structure PartsOf (c : PoolConsumption) : Prop where
  charge : 0 < c.charge
  working : 0 ≤ c.working
  reserve : 0 ≤ c.reserve
  burned : 0 ≤ c.burned
  sum : c.working + c.reserve + c.burned = c.charge

/-- No reversal has been made under the names of a session. -/
def Unreversed (names : Names) (l : Ledger) (id : SessionId) : Prop :=
  ¬ l.Used (names.reversal id) ∧ ¬ l.Used (names.reversal id ++ ":w") ∧
    ¬ l.Used (names.reversal id ++ ":r")

/-- What the two have of one session. -/
structure SessionMirror (names : Names) (t : PoolTables) (l : Ledger) (id : SessionId) : Prop where
  unsettled : t.consumptions.find? id = none → ¬ l.Used (names.usage id) ∧
    t.books.findKey (.hold id) = none ∧ t.books.findKey (.settle id) = none ∧
    t.refunds.find? id = none ∧ l.refillRecords.find? (names.usage id) = none
  settled : ∀ c, t.consumptions.find? id = some c → names.usage id ∈ l.closed ∧ PartsOf c ∧
    (t.books.accounts.find? (.available c.userId)).isSome
  unrefunded : t.refunds.find? id = none → Unreversed names l id ∧
    t.books.findKey (.coopRefund id) = none ∧ ∀ c, t.consumptions.find? id = some c →
      l.refillRecords.find? (names.usage id) = some (refillOf names c)
  refunded : t.refunds.find? id ≠ none → l.refillRecords.find? (names.usage id) = none

/-- The relation between the tables of a pool and the reference ledger; `d` is the difference
between the burn account and what the ledger has burned and not reinstated, and `total` what exists
or has been burned. -/
structure Mirror (names : Names) (pool : PoolId) (d total : Int) (t : PoolTables) (l : Ledger) :
    Prop where
  sound : Sound 0 l
  working : t.books.balance (.coopWorking pool) = l.balance working
  reserve : t.books.balance (.coopReserve pool) = l.balance reserve
  burned : t.books.balance (.coopBurn pool) = l.burned - l.reinstated + d
  users : ∀ u, t.books.balance (.available u) = l.balance (names.owner u)
  pools : (t.books.accounts.find? (.coopWorking pool)).isSome ∧
    (t.books.accounts.find? (.coopReserve pool)).isSome ∧
    (t.books.accounts.find? (.coopBurn pool)).isSome
  kinds : ∀ a row, t.books.accounts.find? a = some row → a ≠ .issuer → row.kind ≠ .labIssuer
  helds : ∀ u, (t.books.accounts.find? (.available u)).isSome →
    (t.books.accounts.find? (.held u)).isSome
  held : ∀ u, 0 ≤ t.books.balance (.held u) ∧ t.books.balance (.held u) + total ≤ maxInteger
  totals : l.exposure + t.books.balance (.coopBurn pool) = total
  bound : total ≤ maxInteger
  outstanding : outstanding t ≤ t.books.balance (.coopBurn pool)
  fresh : t.books.FreshFrom t.next
  sessions : ∀ id, SessionMirror names t l id

variable {names : Names} {pool : PoolId} {d total : Int} {t : PoolTables} {l : Ledger}
  {le : AccountId → AccountId → Bool}

/-- The burned part of a consumption that was not refunded is in the burn account. -/
theorem Mirror.burned_covered (h : Mirror names pool d total t l) {id : SessionId}
    {c : PoolConsumption} (hc : t.consumptions.find? id = some c) (hnone : t.refunds.find? id = none) :
    c.burned ≤ t.books.balance (.coopBurn pool) := by
  have hone : (if t.refunds.find? id = none then c.burned else 0) ≤ Benchmark.outstanding t := by
    refine Table.le_sum (g := fun id (c : PoolConsumption) =>
      if t.refunds.find? id = none then c.burned else 0) hc fun id' c' hr => ?_
    split
    · exact (((h.sessions id').settled c' (Table.find?_eq_some.2 hr)).2.1).burned
    · exact le_rfl
  rw [if_pos hnone] at hone
  exact hone.trans h.outstanding

/-- What a mirrored pool has burned is nonnegative. -/
theorem Mirror.burn_nonneg (h : Mirror names pool d total t l) :
    0 ≤ t.books.balance (.coopBurn pool) := by
  refine le_trans ?_ h.outstanding
  refine Table.sum_nonneg fun id c hr => ?_
  split
  · exact (((h.sessions id).settled c (Table.find?_eq_some.2 hr)).2.1).burned
  · exact le_rfl

/-- An account with something in it exists. -/
theorem isSome_of_balance {books : Books} {a : AccountId} (h : 0 < books.balance a) :
    (books.accounts.find? a).isSome := by
  cases hfind : books.accounts.find? a with
  | some row => rfl
  | none =>
    rw [NetworkAi.Ledger.balance_eq_zero hfind] at h
    exact absurd h (lt_irrefl 0)

/-- The kinds of accounts after a posting. -/
theorem kinds_of_posted {xid : Nat} {books books' : Books} {j : JournalId} {key : BusinessKey}
    {info : PostInfo} {entries : List (AccountId × Int)}
    (h : NetworkAi.Ledger.Posted le xid books j key info entries books')
    (hkinds : ∀ a row, books.accounts.find? a = some row → a ≠ .issuer → row.kind ≠ .labIssuer) :
    ∀ a row, books'.accounts.find? a = some row → a ≠ .issuer → row.kind ≠ .labIssuer := by
  intro a row hrow hne
  obtain ⟨old, hold, hkind⟩ := h.kind hrow
  rw [hkind]
  exact hkinds a old hold hne

/-! ### Settlements -/

/-- The names of the reversals stay unused when only the name of a settlement was used. -/
theorem Unreversed.settle {l' : Ledger} {id id' : SessionId} (h : Unreversed names l id')
    (hused : ∀ k, l'.Used k → k = names.usage id ∨ l.Used k) : Unreversed names l' id' := by
  obtain ⟨hne, hnew, hner⟩ := names.usage_ne id id'
  obtain ⟨hkey, hw, hr⟩ := h
  refine ⟨fun hk => ?_, fun hk => ?_, fun hk => ?_⟩
  · exact (hused _ hk).elim (fun he => hne he.symm) hkey
  · exact (hused _ hk).elim (fun he => hnew he.symm) hw
  · exact (hused _ hk).elim (fun he => hner he.symm) hr

/-- The sessions after a settlement that took effect.

**Proof sketch.** The session that is settled has its consumption and its record under keys that
were new; nothing of it is reversed. Another session has other keys (`usage_inj`), so that the two
inserts and the two postings do not concern it. -/
theorem SessionMirror.settle {l' : Ledger} {id : SessionId} {u : UserId} {charge : Int}
    {a : Recycled} {books₁ books₂ : Books} (hall : ∀ id', SessionMirror names t l id')
    (hset : Settled names l id u charge a l')
    (hposted₁ : NetworkAi.Ledger.Posted le 0 t.books t.next (.hold id) (journalInfo .reserve)
      (reservedEntries u charge) books₁)
    (hposted₂ : NetworkAi.Ledger.Posted le 0 books₁ (t.next + 1) (.settle id)
      (journalInfo .settle) (settledEntries pool u charge a) books₂)
    (hnone : t.consumptions.find? id = none)
    (huser : (t.books.accounts.find? (.available u)).isSome)
    (hparts : PartsOf (a.consumption u charge)) (id' : SessionId) :
    SessionMirror names { t with
      books := books₂
      consumptions := t.consumptions.insert id (a.consumption u charge) hnone
      next := t.next + 2 } l' id' := by
  have h := hall id'
  have hkeys : ∀ key : BusinessKey, key ≠ .hold id → key ≠ .settle id →
      t.books.findKey key = none → books₂.findKey key = none := by
    intro key hh hs hk
    exact (hposted₂.findKey_none key).2 ⟨hs, (hposted₁.findKey_none key).2 ⟨hh, hk⟩⟩
  have haccounts : ∀ account, (books₂.accounts.find? account).isSome =
      (t.books.accounts.find? account).isSome := by
    intro account
    rw [Bool.eq_iff_iff, hposted₂.isSome_iff, hposted₁.isSome_iff]
  by_cases hid : id = id'
  · subst hid
    obtain ⟨-, -, -, hrefund, -⟩ := h.unsettled hnone
    obtain ⟨hunreversed, hcoop, -⟩ := h.unrefunded hrefund
    have hself : (t.consumptions.insert id (a.consumption u charge) hnone).find? id =
        some (a.consumption u charge) := Table.find?_insert_self
    refine ⟨fun hn => ?_, fun c hc => ?_, fun _ => ⟨hunreversed.settle hset.used, ?_, ?_⟩, ?_⟩
    · exact absurd (hself.symm.trans hn) (Option.some_ne_none _)
    · obtain rfl := Option.some.inj (hself.symm.trans hc)
      refine ⟨by rw [hset.closed]; exact List.mem_cons_self, hparts, ?_⟩
      exact (haccounts _).symm ▸ huser
    · exact hkeys _ (by simp) (by simp) hcoop
    · intro c hc
      obtain rfl := Option.some.inj (hself.symm.trans hc)
      rw [hset.records, Table.find?_put_self]
      rfl
    · exact fun hrefunded => absurd hrefund hrefunded
  · have hother : (t.consumptions.insert id (a.consumption u charge) hnone).find? id' =
        t.consumptions.find? id' := Table.find?_insert_ne hid
    have husage : names.usage id' ≠ names.usage id := fun he => hid (names.usage_inj he).symm
    have hrecord : l'.refillRecords.find? (names.usage id') =
        l.refillRecords.find? (names.usage id') := by
      rw [hset.records, Table.find?_put_ne husage]
    refine ⟨fun hn => ?_, fun c hc => ?_, fun hrefund => ?_, fun hrefunded => ?_⟩
    · obtain ⟨hunused, hhold, hsettle, hrefund, hnorecord⟩ := h.unsettled (hother.symm.trans hn)
      refine ⟨fun hused => (hset.used _ hused).elim husage hunused, ?_, ?_, hrefund,
        hrecord.trans hnorecord⟩
      · exact hkeys _ (by simpa using Ne.symm hid) (by simp) hhold
      · exact hkeys _ (by simp) (by simpa using Ne.symm hid) hsettle
    · obtain ⟨hclosed, hpartsc, hsome⟩ := h.settled c (hother.symm.trans hc)
      exact ⟨by rw [hset.closed]; exact List.mem_cons_of_mem _ hclosed, hpartsc,
        (haccounts _).symm ▸ hsome⟩
    · obtain ⟨hunreversed, hcoop, hopen⟩ := h.unrefunded hrefund
      refine ⟨hunreversed.settle hset.used, hkeys _ (by simp) (by simp) hcoop, fun c hc => ?_⟩
      rw [hrecord]
      exact hopen c (hother.symm.trans hc)
    · exact hrecord.trans (h.refunded hrefunded)

/-- **A covered settlement** takes effect in both, and they stay in the relation.

**Proof sketch.** Both sides recycle by the same amounts, as their balances agree (`hrecycle`). The
balances that the reference ledger ends with are not negative and within its range, and this is what
the two postings of the pool need. Each relation is then read off the sums of the entries on the one
side and the credits on the other. -/
theorem Mirror.settle (le : AccountId → AccountId → Bool) (h : Mirror names pool d total t l)
    {id : SessionId} {u : UserId}
    {charge f wt rt : Int} (hrange : (Request.settle id u charge f wt rt).InRange)
    (hnone : t.consumptions.find? id = none) (hcovered : charge ≤ l.balance (names.owner u)) :
    ∃ t' l', poolStep le pool (.settle id u charge f wt rt) t = (t', true) ∧
      ledgerStep names (.settle id u charge f wt rt) l = (l', true) ∧
      Mirror names pool d total t' l' := by
  have hq : 0 < charge := hrange.1
  obtain ⟨hunused, hhold, hsettle, hrefund, hrecord⟩ := (h.sessions id).unsettled hnone
  obtain ⟨l', hl', hset⟩ := Benchmark.settle_covered h.sound hrange hunused hcovered
  have hfills := (recycle_fills hq.le : (recycle charge (l.balance Benchmark.working)
    (l.balance Benchmark.reserve) f wt rt).Fills _ _ _ _ _ _)
  have hrecycle : recycle charge (t.books.balance (.coopWorking pool))
      (t.books.balance (.coopReserve pool)) f wt rt =
        recycle charge (l.balance Benchmark.working) (l.balance Benchmark.reserve) f wt rt := by
    rw [h.working, h.reserve]
  generalize recycle charge (l.balance Benchmark.working) (l.balance Benchmark.reserve) f wt rt = a
    at hrecycle hset hfills
  obtain ⟨hnw, hnr, -⟩ := names.owner_ne u
  -- The balances that the reference ledger ends with bound those of the pool.
  have hbu : l'.balance (names.owner u) = l.balance (names.owner u) + -charge := by
    rw [hset.balance, if_pos rfl, if_neg hnw.symm, if_neg hnr.symm]
    omega
  have hbw : l'.balance Benchmark.working = l.balance Benchmark.working + (a.floor + a.working) := by
    rw [hset.balance, if_neg hnw, if_pos rfl, if_neg (by decide)]
    omega
  have hbr : l'.balance Benchmark.reserve = l.balance Benchmark.reserve + a.reserve := by
    rw [hset.balance, if_neg hnr, if_neg (by decide), if_pos rfl]
    omega
  have hexposure : 0 ≤ l'.exposure := hset.sound.audit.exposure.1
  have hexp := hset.exposure
  have htotal := h.totals
  have hbound := h.bound
  have hburn0 := h.burn_nonneg
  have hburned0 := hfills.burned_nonneg
  have hcharge := hcovered.trans (h.sound.balance_le_exposure _)
  have hmax : maxInteger = maxAmount := rfl
  have havailable : (t.books.accounts.find? (.available u)).isSome :=
    isSome_of_balance (by rw [h.users]; omega)
  obtain ⟨hpw, hpr, hpb⟩ := h.pools
  obtain ⟨hheld0, hheld⟩ := h.held u
  obtain ⟨books₁, books₂, hposted₁, hposted₂, ht'⟩ := PoolTables.settle_covered le pool
    (u := u) h.fresh hhold hsettle hnone hq (by omega) hrecycle
    ⟨havailable, by rw [h.users, ← hbu]; exact hset.sound.balance_nonneg _, by
      rw [h.users, ← hbu]
      exact hset.sound.balance_le _⟩
    ⟨h.helds u havailable, by omega, by omega⟩ hheld0
    ⟨hpw, by rw [h.working, ← hbw]; exact hset.sound.balance_nonneg _, by
      rw [h.working, ← hbw]
      exact hset.sound.balance_le _⟩
    ⟨hpr, by rw [h.reserve, ← hbr]; exact hset.sound.balance_nonneg _, by
      rw [h.reserve, ← hbr]
      exact hset.sound.balance_le _⟩
    ⟨hpb, by omega, by omega⟩
  have hb : ∀ account, books₂.balance account = t.books.balance account +
      (if .available u = account then -charge else 0) +
      (if .coopWorking pool = account then a.floor + a.working else 0) +
      (if .coopReserve pool = account then a.reserve else 0) +
      (if .coopBurn pool = account then a.burned else 0) := by
    intro account
    rw [hposted₂.balance, hposted₁.balance, PoolTables.entrySum_reserved,
      PoolTables.entrySum_settled]
    by_cases hacc : AccountId.held u = account
    · rw [if_pos hacc, if_pos hacc]
      omega
    · rw [if_neg hacc, if_neg hacc]
      omega
  have hfound : ∀ id', (t.consumptions.insert id (a.consumption u charge) hnone).find? id' =
      if id = id' then some (a.consumption u charge) else t.consumptions.find? id' :=
    fun _ => Table.find?_insert
  refine ⟨_, l', by rw [poolStep, ht']; rfl, by rw [ledgerStep, hl']; rfl, ?_⟩
  refine
    { sound := hset.sound
      working := by
        rw [hb, hbw, h.working]
        simp
      reserve := by
        rw [hb, hbr, h.reserve]
        simp
      burned := by
        rw [hb, h.burned, hset.burned, hset.reinstated]
        simp
        omega
      users := ?_
      pools := ?_
      kinds := kinds_of_posted hposted₂ (kinds_of_posted hposted₁ h.kinds)
      helds := ?_
      held := ?_
      totals := by
        rw [hb, hexp]
        simp
        omega
      bound := h.bound
      outstanding := ?_
      fresh := hposted₂.freshFrom (hposted₁.freshFrom h.fresh)
      sessions := ?_ }
  · intro u'
    rw [hb, h.users, hset.balance, if_neg (names.owner_ne u').1.symm,
      if_neg (names.owner_ne u').2.1.symm]
    simp [names.owner_inj.eq_iff]
  · simp only [hposted₂.isSome_iff, hposted₁.isSome_iff]
    exact h.pools
  · simp only [hposted₂.isSome_iff, hposted₁.isSome_iff]
    exact h.helds
  · intro u'
    have hsame : books₂.balance (.held u') = t.books.balance (.held u') := by
      rw [hb]
      simp
    show 0 ≤ books₂.balance (.held u') ∧ books₂.balance (.held u') + total ≤ maxInteger
    rw [hsame]
    exact h.held u'
  · have hinsert : Benchmark.outstanding { t with
        books := books₂
        consumptions := t.consumptions.insert id (a.consumption u charge) hnone
        next := t.next + 2 } = Benchmark.outstanding t + a.burned := by
      show (t.consumptions.insert id _ hnone).sum _ = _
      rw [Table.sum_insert, if_pos hrefund]
      rfl
    have hold := h.outstanding
    rw [hinsert, hb]
    simp
    exact hold
  · refine SessionMirror.settle h.sessions hset hposted₁ hposted₂ hnone havailable ?_
    have hfloor0 := hfills.floor_nonneg
    have hworking0 := hfills.working_nonneg
    have hreserve0 := hfills.reserve_nonneg
    have hsum := hfills.sum
    exact ⟨hq, by show 0 ≤ a.floor + a.working; omega, hreserve0, hburned0, by
      show a.floor + a.working + a.reserve + a.burned = charge
      omega⟩

/-- A settlement that was made, or that is not covered, takes no effect on the tables. -/
theorem Mirror.settle_refused (h : Mirror names pool d total t l) {id : SessionId} {u : UserId}
    {charge f wt rt : Int} (hq : 0 < charge)
    (hrefused : t.consumptions.find? id ≠ none ∨ l.balance (names.owner u) < charge) :
    poolStep le pool (.settle id u charge f wt rt) t = (t, false) := by
  show effect t ((fun t' => (true, t')) <$> t.settle le pool id u charge f wt rt) = (t, false)
  cases hsettle : t.settle le pool id u charge f wt rt with
  | error e => rfl
  | ok t' =>
    obtain ⟨hnone, hposted⟩ := PoolTables.settle_ok hsettle
    obtain ⟨-, hhold, -⟩ := (h.sessions id).unsettled hnone
    rcases hposted with hknown | ⟨books, hposted⟩
    · exact absurd hhold hknown
    · have hsum : NetworkAi.Ledger.entrySum (.available u) (reservedEntries u charge) = -charge := by
        rw [PoolTables.entrySum_reserved]
        simp
      obtain ⟨row, hrow, hkind | hcovered⟩ := hposted.exist (.available u) (by omega)
      · exact absurd hkind (h.kinds _ row hrow (by simp))
      · rw [hsum, ← NetworkAi.Ledger.balance_eq hrow, h.users] at hcovered
        rcases hrefused with hsome | hless
        · exact absurd hnone hsome
        · omega

/-! ### Refunds -/

/-- The sessions after a refund that took effect.

**Proof sketch.** The session that is refunded loses its record on the one side and has a refund on
the other. Another session has other keys (`usage_inj`, `reversal_inj`), so that neither concerns
it. -/
theorem SessionMirror.refund {l' : Ledger} {id : SessionId} {c : PoolConsumption} {books : Books}
    (hall : ∀ id', SessionMirror names t l id') (hc : t.consumptions.find? id = some c)
    (hnone : t.refunds.find? id = none) (href : Refunded names l id (refillOf names c) l')
    (hposted : NetworkAi.Ledger.Posted le 0 t.books t.next (.coopRefund id)
      (journalInfo .cooperativeConsumptionRefund) (c.refundEntries pool) books)
    (id' : SessionId) :
    SessionMirror names { t with
      books, refunds := t.refunds.insert id t.next hnone, next := t.next + 1 } l' id' := by
  have h := hall id'
  have hkeys : ∀ key : BusinessKey, key ≠ .coopRefund id → t.books.findKey key = none →
      books.findKey key = none :=
    fun key hne hk => (hposted.findKey_none key).2 ⟨hne, hk⟩
  have haccounts : ∀ account, (books.accounts.find? account).isSome =
      (t.books.accounts.find? account).isSome := by
    intro account
    rw [Bool.eq_iff_iff, hposted.isSome_iff]
  have hsettled : ∀ c', t.consumptions.find? id' = some c' → names.usage id' ∈ l'.closed ∧
      PartsOf c' ∧ (books.accounts.find? (.available c'.userId)).isSome := by
    intro c' hc'
    obtain ⟨hclosed, hparts, hsome⟩ := h.settled c' hc'
    exact ⟨href.closed _ hclosed, hparts, (haccounts _).symm ▸ hsome⟩
  by_cases hid : id = id'
  · subst hid
    have hself : (t.refunds.insert id t.next hnone).find? id = some t.next :=
      Table.find?_insert_self
    refine ⟨fun hn => ?_, hsettled, fun hn => ?_, fun _ => ?_⟩
    · exact absurd (hc.symm.trans hn) (Option.some_ne_none _)
    · exact absurd (hself.symm.trans hn) (Option.some_ne_none _)
    · rw [href.records, Table.find?_without_self]
  · have hother : (t.refunds.insert id t.next hnone).find? id' = t.refunds.find? id' :=
      Table.find?_insert_ne hid
    have hrecord : l'.refillRecords.find? (names.usage id') =
        l.refillRecords.find? (names.usage id') := by
      rw [href.records, Table.find?_without_ne fun he => hid (names.usage_inj he).symm]
    refine ⟨fun hn => ?_, hsettled, fun hn => ?_, fun hsome => ?_⟩
    · obtain ⟨hunused, hhold, hsettle, hrefund, hnorecord⟩ := h.unsettled hn
      obtain ⟨hne, hnew, hner⟩ := names.usage_ne id' id
      refine ⟨fun hused => ?_, hkeys _ (by simp) hhold, hkeys _ (by simp) hsettle,
        hother.trans hrefund, hrecord.trans hnorecord⟩
      rcases href.used _ hused with he | he | he | he
      · exact hne he
      · exact hnew he
      · exact hner he
      · exact hunused he
    · obtain ⟨⟨hkey, hw, hr⟩, hcoop, hopen⟩ := h.unrefunded (hother.symm.trans hn)
      have hinj : names.reversal id' ≠ names.reversal id :=
        fun he => hid (names.reversal_inj he).symm
      obtain ⟨hew, her⟩ := names.reversal_ne id' id
      obtain ⟨hew', her'⟩ := names.reversal_ne id id'
      refine ⟨⟨fun hused => ?_, fun hused => ?_, fun hused => ?_⟩,
        hkeys _ (by simpa using Ne.symm hid) hcoop, fun c' hc' => hrecord.trans (hopen c' hc')⟩
      · rcases href.used _ hused with he | he | he | he
        · exact hinj he
        · exact hew he
        · exact her he
        · exact hkey he
      · rcases href.used _ hused with he | he | he | he
        · exact hew' he.symm
        · exact hinj (suffix_inj he)
        · exact suffix_ne he
        · exact hw he
      · rcases href.used _ hused with he | he | he | he
        · exact her' he.symm
        · exact suffix_ne he.symm
        · exact hinj (suffix_inj he)
        · exact hr he
    · exact hrecord.trans (h.refunded fun hn => hsome (hother.trans hn))

/-- **A covered refund** of a consumption that has none takes effect in both, and they stay in the
relation.

**Proof sketch.** As for a settlement: the reference ledger accepts the refund because the parts are
covered, and the balances that it ends with bound the one posting of the pool. The burned part that
is outstanding shrinks by what is reinstated. -/
theorem Mirror.refund (le : AccountId → AccountId → Bool) (h : Mirror names pool d total t l)
    {id : SessionId} {c : PoolConsumption}
    (hc : t.consumptions.find? id = some c) (hnone : t.refunds.find? id = none)
    (hworking : c.working ≤ l.balance Benchmark.working)
    (hreserve : c.reserve ≤ l.balance Benchmark.reserve) :
    ∃ t' l', poolStep le pool (.refund id) t = (t', true) ∧
      ledgerStep names (.refund id) l = (l', true) ∧ Mirror names pool d total t' l' := by
  obtain ⟨⟨hkey, hkw, hkr⟩, hcoop, hopen⟩ := (h.sessions id).unrefunded hnone
  obtain ⟨-, hparts, huser⟩ := (h.sessions id).settled c hc
  have hburn := h.burned_covered hc hnone
  have htotal := h.totals
  have hbound := h.bound
  have hexposure : 0 ≤ l.exposure := h.sound.audit.exposure.1
  have hmax : maxInteger = maxAmount := rfl
  obtain ⟨l', hl', href⟩ := Benchmark.refund_covered h.sound hkey hkw hkr (hopen c hc) hworking
    hreserve (by show l.exposure + c.burned ≤ maxInteger; omega)
  obtain ⟨hnw, hnr, -⟩ := names.owner_ne c.userId
  have hsum := hparts.sum
  have hbl : ∀ other, l'.balance other = l.balance other +
      (if Benchmark.working = other then -c.working else 0) +
      (if Benchmark.reserve = other then -c.reserve else 0) +
      (if names.owner c.userId = other then c.charge else 0) := by
    intro other
    rw [href.balance, ← hsum]
    rfl
  have hbw : l'.balance Benchmark.working = l.balance Benchmark.working + -c.working := by
    rw [hbl, if_pos rfl, if_neg (by decide), if_neg hnw, add_zero, add_zero]
  have hbr : l'.balance Benchmark.reserve = l.balance Benchmark.reserve + -c.reserve := by
    rw [hbl, if_neg (by decide), if_pos rfl, if_neg hnr, add_zero, add_zero]
  have hbu : l'.balance (names.owner c.userId) = l.balance (names.owner c.userId) + c.charge := by
    rw [hbl, if_neg hnw.symm, if_neg hnr.symm, if_pos rfl, add_zero, add_zero]
  have hexp : l'.exposure = l.exposure + c.burned := href.exposure
  have hreinstated : l'.reinstated = l.reinstated + c.burned := href.reinstated
  have huser0 := h.sound.balance_nonneg (names.owner c.userId)
  have husermax := href.sound.balance_le (names.owner c.userId)
  have hburned0 := hparts.burned
  obtain ⟨hpw, hpr, hpb⟩ := h.pools
  obtain ⟨books, hposted, ht'⟩ := PoolTables.refund_covered le pool h.fresh hc
    hnone hcoop hparts.charge (by omega) hparts.working hparts.reserve hparts.burned hparts.sum
    ⟨hpw, by rw [h.working, ← hbw]; exact href.sound.balance_nonneg _, by
      rw [h.working, ← hbw]
      exact href.sound.balance_le _⟩
    ⟨hpr, by rw [h.reserve, ← hbr]; exact href.sound.balance_nonneg _, by
      rw [h.reserve, ← hbr]
      exact href.sound.balance_le _⟩
    ⟨hpb, by omega, by omega⟩
    ⟨huser, by rw [h.users, ← hbu]; exact href.sound.balance_nonneg _, by
      rw [h.users, ← hbu]
      exact href.sound.balance_le _⟩
  have hb : ∀ account, books.balance account = t.books.balance account +
      ((if .coopWorking pool = account then -c.working else 0) +
        (if .coopReserve pool = account then -c.reserve else 0) +
        (if .coopBurn pool = account then -c.burned else 0) +
        (if .available c.userId = account then c.charge else 0)) := by
    intro account
    rw [hposted.balance, PoolTables.entrySum_refund]
  refine ⟨_, l', by rw [poolStep, ht']; rfl, by rw [ledgerStep, hl']; rfl, ?_⟩
  refine
    { sound := href.sound
      working := by
        rw [hb, hbw, h.working]
        simp
      reserve := by
        rw [hb, hbr, h.reserve]
        simp
      burned := by
        rw [hb, h.burned, href.burned, hreinstated]
        simp
        omega
      users := ?_
      pools := ?_
      kinds := kinds_of_posted hposted h.kinds
      helds := ?_
      held := ?_
      totals := by
        rw [hb, hexp]
        simp
        omega
      bound := h.bound
      outstanding := ?_
      fresh := hposted.freshFrom h.fresh
      sessions := SessionMirror.refund h.sessions hc hnone href hposted }
  · intro u'
    rw [hb, h.users, hbl, if_neg (names.owner_ne u').1.symm, if_neg (names.owner_ne u').2.1.symm]
    simp [names.owner_inj.eq_iff]
  · simp only [hposted.isSome_iff]
    exact h.pools
  · simp only [hposted.isSome_iff]
    exact h.helds
  · intro u'
    have hsame : books.balance (.held u') = t.books.balance (.held u') := by
      rw [hb]
      simp
    show 0 ≤ books.balance (.held u') ∧ books.balance (.held u') + total ≤ maxInteger
    rw [hsame]
    exact h.held u'
  · have hchange : Benchmark.outstanding { t with
        books, refunds := t.refunds.insert id t.next hnone, next := t.next + 1 } =
          Benchmark.outstanding t - c.burned := by
      have hsum := Table.sum_change (fun id (c : PoolConsumption) =>
          if t.refunds.find? id = none then c.burned else 0)
        (fun id' (c : PoolConsumption) =>
          if (t.refunds.insert id t.next hnone).find? id' = none then c.burned else 0) hc (by
          intro id' c' hne
          rw [Table.find?_insert_ne (Ne.symm hne)])
      rw [Table.find?_insert_self, if_neg (by simp), if_pos hnone] at hsum
      show Table.sum _ _ = Table.sum _ _ - c.burned
      rw [hsum]
      omega
    have hold := h.outstanding
    rw [hchange, hb]
    simp
    exact hold

/-- A refund of a session that has no consumption or was refunded, or whose recycled parts are not
covered, takes no effect on the tables. -/
theorem Mirror.refund_refused (h : Mirror names pool d total t l) {id : SessionId}
    (hrefused : ∀ c, t.consumptions.find? id = some c → t.refunds.find? id = none →
      l.balance Benchmark.working < c.working ∨ l.balance Benchmark.reserve < c.reserve) :
    poolStep le pool (.refund id) t = (t, false) := by
  show effect t (t.refund le pool id) = (t, false)
  cases hrefund : t.refund le pool id with
  | error e => rfl
  | ok refunded =>
    obtain ⟨b, t'⟩ := refunded
    obtain ⟨c, hc, ⟨-, rfl, hsame⟩ | ⟨hnone, hposted⟩⟩ := PoolTables.refund_ok hrefund
    · rw [hsame]
      rfl
    · obtain ⟨-, hcoop, -⟩ := (h.sessions id).unrefunded hnone
      have hw0 := h.sound.balance_nonneg Benchmark.working
      have hr0 := h.sound.balance_nonneg Benchmark.reserve
      rcases hposted with hknown | ⟨books, hposted⟩
      · exact absurd hcoop hknown
      rcases hrefused c hc hnone with hless | hless
      · have hsum : NetworkAi.Ledger.entrySum (.coopWorking pool) (c.refundEntries pool) =
            -c.working := by
          rw [PoolTables.entrySum_refund]
          simp
        obtain ⟨row, hrow, hkind | hcovered⟩ := hposted.exist (.coopWorking pool) (by omega)
        · exact absurd hkind (h.kinds _ row hrow (by simp))
        · rw [hsum, ← NetworkAi.Ledger.balance_eq hrow, h.working] at hcovered
          omega
      · have hsum : NetworkAi.Ledger.entrySum (.coopReserve pool) (c.refundEntries pool) =
            -c.reserve := by
          rw [PoolTables.entrySum_refund]
          simp
        obtain ⟨row, hrow, hkind | hcovered⟩ := hposted.exist (.coopReserve pool) (by omega)
        · exact absurd hkind (h.kinds _ row hrow (by simp))
        · rw [hsum, ← NetworkAi.Ledger.balance_eq hrow, h.reserve] at hcovered
          omega

/-! ### Lock step -/

/-- **The pool and the reference ledger in lock step**: a request in range takes effect in both or
in neither, and they stay in the relation.

**Proof sketch.** By the request, and whether it is new and covered. If so, both take effect
(`Mirror.settle`, `Mirror.refund`). If not, the keys of the session or its balances, which agree,
refuse it on both sides, and nothing changes. -/
theorem lockStep (le : AccountId → AccountId → Bool) :
    LockStep (poolStep le pool) (ledgerStep names) Request.InRange
      (Mirror names pool d total) := by
  have hstep : ∀ r t l, Request.InRange r → Mirror names pool d total t l →
      (poolStep le pool r t).2 = (ledgerStep names r l).2 ∧
        Mirror names pool d total (poolStep le pool r t).1 (ledgerStep names r l).1 := by
    intro r t l hrange h
    cases r with
    | settle id u charge f wt rt =>
      by_cases htakes : t.consumptions.find? id = none ∧ charge ≤ l.balance (names.owner u)
      · obtain ⟨t', l', hpool, hledger, hmirror⟩ :=
          h.settle le hrange htakes.1 htakes.2
        rw [hpool, hledger]
        exact ⟨rfl, hmirror⟩
      · have hrefused : t.consumptions.find? id ≠ none ∨ l.balance (names.owner u) < charge := by
          by_cases hnone : t.consumptions.find? id = none
          · exact .inr (not_le.1 fun hle => htakes ⟨hnone, hle⟩)
          · exact .inl hnone
        have hused : l.Used (names.usage id) ∨ l.balance (names.owner u) < charge := by
          refine hrefused.imp_left fun hsome => ?_
          obtain ⟨c, hc⟩ := Option.ne_none_iff_exists'.1 hsome
          exact .inl ((h.sessions id).settled c hc).1
        rw [h.settle_refused hrange.1 hrefused, ledgerStep_settle_refused hused]
        exact ⟨rfl, h⟩
    | refund id =>
      by_cases htakes : ∃ c, t.consumptions.find? id = some c ∧ t.refunds.find? id = none ∧
          c.working ≤ l.balance Benchmark.working ∧ c.reserve ≤ l.balance Benchmark.reserve
      · obtain ⟨c, hc, hnone, hw, hr⟩ := htakes
        obtain ⟨t', l', hpool, hledger, hmirror⟩ := h.refund le hc hnone hw hr
        rw [hpool, hledger]
        exact ⟨rfl, hmirror⟩
      · have hrefused : ∀ c, t.consumptions.find? id = some c → t.refunds.find? id = none →
            l.balance Benchmark.working < c.working ∨ l.balance Benchmark.reserve < c.reserve := by
          intro c hc hnone
          by_contra hcovered
          rw [not_or, not_lt, not_lt] at hcovered
          exact htakes ⟨c, hc, hnone, hcovered⟩
        have hledger : ∀ r, l.refillRecords.find? (names.usage id) = some r →
            l.balance Benchmark.working < r.working ∨ l.balance Benchmark.reserve < r.reserve := by
          intro r hr
          have hs := h.sessions id
          have hnone : t.refunds.find? id = none := by
            by_contra hsome
            rw [hs.refunded hsome] at hr
            cases hr
          cases hc : t.consumptions.find? id with
          | none =>
            rw [(hs.unsettled hc).2.2.2.2] at hr
            cases hr
          | some c =>
            rw [(hs.unrefunded hnone).2.2 c hc] at hr
            obtain rfl := Option.some.inj hr
            exact hrefused c hc hnone
        rw [h.refund_refused hrefused, ledgerStep_refund_refused hledger]
        exact ⟨rfl, h⟩
  exact ⟨fun r t l hr h => (hstep r t l hr h).1, fun r t l hr h => (hstep r t l hr h).2⟩

/-- Where both start: the reference ledger after any operations, the pool with equal balances, and
no session of the requests settled in either. -/
structure Start (names : Names) (pool : PoolId) (t : PoolTables) (l : Ledger) : Prop where
  reached : ∃ ops : List Op, (∀ op ∈ ops, op.Allowed) ∧ Ledger.init.applyAll ops = .ok l
  working : t.books.balance (.coopWorking pool) = l.balance working
  reserve : t.books.balance (.coopReserve pool) = l.balance reserve
  users : ∀ u, t.books.balance (.available u) = l.balance (names.owner u)
  pools : (t.books.accounts.find? (.coopWorking pool)).isSome ∧
    (t.books.accounts.find? (.coopReserve pool)).isSome ∧
    (t.books.accounts.find? (.coopBurn pool)).isSome
  kinds : ∀ a row, t.books.accounts.find? a = some row → a ≠ .issuer → row.kind ≠ .labIssuer
  helds : ∀ u, (t.books.accounts.find? (.available u)).isSome →
    (t.books.accounts.find? (.held u)).isSome
  held : ∀ u, 0 ≤ t.books.balance (.held u) ∧ t.books.balance (.held u) +
    (l.exposure + t.books.balance (.coopBurn pool)) ≤ maxInteger
  burned : 0 ≤ t.books.balance (.coopBurn pool)
  bound : l.exposure + t.books.balance (.coopBurn pool) ≤ maxInteger
  fresh : t.books.FreshFrom t.next
  consumptions : t.consumptions = .empty
  refunds : t.refunds = .empty
  keys : ∀ id, t.books.findKey (.hold id) = none ∧ t.books.findKey (.settle id) = none ∧
    t.books.findKey (.coopRefund id) = none
  unused : ∀ id, ¬ l.Used (names.usage id) ∧ Unreversed names l id ∧
    l.refillRecords.find? (names.usage id) = none

/-- A start is mirrored, with what the two sides have burned before. -/
theorem Start.mirror (h : Start names pool t l) :
    Mirror names pool (t.books.balance (.coopBurn pool) - (l.burned - l.reinstated))
      (l.exposure + t.books.balance (.coopBurn pool)) t l := by
  obtain ⟨ops, hops, hreached⟩ := h.reached
  have hnone : ∀ id, t.consumptions.find? id = none := fun id => by rw [h.consumptions]; rfl
  have hrefund : ∀ id, t.refunds.find? id = none := fun id => by rw [h.refunds]; rfl
  refine
    { h with
      sound := Sound.init.applyAll hops hreached
      burned := by omega
      totals := rfl
      outstanding := ?_
      sessions := fun id => ⟨fun _ => ?_, fun c hc => ?_, fun _ => ?_, fun hsome => ?_⟩ }
  · rw [Benchmark.outstanding, h.consumptions]
    exact h.burned
  · exact ⟨(h.unused id).1, (h.keys id).1, (h.keys id).2.1, hrefund id, (h.unused id).2.2⟩
  · rw [hnone id] at hc
    cases hc
  · refine ⟨(h.unused id).2.1, (h.keys id).2.2, fun c hc => ?_⟩
    rw [hnone id] at hc
    cases hc
  · exact absurd (hrefund id) hsome

/-- **Lock step with the reference economy.** From a common start, after every prefix of every list
of settlements and requests for refunds, the pool and the reference ledger have equal working and
reserve balances and have burned and not reinstated the same; and each request takes effect in both
or in neither.

**Proof sketch.** A common start is a case of the relation, whose constants are the difference of
what was burned and the exposure. Each step keeps it (`lockStep`), and so does every prefix. -/
theorem pool_lock_step (le : AccountId → AccountId → Bool) (hstart : Start names pool t l)
    (requests : List Request) (hrange : ∀ r ∈ requests, r.InRange) :
    (∀ before, before <+: requests →
      let t' := after (poolStep le pool) t before
      let l' := after (ledgerStep names) l before
      t'.books.balance (.coopWorking pool) = l'.balance working ∧
        t'.books.balance (.coopReserve pool) = l'.balance reserve ∧
        t'.books.balance (.coopBurn pool) - t.books.balance (.coopBurn pool) =
          l'.burned - l'.reinstated - (l.burned - l.reinstated)) ∧
      answers (poolStep le pool) t requests = answers (ledgerStep names) l requests := by
  have hlock : LockStep (poolStep le pool) (ledgerStep names) Request.InRange
      (Mirror names pool (t.books.balance (.coopBurn pool) - (l.burned - l.reinstated))
        (l.exposure + t.books.balance (.coopBurn pool))) := lockStep le
  refine ⟨fun before hbefore => ?_, (hlock.run hrange hstart.mirror).2⟩
  have h := (hlock.run (fun r hr => hrange r (hbefore.subset hr)) hstart.mirror).1
  refine ⟨h.working, h.reserve, ?_⟩
  have hburned := h.burned
  omega

/-! ### A run -/

/-- A number as a text. -/
def tally (n : Nat) : String := String.ofList (List.replicate n '1')

/-- Different numbers have different tallies. -/
theorem tally_inj {m n : Nat} (h : tally m = tally n) : m = n := by
  have hlists := congrArg (fun s => s.toList.length) h
  simpa [tally] using hlists

/-- Names with a word for every kind. -/
def tallyNames : Names where
  owner u := "user:" ++ tally u
  usage i := "usage:" ++ tally i
  reversal i := "refund:" ++ tally i
  owner_inj := fun u v h => tally_inj (by simpa using h)
  owner_ne := by
    intro u
    refine ⟨?_, ?_, ?_⟩ <;> intro h <;> have hlists := congrArg String.toList h <;>
      simp [Benchmark.working, Benchmark.reserve, Benchmark.continuity] at hlists
  usage_inj := fun u v h => tally_inj (by simpa using h)
  reversal_inj := fun u v h => tally_inj (by simpa using h)
  usage_ne := by
    intro i j
    refine ⟨?_, ?_, ?_⟩ <;> intro h <;> have hlists := congrArg String.toList h <;>
      simp at hlists
  reversal_ne := by
    intro i j
    have hcolon : ':' ∉ List.replicate i '1' := by simp [List.mem_replicate]
    refine ⟨?_, ?_⟩ <;> intro h <;> refine hcolon ?_ <;>
      have hlists := congrArg String.toList h <;> simp [tally] at hlists <;> rw [hlists] <;> simp

/-- One user has `1000`. -/
def grantedLedger : Ledger :=
  { Ledger.init with
    free := Ledger.init.free.put (tallyNames.owner 5) 1000
    closed := ["grant"]
    S := 1000
    issued := 1000
    contributorIssued := 1000 }

/-- The tables of pool `7`, with the same balance. -/
def grantedTables : PoolTables where
  books :=
    { accounts :=
        { rows := [(.available 5, ⟨.available, 1000⟩), (.held 5, ⟨.held, 0⟩),
            (.coopWorking 7, ⟨.coopWorking, 0⟩), (.coopReserve 7, ⟨.coopCoreReserve, 0⟩),
            (.coopBurn 7, ⟨.coopBurn, 0⟩)]
          nodup := by decide }
      journal := .empty
      lines := [] }
  consumptions := .empty
  refunds := .empty
  next := 0

/-- The balances of the granted tables. -/
theorem grantedTables_balance (a : AccountId) :
    grantedTables.books.balance a = if a = .available 5 then 1000 else 0 := by
  unfold NetworkAi.Ledger.balance
  cases hfind : grantedTables.books.accounts.find? a with
  | none =>
    have hne : a ≠ .available 5 := by
      rintro rfl
      cases hfind
    rw [if_neg hne]
  | some row =>
    have hmem : (a, row) ∈ grantedTables.books.accounts.rows := Table.find?_eq_some.1 hfind
    simp only [grantedTables, List.mem_cons, Prod.mk.injEq, List.not_mem_nil, or_false] at hmem
    rcases hmem with ⟨rfl, rfl⟩ | ⟨rfl, rfl⟩ | ⟨rfl, rfl⟩ | ⟨rfl, rfl⟩ | ⟨rfl, rfl⟩ <;> simp

/-- The granted ledger has used the key of its grant only. -/
theorem grantedLedger_unused {key : String} (h : key ≠ "grant") : ¬ grantedLedger.Used key := by
  rintro (hk | hk | hk | hk)
  · exact h (List.mem_singleton.1 hk)
  all_goals cases hk

/-- The granted tables and the granted ledger are a start. -/
theorem granted_start : Start tallyNames 7 grantedTables grantedLedger where
  reached := by
    refine ⟨[.promise "grant" (tallyNames.owner 5) 1000 maxInteger .contributor, .issue "grant"],
      by decide, ?_⟩
    rfl
  working := by rw [grantedTables_balance]; decide
  reserve := by rw [grantedTables_balance]; decide
  users := by
    intro u
    rw [grantedTables_balance]
    by_cases hu : u = 5
    · subst hu
      decide
    · obtain ⟨hnw, hnr, -⟩ := tallyNames.owner_ne u
      have hne : tallyNames.owner u ≠ tallyNames.owner 5 := fun he => hu (tallyNames.owner_inj he)
      have hfree : grantedLedger.free.find? (tallyNames.owner u) = none := by
        show (((Table.empty.put Benchmark.working 0).put Benchmark.reserve 0).put
          (tallyNames.owner 5) 1000).find? _ = none
        rw [Table.find?_put_ne hne, Table.find?_put_ne hnr, Table.find?_put_ne hnw]
        rfl
      rw [if_neg (by simpa using hu), Ledger.balance, hfree]
      rfl
  pools := by decide
  kinds := by
    intro a row hrow _
    have hmem : (a, row) ∈ grantedTables.books.accounts.rows := Table.find?_eq_some.1 hrow
    simp only [grantedTables, List.mem_cons, Prod.mk.injEq, List.not_mem_nil, or_false] at hmem
    rcases hmem with ⟨-, rfl⟩ | ⟨-, rfl⟩ | ⟨-, rfl⟩ | ⟨-, rfl⟩ | ⟨-, rfl⟩ <;> decide
  helds := by
    intro u hu
    have hfive : u = 5 := by
      obtain ⟨row, hrow⟩ := Option.isSome_iff_exists.1 hu
      have hmem : (AccountId.available u, row) ∈ grantedTables.books.accounts.rows :=
        Table.find?_eq_some.1 hrow
      simp [grantedTables] at hmem
      exact hmem.1
    subst hfive
    decide
  held := by
    intro u
    rw [grantedTables_balance, grantedTables_balance]
    simp
    decide
  burned := by rw [grantedTables_balance]; decide
  bound := by rw [grantedTables_balance]; decide
  fresh := ⟨fun _ _ => rfl, nofun⟩
  consumptions := rfl
  refunds := rfl
  keys := fun _ => ⟨rfl, rfl, rfl⟩
  unused := by
    intro id
    refine ⟨grantedLedger_unused ?_, ⟨grantedLedger_unused ?_, grantedLedger_unused ?_,
      grantedLedger_unused ?_⟩, rfl⟩ <;> intro h <;>
      have hlists := congrArg String.toList h <;> simp [tallyNames] at hlists

/-- Two charges are recycled and refunded; a second refund, a second settlement and a charge that is
not covered take no effect. -/
def chargesAndRefunds : List Request :=
  [.settle 0 5 300 100 150 50, .settle 1 5 40 100 500 500, .refund 0, .refund 0, .refund 1,
    .settle 1 5 40 100 500 500, .settle 2 5 2000 100 500 500]

/-- Charges and refunds run in lock step from the granted start. -/
theorem pool_lock_step_granted :
    ((∀ before, before <+: chargesAndRefunds →
      let t' := after (poolStep (fun _ _ => true) 7) grantedTables before
      let l' := after (ledgerStep tallyNames) grantedLedger before
      t'.books.balance (.coopWorking 7) = l'.balance working ∧
        t'.books.balance (.coopReserve 7) = l'.balance reserve ∧
        t'.books.balance (.coopBurn 7) - grantedTables.books.balance (.coopBurn 7) =
          l'.burned - l'.reinstated - (grantedLedger.burned - grantedLedger.reinstated)) ∧
      answers (poolStep (fun _ _ => true) 7) grantedTables chargesAndRefunds =
        answers (ledgerStep tallyNames) grantedLedger chargesAndRefunds) ∧
      answers (ledgerStep tallyNames) grantedLedger chargesAndRefunds =
        [true, true, true, false, true, false, false] :=
  ⟨pool_lock_step _ granted_start chargesAndRefunds (by decide), by decide +kernel⟩

end NetworkAi.Benchmark
