import NetworkAi.Lib.Log
import NetworkAi.Stage.Agent

set_option relaxedAutoImplicit false
set_option autoImplicit false

/-!
# The lease machine

What the stage agent is for, apart from its waits and its readiness: at most one lease is alive, a
compute frame is counted to the lease that was alive when it was checked, and a lease that was
taken away is reported once, with numbers that do not change any more.

## Main definitions

* `NetworkAi.Stage.Leasing` — the state of the machine.
* `NetworkAi.Stage.Leasing.Move` — its moves.
* `NetworkAi.Stage.Leasing.Alive` — which lease is alive.

## Main results

* `NetworkAi.Stage.Leasing.Move.alive` — every move keeps the invariant.
-/

namespace NetworkAi.Stage

/-! ### The machine -/

/-- The state of the machine. -/
structure Leasing where
  /-- There is a preparation. -/
  prepared : Bool
  active : Option Nat
  leases : List Metered
  startup : Metered
  startupClosed : Bool
  /-- The compute frame that has its turn, by its holder and its bytes. -/
  frame : Option (Holder × Nat)
  claiming : List Nat
  /-- How many calls of `finish` hold a lease that has no receipt yet. -/
  taken : Nat → Nat
  events : List Event

namespace Leasing

/-- What the guard reads of a holder. -/
def metered (m : Leasing) : Holder → Option Metered
  | .startup => some m.startup
  | .lease i => m.leases[i]?

/-- Write a holder. -/
def meter (m : Leasing) (h : Holder) (f : Metered → Metered) : Leasing :=
  match h with
  | .startup => { m with startup := f m.startup }
  | .lease i => { m with leases := m.leases.modify i f }

/-- Who the next compute frame would be counted to. -/
def holder (m : Leasing) : Option Holder :=
  match m.active with
  | some i => some (.lease i)
  | none => if m.startupClosed then none else some .startup

end Leasing

/-- The account of a compute frame. -/
def Metered.counted (m : Metered) (bytes : Nat) : Metered :=
  { m with
    requestBytes := m.requestBytes + (bytes + 9 + 13)
    responseBytes := m.responseBytes + 24
    completedCommands := m.completedCommands + 1 }

/-- The holder that an event is about. -/
def Event.holder : Event → Option Holder
  | .loaded => none
  | .checked h | .passed h _ | .counted h _ _ => some h
  | .receipt i _ => some (.lease i)

/-- The holder whose compute frame an event belongs to, after its check. -/
def Event.ofFrame : Event → Option Holder
  | .passed h _ | .counted h _ _ => some h
  | _ => none

/-- An event that begins or ends a compute frame. -/
def Event.Marks : Event → Prop
  | .checked _ | .counted _ _ _ => True
  | _ => False

/-- The numbers of a lease as its receipt has them. -/
structure Reports (sha256 : List UInt8 → String) (r : StageReceiptData) (m : Metered) : Prop where
  commands : r.completedCommands = m.completedCommands
  requests : r.requestBytes = m.requestBytes
  responses : r.responseBytes = m.responseBytes
  transcript : r.transcriptSha256 = sha256 m.transcript

/-- A lease that has just started. -/
structure Metered.Fresh (m : Metered) : Prop where
  claimed : m.claimed = false
  cancelled : m.cancelled = false
  limits : m.maxCommands = none ∧ m.maxBytes = none
  counts : m.completedCommands = 0 ∧ m.requestBytes = 0 ∧ m.responseBytes = 0

namespace Leasing

/-- The moves of the machine. -/
inductive Move (sha256 : List UInt8 → String) : Leasing → Leasing → Prop
  | unprepare (m : Leasing) : Move sha256 m { m with prepared := false }
  | prepare (m : Leasing) (h : m.active = none) : Move sha256 m { m with prepared := true }
  | loaded (m : Leasing) :
    Move sha256 m { m with startupClosed := true, events := m.events ++ [.loaded] }
  | start (m : Leasing) (l : Metered) (h : m.active = none) (hl : l.Fresh) :
    Move sha256 m { m with
      prepared := false, active := some m.leases.length, leases := m.leases ++ [l]
      claiming := m.claiming ++ [m.leases.length] }
  | claimed (m : Leasing) (i : Nat) (h : i ∈ m.claiming) :
    Move sha256 m { m with
      claiming := m.claiming.erase i
      leases := m.leases.modify i fun l => { l with claimed := true } }
  | refused (m : Leasing) (i : Nat) (h : i ∈ m.claiming) :
    Move sha256 m { m with
      claiming := m.claiming.erase i
      active := if m.active = some i then none else m.active }
  | take (m : Leasing) (i : Nat) (taken : Nat → Nat) (h : m.active = some i)
      (hframe : m.frame = none) (ht : ∀ j, taken j ≤ m.taken j + if j = i then 1 else 0) :
    Move sha256 m { m with
      active := none, taken, leases := m.leases.modify i fun l => { l with cancelled := true } }
  | forget (m : Leasing) (taken : Nat → Nat) (ht : ∀ j, taken j ≤ m.taken j) :
    Move sha256 m { m with taken }
  | receipt (m : Leasing) (i : Nat) (l : Metered) (r : StageReceiptData) (taken : Nat → Nat)
      (hl : m.leases[i]? = some l) (hr : Reports sha256 r l)
      (ht : ∀ j, taken j + (if j = i then 1 else 0) ≤ m.taken j) :
    Move sha256 m { m with taken, events := m.events ++ [.receipt i r] }
  | hash (m : Leasing) (h : Holder) (n : Nat) (bytes : List UInt8) (hframe : m.frame = some (h, n)) :
    Move sha256 m (m.meter h fun l => { l with transcript := l.transcript ++ bytes })
  | pass (m : Leasing) (h : Holder) (n : Nat) (bytes : List UInt8) (hframe : m.frame = some (h, n)) :
    Move sha256 m { m with events := m.events ++ [.passed h bytes] }
  | count (m : Leasing) (h : Holder) (n : Nat) (hframe : m.frame = some (h, n)) :
    Move sha256 m { m.meter h (·.counted n) with
      frame := none, events := m.events ++ [.counted h (n + 9 + 13) 24] }
  | endFrame (m : Leasing) : Move sha256 m { m with frame := none }

/-- A compute frame is checked and has its turn. -/
structure Check (m m' : Leasing) (h : Holder) (l : Metered) (clock : Clock) (bytes : Nat) :
    Prop where
  frame : m.frame = none
  holder : m.holder = some h
  metered : m.metered h = some l
  admissible : Agent.Admissible l clock bytes
  after : m' = { m with frame := some (h, bytes), events := m.events ++ [.checked h] }

/-! ### The lease that is alive -/

/-- The active lease is the one that is alive: neither cancelled nor refused by its claim. -/
structure Alive (m : Leasing) : Prop where
  prepared : m.prepared = true → m.active = none
  active : ∀ i, m.active = some i →
    ∃ l, m.leases[i]? = some l ∧ l.cancelled = false ∧ (l.claimed = true ∨ i ∈ m.claiming)
  alive : ∀ i l, m.leases[i]? = some l → l.cancelled = false →
    (l.claimed = true ∨ i ∈ m.claiming) → m.active = some i
  nodup : m.claiming.Nodup
  claiming : ∀ i ∈ m.claiming, ∃ l, m.leases[i]? = some l ∧ l.claimed = false
  frame : ∀ i n, m.frame = some (.lease i, n) →
    m.active = some i ∧ ∃ l, m.leases[i]? = some l ∧ l.claimed = true

/-- A new lease keeps the leases alive.

**Proof sketch.** No lease is active, so that every lease before is cancelled, or neither claimed
nor waiting. The new one is the last of the list and waits for its claim. -/
theorem Alive.start {m : Leasing} {l : Metered} (ha : m.Alive) (h : m.active = none)
    (hl : l.Fresh) :
    Alive { m with
      prepared := false, active := some m.leases.length, leases := m.leases ++ [l]
      claiming := m.claiming ++ [m.leases.length] } where
  prepared hp := absurd hp (by simp)
  active i hi := by
    obtain rfl : m.leases.length = i := Option.some.inj hi
    exact ⟨l, List.getElem?_concat_length, hl.cancelled, .inr (by simp)⟩
  alive i l' hi hcancelled hclaimed := by
    rw [List.getElem?_append] at hi
    split at hi
    · rename_i hlt
      have hold : l'.claimed = true ∨ i ∈ m.claiming := by
        rcases hclaimed with hclaimed | hclaimed
        · exact .inl hclaimed
        · rcases List.mem_append.1 hclaimed with hclaimed | hclaimed
          · exact .inr hclaimed
          · rw [List.mem_singleton.1 hclaimed] at hlt
            exact absurd hlt (lt_irrefl _)
      have hnone := ha.alive i l' hi hcancelled hold
      rw [h] at hnone
      cases hnone
    · have hzero := (List.getElem?_eq_some_iff.1 hi).1
      rw [List.length_singleton] at hzero
      show some m.leases.length = some i
      rw [show m.leases.length = i by omega]
  nodup := by
    rw [List.nodup_append]
    refine ⟨ha.nodup, List.nodup_singleton _, fun i hi j hj => ?_⟩
    obtain ⟨l', hl', -⟩ := ha.claiming i hi
    rw [List.mem_singleton.1 hj]
    exact ne_of_lt (List.getElem?_eq_some_iff.1 hl').1
  claiming i hi := by
    rcases List.mem_append.1 hi with hi | hi
    · obtain ⟨l', hl', hclaimed⟩ := ha.claiming i hi
      exact ⟨l', by rw [List.getElem?_append_left (List.getElem?_eq_some_iff.1 hl').1, hl'], hclaimed⟩
    · rw [List.mem_singleton.1 hi]
      exact ⟨l, List.getElem?_concat_length, hl.claimed⟩
  frame i n hi := by
    obtain ⟨hactive, -⟩ := ha.frame i n hi
    rw [h] at hactive
    cases hactive

/-- A lease that was written, as it was before. -/
theorem of_modify {leases : List Metered} {f : Metered → Metered} {i j : Nat} {l : Metered}
    (h : (leases.modify i f)[j]? = some l) :
    ∃ l', leases[j]? = some l' ∧ l = if i = j then f l' else l' := by
  rw [List.getElem?_modify] at h
  obtain ⟨l', hl', rfl⟩ := Option.map_eq_some_iff.1 h
  exact ⟨l', hl', rfl⟩

/-- A lease after one of them was written. -/
theorem modified {leases : List Metered} {j : Nat} {l : Metered} (h : leases[j]? = some l)
    (f : Metered → Metered) (i : Nat) :
    (leases.modify i f)[j]? = some (if i = j then f l else l) := by
  rw [List.getElem?_modify, h]
  rfl

/-- A claim that succeeds keeps the leases alive. -/
theorem Alive.claimed {m : Leasing} (ha : m.Alive) {i : Nat} (h : i ∈ m.claiming) :
    Alive { m with
      claiming := m.claiming.erase i
      leases := m.leases.modify i fun l => { l with claimed := true } } where
  prepared := ha.prepared
  active j hj := by
    obtain ⟨l, hl, hcancelled, hclaimed⟩ := ha.active j hj
    refine ⟨_, modified hl _ _, ?_⟩
    by_cases hij : i = j
    · rw [if_pos hij]
      exact ⟨hcancelled, .inl rfl⟩
    · rw [if_neg hij]
      refine ⟨hcancelled, ?_⟩
      rcases hclaimed with hclaimed | hclaimed
      · exact .inl hclaimed
      · exact .inr ((List.mem_erase_of_ne (Ne.symm hij)).2 hclaimed)
  alive j l hj hcancelled hclaimed := by
    obtain ⟨l', hl', rfl⟩ := of_modify hj
    by_cases hij : i = j
    · rw [if_pos hij] at hcancelled
      exact ha.alive j l' hl' hcancelled (.inr (hij ▸ h))
    · rw [if_neg hij] at hcancelled hclaimed
      refine ha.alive j l' hl' hcancelled ?_
      rcases hclaimed with hclaimed | hclaimed
      · exact .inl hclaimed
      · exact .inr (List.mem_of_mem_erase hclaimed)
  nodup := ha.nodup.erase i
  claiming j hj := by
    obtain ⟨hne, hj⟩ := (ha.nodup.mem_erase_iff).1 hj
    obtain ⟨l, hl, hclaimed⟩ := ha.claiming j hj
    refine ⟨_, modified hl _ _, ?_⟩
    rw [if_neg (Ne.symm hne)]
    exact hclaimed
  frame j n hj := by
    obtain ⟨hactive, l, hl, hclaimed⟩ := ha.frame j n hj
    refine ⟨hactive, _, modified hl _ _, ?_⟩
    split
    · rfl
    · exact hclaimed

/-- A claim that is refused keeps the leases alive.

**Proof sketch.** The refused lease leaves the claims that wait, and is not claimed. If it was the
active one then none is active; every other lease keeps its place in both lists. -/
theorem Alive.refused {m : Leasing} (ha : m.Alive) {i : Nat} (h : i ∈ m.claiming) :
    Alive { m with
      claiming := m.claiming.erase i
      active := if m.active = some i then none else m.active } where
  prepared hp := by
    show (if m.active = some i then none else m.active) = none
    rw [ha.prepared hp]
    simp
  active j hj := by
    have hj : (if m.active = some i then none else m.active) = some j := hj
    split at hj
    · cases hj
    · rename_i hne
      obtain ⟨l, hl, hcancelled, hclaimed⟩ := ha.active j hj
      have hij : j ≠ i := by
        intro hij
        exact hne (hij ▸ hj)
      refine ⟨l, hl, hcancelled, ?_⟩
      rcases hclaimed with hclaimed | hclaimed
      · exact .inl hclaimed
      · exact .inr ((List.mem_erase_of_ne hij).2 hclaimed)
  alive j l hj hcancelled hclaimed := by
    show (if m.active = some i then none else m.active) = some j
    -- the refused lease was not claimed, and it waits for no other answer
    have hij : j ≠ i := by
      rintro rfl
      obtain ⟨l', hl', hno⟩ := ha.claiming j h
      obtain rfl : l' = l := Option.some.inj (hl'.symm.trans hj)
      rcases hclaimed with hclaimed | hclaimed
      · rw [hno] at hclaimed
        cases hclaimed
      · exact ((ha.nodup.mem_erase_iff).1 hclaimed).1 rfl
    have hactive : m.active = some j := by
      refine ha.alive j l hj hcancelled ?_
      rcases hclaimed with hclaimed | hclaimed
      · exact .inl hclaimed
      · exact .inr (List.mem_of_mem_erase hclaimed)
    rw [hactive, if_neg (by simpa using hij)]
  nodup := ha.nodup.erase i
  claiming j hj := ha.claiming j (List.mem_of_mem_erase hj)
  frame j n hj := by
    obtain ⟨hactive, l, hl, hclaimed⟩ := ha.frame j n hj
    have hij : j ≠ i := by
      rintro rfl
      obtain ⟨l', hl', hno⟩ := ha.claiming j h
      obtain rfl : l' = l := Option.some.inj (hl'.symm.trans hl)
      rw [hno] at hclaimed
      cases hclaimed
    refine ⟨?_, l, hl, hclaimed⟩
    show (if m.active = some i then none else m.active) = some j
    rw [hactive, if_neg (by simpa using hij)]

/-- Taking the active lease for its report keeps the leases alive. -/
theorem Alive.take {m : Leasing} (ha : m.Alive) {i : Nat} (taken : Nat → Nat)
    (h : m.active = some i) (hframe : m.frame = none) :
    Alive { m with
      active := none, taken
      leases := m.leases.modify i fun l => { l with cancelled := true } } where
  prepared _ := rfl
  active j hj := absurd hj (by simp)
  alive j l hj hcancelled hclaimed := by
    obtain ⟨l', hl', rfl⟩ := of_modify hj
    by_cases hij : i = j
    · rw [if_pos hij] at hcancelled
      cases hcancelled
    · rw [if_neg hij] at hcancelled hclaimed
      have hj := ha.alive j l' hl' hcancelled hclaimed
      rw [h] at hj
      exact absurd (Option.some.inj hj) hij
  nodup := ha.nodup
  claiming j hj := by
    obtain ⟨l, hl, hclaimed⟩ := ha.claiming j hj
    refine ⟨_, modified hl _ _, ?_⟩
    split <;> exact hclaimed
  frame j n hj := by
    have hj : m.frame = some (.lease j, n) := hj
    rw [hframe] at hj
    cases hj

/-- What the guard writes of a holder, who was not cancelled or refused by it. -/
theorem Alive.meter {m : Leasing} (ha : m.Alive) (h : Holder) {f : Metered → Metered}
    (hclaimed : ∀ l, (f l).claimed = l.claimed) (hcancelled : ∀ l, (f l).cancelled = l.cancelled) :
    (m.meter h f).Alive := by
  cases h with
  | startup => exact ⟨ha.prepared, ha.active, ha.alive, ha.nodup, ha.claiming, ha.frame⟩
  | lease i =>
    have hget : ∀ (j : Nat) (l : Metered), m.leases[j]? = some l →
        ∃ l' : Metered, (m.leases.modify i f)[j]? = some l' ∧ l'.claimed = l.claimed ∧
          l'.cancelled = l.cancelled := by
      intro j l hl
      refine ⟨_, modified hl _ _, ?_⟩
      split
      · exact ⟨hclaimed l, hcancelled l⟩
      · exact ⟨rfl, rfl⟩
    refine ⟨ha.prepared, fun j hj => ?_, fun j l hj hno hyes => ?_, ha.nodup, fun j hj => ?_,
      fun j n hj => ?_⟩
    · obtain ⟨l, hl, hno, hyes⟩ := ha.active j hj
      obtain ⟨l', hl', hsame, hsame'⟩ := hget j l hl
      exact ⟨l', hl', hsame'.trans hno, by rw [hsame]; exact hyes⟩
    · obtain ⟨l', hl', rfl⟩ := of_modify hj
      refine ha.alive j l' hl' ?_ ?_
      · rw [← hno]
        split
        · exact (hcancelled l').symm
        · rfl
      · rcases hyes with hyes | hyes
        · refine .inl ?_
          rw [← hyes]
          split
          · exact (hclaimed l').symm
          · rfl
        · exact .inr hyes
    · obtain ⟨l, hl, hno⟩ := ha.claiming j hj
      obtain ⟨l', hl', hsame, -⟩ := hget j l hl
      exact ⟨l', hl', hsame.trans hno⟩
    · obtain ⟨hactive, l, hl, hyes⟩ := ha.frame j n hj
      obtain ⟨l', hl', hsame, -⟩ := hget j l hl
      exact ⟨hactive, l', hl', hsame.trans hyes⟩

/-- A compute frame that is checked is for the active lease, or for the startup budget. -/
theorem holder_cases {m : Leasing} {h : Holder} (hh : m.holder = some h) :
    (∃ i, h = .lease i ∧ m.active = some i) ∨
      (h = .startup ∧ m.active = none ∧ m.startupClosed = false) := by
  rw [holder] at hh
  split at hh
  · rename_i i hactive
    exact .inl ⟨i, (Option.some.inj hh).symm, hactive⟩
  · rename_i hactive
    split at hh
    · cases hh
    · rename_i hopen
      exact .inr ⟨(Option.some.inj hh).symm, hactive, eq_false_of_ne_true hopen⟩

/-- A frame that passes its check keeps the leases alive. -/
theorem Check.alive {m m' : Leasing} {h : Holder} {l : Metered} {clock : Clock} {bytes : Nat}
    (hc : Check m m' h l clock bytes) (ha : m.Alive) : m'.Alive := by
  obtain ⟨-, hh, hl, hadmissible, rfl⟩ := hc
  refine ⟨ha.prepared, ha.active, ha.alive, ha.nodup, ha.claiming, fun i n hi => ?_⟩
  obtain ⟨rfl, -⟩ := Prod.mk.inj (Option.some.inj hi)
  rcases holder_cases hh with ⟨j, hj, hactive⟩ | ⟨hj, -⟩
  · rw [Holder.lease.inj hj]
    exact ⟨hactive, l, (Holder.lease.inj hj) ▸ hl, hadmissible.1.1⟩
  · cases hj

/-- **Every move keeps** the active lease the only one that is alive. -/
theorem Move.alive {sha256 : List UInt8 → String} {m m' : Leasing} (h : Move sha256 m m')
    (ha : m.Alive) : m'.Alive := by
  cases h with
  | unprepare =>
    exact ⟨fun hp => absurd hp (by simp), ha.active, ha.alive, ha.nodup, ha.claiming, ha.frame⟩
  | prepare h => exact ⟨fun _ => h, ha.active, ha.alive, ha.nodup, ha.claiming, ha.frame⟩
  | loaded | forget | receipt | pass =>
    exact ⟨ha.prepared, ha.active, ha.alive, ha.nodup, ha.claiming, ha.frame⟩
  | start l h hl => exact ha.start h hl
  | claimed i h => exact ha.claimed h
  | refused i h => exact ha.refused h
  | take i taken h hframe ht => exact ha.take taken h hframe
  | hash h n bytes hframe => exact ha.meter h (fun _ => rfl) fun _ => rfl
  | count h n hframe =>
    have hmeter := ha.meter h (f := fun l => l.counted n) (fun _ => rfl) fun _ => rfl
    exact ⟨hmeter.prepared, hmeter.active, hmeter.alive, hmeter.nodup, hmeter.claiming,
      fun _ _ hi => absurd hi (by simp)⟩
  | endFrame =>
    exact ⟨ha.prepared, ha.active, ha.alive, ha.nodup, ha.claiming,
      fun _ _ hi => absurd hi (by simp)⟩

/-! ### What was counted -/

/-- What a record counts to a holder: the bytes of each frame in both directions. -/
def countedTo (h : Holder) (events : List Event) : List (Nat × Nat) :=
  events.filterMap fun e =>
    match e with
    | .counted h' request response => if h' = h then some (request, response) else none
    | _ => none

/-- An event that counts nothing to a holder leaves its count. -/
theorem countedTo_concat (h : Holder) (events : List Event) (e : Event)
    (he : ∀ n k, e ≠ .counted h n k) : countedTo h (events ++ [e]) = countedTo h events := by
  rw [countedTo, List.filterMap_append]
  cases e with
  | counted h' n k =>
    have hne : h' ≠ h := by
      rintro rfl
      exact he n k rfl
    simp [countedTo, hne]
  | _ => simp [countedTo]

/-- A holder is within its limits. -/
structure WithinLimits (l : Metered) : Prop where
  commands : l.completedCommands ≤ l.maxCommands.getD 1000000
  requests : l.requestBytes ≤ l.maxBytes.getD maxSessionBytes
  responses : l.responseBytes = 24 * l.completedCommands

/-- The numbers of a holder are those of the frames counted to it. -/
structure Tallies (l : Metered) (frames : List (Nat × Nat)) : Prop where
  commands : l.completedCommands = frames.length
  requests : l.requestBytes = (frames.map (·.1)).sum
  responses : l.responseBytes = (frames.map (·.2)).sum

/-- A holder with the same limits and numbers. -/
structure SameNumbers (l l' : Metered) : Prop where
  limits : l'.maxCommands = l.maxCommands ∧ l'.maxBytes = l.maxBytes
  numbers : l'.completedCommands = l.completedCommands ∧ l'.requestBytes = l.requestBytes ∧
    l'.responseBytes = l.responseBytes

/-- A lease has its own numbers. -/
theorem SameNumbers.refl (l : Metered) : SameNumbers l l := ⟨⟨rfl, rfl⟩, rfl, rfl, rfl⟩

/-- A lease with the numbers of one within its limits is within its limits. -/
theorem SameNumbers.within {l l' : Metered} (h : SameNumbers l l') (hw : WithinLimits l) :
    WithinLimits l' := by
  obtain ⟨⟨hc, hb⟩, hcommands, hrequests, hresponses⟩ := h
  constructor
  · rw [hcommands, hc]
    exact hw.commands
  · rw [hrequests, hb]
    exact hw.requests
  · rw [hresponses, hcommands]
    exact hw.responses

/-- A lease with the numbers of one that tallies does so too. -/
theorem SameNumbers.tallies {l l' : Metered} (h : SameNumbers l l') {frames : List (Nat × Nat)}
    (ht : Tallies l frames) : Tallies l' frames := by
  obtain ⟨-, hcommands, hrequests, hresponses⟩ := h
  exact ⟨hcommands.trans ht.commands, hrequests.trans ht.requests, hresponses.trans ht.responses⟩

/-- What the holders were counted: it is within their limits, and it is what the record says. -/
structure Counts (m : Leasing) : Prop where
  within : ∀ h l, m.metered h = some l → WithinLimits l
  room : ∀ h n l, m.frame = some (h, n) → m.metered h = some l →
    l.completedCommands < l.maxCommands.getD 1000000 ∧
      l.requestBytes + n + 22 ≤ l.maxBytes.getD maxSessionBytes
  tallies : ∀ h l, m.metered h = some l → Tallies l (countedTo h m.events)
  known : ∀ i, m.leases.length ≤ i → countedTo (.lease i) m.events = []
  plain : ∀ (i : Nat) (l : Metered), m.leases[i]? = some l → l.maxCommands = none ∧ l.maxBytes = none

/-- What counts no frame keeps the counts. -/
theorem Counts.keeps {m m' : Leasing} (hc : m.Counts)
    (hmetered : ∀ h l', m'.metered h = some l' → ∃ l, m.metered h = some l ∧ SameNumbers l l')
    (hframe : m'.frame = none ∨ m'.frame = m.frame)
    (hevents : ∀ h, countedTo h m'.events = countedTo h m.events)
    (hlength : m.leases.length ≤ m'.leases.length) : m'.Counts where
  within h l' hl' := by
    obtain ⟨l, hl, hsame⟩ := hmetered h l' hl'
    exact hsame.within (hc.within h l hl)
  room h n l' hf hl' := by
    obtain ⟨l, hl, ⟨hcommands, hbytes⟩, hcompleted, hrequest, -⟩ := hmetered h l' hl'
    rcases hframe with hframe | hframe
    · rw [hframe] at hf
      cases hf
    · rw [hcommands, hbytes, hcompleted, hrequest]
      exact hc.room h n l (hframe ▸ hf) hl
  tallies h l' hl' := by
    obtain ⟨l, hl, hsame⟩ := hmetered h l' hl'
    rw [hevents]
    exact hsame.tallies (hc.tallies h l hl)
  known i hi := by
    rw [hevents]
    exact hc.known i (hlength.trans hi)
  plain i l' hl' := by
    obtain ⟨l, hl, ⟨hcommands, hbytes⟩, -⟩ := hmetered (.lease i) l' hl'
    rw [hcommands, hbytes]
    exact hc.plain i l hl

/-- What only writes the holders, and not their numbers, keeps the counts. -/
theorem Counts.meter {m : Leasing} (hc : m.Counts) (h : Holder) {f : Metered → Metered}
    (hf : ∀ l, SameNumbers l (f l)) : (m.meter h f).Counts := by
  cases h with
  | startup =>
    refine hc.keeps (fun h l' hl' => ?_) (.inr rfl) (fun _ => rfl) le_rfl
    cases h with
    | startup =>
      rw [← Option.some.inj hl']
      exact ⟨m.startup, rfl, hf _⟩
    | lease i => exact ⟨l', hl', .refl _⟩
  | lease i =>
    refine hc.keeps (fun h l' hl' => ?_) (.inr rfl) (fun _ => rfl) ?_
    · cases h with
      | startup => exact ⟨l', hl', .refl _⟩
      | lease j =>
        obtain ⟨l, hl, rfl⟩ := of_modify hl'
        refine ⟨l, hl, ?_⟩
        split
        · exact hf l
        · exact .refl l
    · show m.leases.length ≤ (m.leases.modify i f).length
      rw [List.length_modify]

/-- A new lease has counted nothing.

**Proof sketch.** A lease before is found where it was, with its count. The new one is fresh and has
counted nothing, no frame is for it, as the holder of a frame exists, and no event was of it. -/
theorem Counts.start {m : Leasing} {l : Metered} (hc : m.Counts) (ha : m.Alive) (hl : l.Fresh) :
    Counts { m with
      prepared := false, active := some m.leases.length, leases := m.leases ++ [l]
      claiming := m.claiming ++ [m.leases.length] } := by
  obtain ⟨-, -, hlimits, hcommands, hrequests, hresponses⟩ := hl
  have hcases : ∀ (i : Nat) (l' : Metered), (m.leases ++ [l])[i]? = some l' →
      m.leases[i]? = some l' ∨ (m.leases.length = i ∧ l' = l) := by
    intro i l' hi
    rw [List.getElem?_append] at hi
    split at hi
    · exact .inl hi
    · have hlt := (List.getElem?_eq_some_iff.1 hi).1
      rw [List.length_singleton] at hlt
      rw [show i - m.leases.length = 0 by omega] at hi
      exact .inr ⟨by omega, (Option.some.inj hi).symm⟩
  refine ⟨fun h l' hl' => ?_, fun h n l' hf hl' => ?_, fun h l' hl' => ?_, fun i hi => ?_,
    fun i l' hl' => ?_⟩
  · cases h with
    | startup => exact hc.within .startup l' hl'
    | lease i =>
      rcases hcases i l' hl' with hold | ⟨-, rfl⟩
      · exact hc.within (.lease i) l' hold
      · exact ⟨by omega, by omega, by omega⟩
  · cases h with
    | startup => exact hc.room .startup n l' hf hl'
    | lease i =>
      rcases hcases i l' hl' with hold | ⟨rfl, -⟩
      · exact hc.room (.lease i) n l' hf hold
      · obtain ⟨-, l₀, hl₀, -⟩ := ha.frame _ n hf
        exact absurd (List.getElem?_eq_some_iff.1 hl₀).1 (lt_irrefl _)
  · cases h with
    | startup => exact hc.tallies .startup l' hl'
    | lease i =>
      rcases hcases i l' hl' with hold | ⟨rfl, rfl⟩
      · exact hc.tallies (.lease i) l' hold
      · show Tallies l' (countedTo (.lease m.leases.length) m.events)
        rw [hc.known _ le_rfl]
        exact ⟨hcommands, hrequests, hresponses⟩
  · rw [List.length_append] at hi
    exact hc.known i (by omega)
  · rcases hcases i l' hl' with hold | ⟨-, rfl⟩
    · exact hc.plain i l' hold
    · exact hlimits

/-- A frame that passes its check is counted. -/
theorem Check.counts {m m' : Leasing} {h : Holder} {l : Metered} {clock : Clock} {bytes : Nat}
    (hk : Check m m' h l clock bytes) (hc : m.Counts) : m'.Counts := by
  obtain ⟨-, hh, hl, hadmissible, rfl⟩ := hk
  have hevents : ∀ h', countedTo h' (m.events ++ [.checked h]) = countedTo h' m.events :=
    fun h' => countedTo_concat h' _ _ (by simp)
  refine ⟨hc.within, fun h' n l' hf hl' => ?_, fun h' l' hl' => ?_, fun i hi => ?_, hc.plain⟩
  · obtain ⟨rfl, rfl⟩ := Prod.mk.inj (Option.some.inj hf)
    obtain rfl : l = l' := Option.some.inj (hl.symm.trans hl')
    exact hadmissible.2.2
  · show Tallies l' (countedTo h' (m.events ++ [.checked h]))
    rw [hevents]
    exact hc.tallies h' l' hl'
  · show countedTo (.lease i) (m.events ++ [.checked h]) = []
    rw [hevents]
    exact hc.known i hi

/-- What the guard reads of a holder that was written. -/
theorem metered_meter {m : Leasing} {h h' : Holder} {f : Metered → Metered} {l' : Metered}
    (hl : (m.meter h f).metered h' = some l') :
    ∃ l, m.metered h' = some l ∧ l' = if h = h' then f l else l := by
  cases h with
  | startup =>
    cases h' with
    | startup => exact ⟨m.startup, rfl, (Option.some.inj hl).symm⟩
    | lease i => exact ⟨l', hl, rfl⟩
  | lease i =>
    cases h' with
    | startup => exact ⟨l', hl, rfl⟩
    | lease j =>
      obtain ⟨l, hold, rfl⟩ := of_modify hl
      exact ⟨l, hold, by simp⟩

/-- **A frame is counted** to its holder, who has room for it.

**Proof sketch.** The holder of the frame had room for it, which the bound of its limits says once
it is counted. The event is of the holder, and every other holder has the events that it had. -/
theorem Counts.count {m : Leasing} (hc : m.Counts) (ha : m.Alive) {h : Holder} {n : Nat}
    (hframe : m.frame = some (h, n)) :
    Counts { m.meter h (·.counted n) with
      frame := none, events := m.events ++ [.counted h (n + 9 + 13) 24] } := by
  have hself : countedTo h (m.events ++ [.counted h (n + 9 + 13) 24]) =
      countedTo h m.events ++ [(n + 9 + 13, 24)] := by
    simp [countedTo, List.filterMap_append]
  have hother : ∀ h', h ≠ h' →
      countedTo h' (m.events ++ [.counted h (n + 9 + 13) 24]) = countedTo h' m.events := by
    intro h' hne
    refine countedTo_concat h' _ _ fun n' k => ?_
    rw [ne_eq, Event.counted.injEq]
    exact fun hsame => hne hsame.1
  refine ⟨fun h' l' hl' => ?_, fun _ _ _ hf => absurd hf (by simp), fun h' l' hl' => ?_,
    fun i hi => ?_, fun i l' hl' => ?_⟩
  · obtain ⟨l, hl, rfl⟩ := metered_meter (m := m) hl'
    have hwithin := hc.within h' l hl
    split
    · rename_i heq
      subst heq
      obtain ⟨hcommands, hrequests⟩ := hc.room h n l hframe hl
      refine ⟨hcommands, ?_, ?_⟩
      · show l.requestBytes + (n + 9 + 13) ≤ l.maxBytes.getD maxSessionBytes
        omega
      · have hresponses := hwithin.responses
        show l.responseBytes + 24 = 24 * (l.completedCommands + 1)
        omega
    · exact hwithin
  · obtain ⟨l, hl, rfl⟩ := metered_meter (m := m) hl'
    obtain ⟨hcommands, hrequests, hresponses⟩ := hc.tallies h' l hl
    show Tallies _ (countedTo h' (m.events ++ [.counted h (n + 9 + 13) 24]))
    split
    · rename_i heq
      subst heq
      rw [hself]
      refine ⟨?_, ?_, ?_⟩
      · rw [List.length_append, ← hcommands]
        rfl
      · rw [List.map_append, List.sum_append, ← hrequests]
        rfl
      · rw [List.map_append, List.sum_append, ← hresponses]
        rfl
    · rename_i hne
      rw [hother h' hne]
      exact ⟨hcommands, hrequests, hresponses⟩
  · show countedTo (.lease i) (m.events ++ [.counted h (n + 9 + 13) 24]) = []
    have hlength : (m.meter h (·.counted n)).leases.length = m.leases.length := by
      cases h with
      | startup => rfl
      | lease j => exact List.length_modify _ _ _
    have hi : m.leases.length ≤ i := hlength ▸ hi
    rw [hother, hc.known i hi]
    -- the holder of the frame is a lease that exists
    rintro rfl
    obtain ⟨-, l, hl, -⟩ := ha.frame i n hframe
    have hlt := (List.getElem?_eq_some_iff.1 hl).1
    omega
  · obtain ⟨l, hl, rfl⟩ := @metered_meter m _ (.lease i) _ _ hl'
    have hplain := hc.plain i l hl
    split
    · exact hplain
    · exact hplain

/-- **Every move keeps the counts.** -/
theorem Move.counts {sha256 : List UInt8 → String} {m m' : Leasing} (h : Move sha256 m m')
    (ha : m.Alive) (hc : m.Counts) : m'.Counts := by
  have hself : ∀ h l', m.metered h = some l' → ∃ l, m.metered h = some l ∧ SameNumbers l l' :=
    fun _ l' hl' => ⟨l', hl', .refl _⟩
  have hevents : ∀ e, (∀ h n k, e ≠ .counted h n k) →
      ∀ h, countedTo h (m.events ++ [e]) = countedTo h m.events :=
    fun e he h => countedTo_concat h _ _ (he h)
  cases h with
  | unprepare | prepare | refused | forget =>
    exact hc.keeps hself (.inr rfl) (fun _ => rfl) le_rfl
  | endFrame => exact hc.keeps hself (.inl rfl) (fun _ => rfl) le_rfl
  | loaded | receipt | pass => exact hc.keeps hself (.inr rfl) (hevents _ (by simp)) le_rfl
  | start l h hl => exact hc.start ha hl
  | claimed i h =>
    exact (hc.meter (.lease i) (f := fun l => { l with claimed := true })
      fun _ => ⟨⟨rfl, rfl⟩, rfl, rfl, rfl⟩).keeps (fun _ l' hl' => ⟨l', hl', .refl _⟩) (.inr rfl)
      (fun _ => rfl) le_rfl
  | take i taken h hframe ht =>
    exact (hc.meter (.lease i) (f := fun l => { l with cancelled := true })
      fun _ => ⟨⟨rfl, rfl⟩, rfl, rfl, rfl⟩).keeps (fun _ l' hl' => ⟨l', hl', .refl _⟩) (.inr rfl)
      (fun _ => rfl) le_rfl
  | hash h n bytes hframe => exact hc.meter h fun _ => ⟨⟨rfl, rfl⟩, rfl, rfl, rfl⟩
  | count h n hframe => exact hc.count ha hframe

/-! ### Receipts -/

/-- The number of receipts of a lease in a record. -/
def receipts (i : Nat) (events : List Event) : Nat :=
  events.countP fun e =>
    match e with
    | .receipt j _ => j = i
    | _ => false

/-- A lease with a receipt has at least one. -/
theorem receipts_pos {i : Nat} {events : List Event} {r : StageReceiptData}
    (h : .receipt i r ∈ events) : 0 < receipts i events :=
  List.countP_pos_iff.2 ⟨_, h, by simp⟩

/-- An event that is no receipt of a lease leaves the number of its receipts. -/
theorem receipts_concat (i : Nat) (events : List Event) (e : Event) (he : ∀ r, e ≠ .receipt i r) :
    receipts i (events ++ [e]) = receipts i events := by
  rw [receipts, List.countP_append]
  cases e with
  | receipt j r =>
    have hne : j ≠ i := by
      rintro rfl
      exact he r rfl
    simp [receipts, hne]
  | _ => simp [receipts]

/-- A receipt is one more of its lease. -/
theorem receipts_receipt (i j : Nat) (events : List Event) (r : StageReceiptData) :
    receipts i (events ++ [.receipt j r]) = receipts i events + if i = j then 1 else 0 := by
  by_cases hij : i = j
  · subst hij
    simp [receipts, List.countP_append]
  · rw [if_neg hij]
    exact receipts_concat i events _ fun r' hr => hij (Event.receipt.inj hr).1.symm

/-- A lease that was taken away is reported once; its receipt is final. -/
structure Reported (sha256 : List UInt8 → String) (m : Leasing) : Prop where
  once : ∀ i, m.taken i + receipts i m.events ≤ 1
  cancelled : ∀ i, 0 < m.taken i + receipts i m.events →
    ∃ l, m.leases[i]? = some l ∧ l.cancelled = true
  reports : ∀ i r, .receipt i r ∈ m.events → ∃ l, m.leases[i]? = some l ∧ Reports sha256 r l
  final : Log.Each (fun before e => ∀ i r, .receipt i r ∈ before → e.holder ≠ some (.lease i))
    m.events

/-- What a receipt says of a lease is said of it still. -/
def SameReport (l l' : Metered) : Prop :=
  l'.completedCommands = l.completedCommands ∧ l'.requestBytes = l.requestBytes ∧
    l'.responseBytes = l.responseBytes ∧ l'.transcript = l.transcript

/-- A receipt reports every lease with the reported numbers. -/
theorem reports_same {sha256 : List UInt8 → String} {r : StageReceiptData} {l l' : Metered}
    (hr : Reports sha256 r l) (h : SameReport l l') : Reports sha256 r l' := by
  obtain ⟨hcommands, hrequests, hresponses, htranscript⟩ := h
  constructor
  · rw [hcommands]
    exact hr.commands
  · rw [hrequests]
    exact hr.requests
  · rw [hresponses]
    exact hr.responses
  · rw [htranscript]
    exact hr.transcript

/-- What only writes leases that are alive keeps the receipts. -/
theorem Reported.keeps {sha256 : List UInt8 → String} {m m' : Leasing} (hr : m.Reported sha256)
    (hleases : ∀ (i : Nat) (l : Metered), m.leases[i]? = some l → l.cancelled = true →
      ∃ l' : Metered, m'.leases[i]? = some l' ∧ l'.cancelled = true ∧ SameReport l l')
    (htaken : ∀ i, m'.taken i ≤ m.taken i) (hevents : m'.events = m.events) :
    m'.Reported sha256 where
  once i := by
    have honce := hr.once i
    have hle := htaken i
    rw [hevents]
    omega
  cancelled i hpos := by
    have hle := htaken i
    rw [hevents] at hpos
    obtain ⟨l, hl, hcancelled⟩ := hr.cancelled i (by omega)
    obtain ⟨l', hl', hcancelled', -⟩ := hleases i l hl hcancelled
    exact ⟨l', hl', hcancelled'⟩
  reports i r hmem := by
    rw [hevents] at hmem
    obtain ⟨l, hl, hreports⟩ := hr.reports i r hmem
    obtain ⟨l₀, hl₀, hcancelled⟩ := hr.cancelled i (by have := receipts_pos hmem; omega)
    obtain rfl : l = l₀ := Option.some.inj (hl.symm.trans hl₀)
    obtain ⟨l', hl', -, hsame⟩ := hleases i l hl hcancelled
    exact ⟨l', hl', reports_same hreports hsame⟩
  final := by
    rw [hevents]
    exact hr.final

/-- An event about no lease that was reported keeps the receipts. -/
theorem Reported.concat {sha256 : List UInt8 → String} {m : Leasing} (hr : m.Reported sha256)
    {e : Event} (hreceipt : ∀ i r, e ≠ .receipt i r)
    (hholder : ∀ i r, .receipt i r ∈ m.events → e.holder ≠ some (.lease i)) :
    Reported sha256 { m with events := m.events ++ [e] } where
  once i := by
    rw [receipts_concat i _ e (hreceipt i)]
    exact hr.once i
  cancelled i hpos := by
    rw [receipts_concat i _ e (hreceipt i)] at hpos
    exact hr.cancelled i hpos
  reports i r hmem := by
    rcases List.mem_append.1 hmem with hmem | hmem
    · exact hr.reports i r hmem
    · exact absurd (List.mem_singleton.1 hmem).symm (hreceipt i r)
  final := hr.final.concat hholder

/-- The holder of the frame that has its turn was not reported. -/
theorem Alive.unreported {sha256 : List UInt8 → String} {m : Leasing} (ha : m.Alive)
    (hr : m.Reported sha256) {i : Nat} (hactive : m.active = some i) (r : StageReceiptData) :
    .receipt i r ∉ m.events := by
  intro hmem
  obtain ⟨l, hl, hno, -⟩ := ha.active i hactive
  obtain ⟨l', hl', hyes⟩ := hr.cancelled i (by have := receipts_pos hmem; omega)
  obtain rfl : l = l' := Option.some.inj (hl.symm.trans hl')
  rw [hno] at hyes
  cases hyes

/-- What the guard writes of the holder of its frame keeps the receipts. -/
theorem Reported.meter {sha256 : List UInt8 → String} {m : Leasing} (hr : m.Reported sha256)
    (ha : m.Alive) {h : Holder} {n : Nat} (hframe : m.frame = some (h, n)) (f : Metered → Metered) :
    (m.meter h f).Reported sha256 := by
  cases h with
  | startup =>
    exact hr.keeps (fun i l hl hyes => ⟨l, hl, hyes, rfl, rfl, rfl, rfl⟩) (fun _ => le_rfl) rfl
  | lease j =>
    refine hr.keeps (fun i l hl hyes => ?_) (fun _ => le_rfl) rfl
    refine ⟨_, modified hl _ _, ?_⟩
    by_cases hij : j = i
    · -- the holder is alive
      subst hij
      obtain ⟨hactive, -⟩ := ha.frame j n hframe
      obtain ⟨l', hl', hno, -⟩ := ha.active j hactive
      obtain rfl : l = l' := Option.some.inj (hl.symm.trans hl')
      rw [hno] at hyes
      cases hyes
    · rw [if_neg hij]
      exact ⟨hyes, rfl, rfl, rfl, rfl⟩

/-- Taking the active lease for its report keeps the account of the receipts.

**Proof sketch.** The active lease is not cancelled, so that nobody has taken it before and no
receipt is of it. It is cancelled now, and taken once; the others are as they were. -/
theorem Reported.take {sha256 : List UInt8 → String} {m : Leasing} (hr : m.Reported sha256)
    (ha : m.Alive) {i : Nat} {taken : Nat → Nat} (h : m.active = some i)
    (ht : ∀ j, taken j ≤ m.taken j + if j = i then 1 else 0) :
    Reported sha256 { m with
      active := none, taken
      leases := m.leases.modify i fun l => { l with cancelled := true } } := by
  obtain ⟨l, hl, hno, -⟩ := ha.active i h
  -- the lease was not taken before
  have hzero : m.taken i + receipts i m.events = 0 := by
    by_contra hpos
    obtain ⟨l', hl', hyes⟩ := hr.cancelled i (by omega)
    obtain rfl : l = l' := Option.some.inj (hl.symm.trans hl')
    rw [hno] at hyes
    cases hyes
  constructor
  · intro j
    have honce := hr.once j
    have hle := ht j
    show taken j + receipts j m.events ≤ 1
    by_cases hij : j = i
    · subst hij
      rw [if_pos rfl] at hle
      omega
    · rw [if_neg hij] at hle
      omega
  · intro j hpos
    have hle := ht j
    have hpos : 0 < taken j + receipts j m.events := hpos
    by_cases hij : j = i
    · subst hij
      exact ⟨_, modified hl _ _, by rw [if_pos rfl]⟩
    · rw [if_neg hij] at hle
      obtain ⟨l', hl', hyes⟩ := hr.cancelled j (by omega)
      exact ⟨_, modified hl' _ _, by rw [if_neg (Ne.symm hij)]; exact hyes⟩
  · intro j r hmem
    obtain ⟨l', hl', hreports⟩ := hr.reports j r hmem
    refine ⟨_, modified hl' _ _, ?_⟩
    split
    · exact reports_same hreports ⟨rfl, rfl, rfl, rfl⟩
    · exact hreports
  · exact hr.final

/-- A receipt of the numbers of its lease keeps the account of the receipts. -/
theorem Reported.receipt {sha256 : List UInt8 → String} {m : Leasing} (hr : m.Reported sha256)
    {i : Nat} {l : Metered} {r : StageReceiptData} {taken : Nat → Nat}
    (hl : m.leases[i]? = some l) (hreports : Reports sha256 r l)
    (ht : ∀ j, taken j + (if j = i then 1 else 0) ≤ m.taken j) :
    Reported sha256 { m with taken, events := m.events ++ [.receipt i r] } := by
  have htotal : ∀ j, taken j + receipts j (m.events ++ [.receipt i r]) ≤
      m.taken j + receipts j m.events := by
    intro j
    have hle := ht j
    rw [receipts_receipt]
    omega
  have hnone : ∀ r', .receipt i r' ∉ m.events := by
    intro r' hmem
    have hpos := receipts_pos hmem
    have honce := hr.once i
    have hle := ht i
    rw [if_pos rfl] at hle
    omega
  constructor
  · intro j
    exact (htotal j).trans (hr.once j)
  · intro j hpos
    exact hr.cancelled j (lt_of_lt_of_le hpos (htotal j))
  · intro j r' hmem
    rcases List.mem_append.1 hmem with hmem | hmem
    · exact hr.reports j r' hmem
    · obtain ⟨rfl, rfl⟩ := Event.receipt.inj (List.mem_singleton.1 hmem)
      exact ⟨l, hl, hreports⟩
  · refine hr.final.concat fun j r' hmem hholder => ?_
    rw [Event.holder, Option.some.injEq, Holder.lease.injEq] at hholder
    exact hnone r' (hholder ▸ hmem)

/-- **Every move keeps** the receipts single and final. -/
theorem Move.reported {sha256 : List UInt8 → String} {m m' : Leasing} (h : Move sha256 m m')
    (ha : m.Alive) (hr : m.Reported sha256) : m'.Reported sha256 := by
  have hself : ∀ (i : Nat) (l : Metered), m.leases[i]? = some l → l.cancelled = true →
      ∃ l' : Metered, m.leases[i]? = some l' ∧ l'.cancelled = true ∧ SameReport l l' :=
    fun _ l hl hyes => ⟨l, hl, hyes, rfl, rfl, rfl, rfl⟩
  -- an event of the frame that has its turn
  have hholder : ∀ h n, m.frame = some (h, n) → ∀ i r, .receipt i r ∈ m.events →
      some h ≠ some (Holder.lease i) := by
    intro h n hframe i r hmem hh
    rw [Option.some.inj hh] at hframe
    exact ha.unreported hr (ha.frame i n hframe).1 r hmem
  cases h with
  | unprepare | prepare | refused | endFrame => exact hr.keeps hself (fun _ => le_rfl) rfl
  | forget taken ht => exact hr.keeps hself ht rfl
  | loaded =>
    have hclosed : Reported sha256 { m with startupClosed := true } :=
      hr.keeps hself (fun _ => le_rfl) rfl
    exact hclosed.concat (by simp) (by simp [Event.holder])
  | start l h hl =>
    refine hr.keeps (fun i l' hl' hyes => ⟨l', ?_, hyes, rfl, rfl, rfl, rfl⟩) (fun _ => le_rfl) rfl
    show (m.leases ++ [l])[i]? = some l'
    rw [List.getElem?_append_left (List.getElem?_eq_some_iff.1 hl').1, hl']
  | claimed i h =>
    refine hr.keeps (fun j l hl hyes => ⟨_, modified hl _ _, ?_⟩) (fun _ => le_rfl) rfl
    split <;> exact ⟨hyes, rfl, rfl, rfl, rfl⟩
  | take i taken h hframe ht => exact hr.take ha h ht
  | receipt i l r taken hl hreports ht => exact hr.receipt hl hreports ht
  | hash h n bytes hframe => exact hr.meter ha hframe _
  | pass h n bytes hframe => exact hr.concat (by simp) (hholder h n hframe)
  | count h n hframe =>
    refine ((hr.meter ha hframe _).concat (e := .counted h (n + 9 + 13) 24) (by simp) ?_).keeps
      (fun _ l hl hyes => ⟨l, hl, hyes, rfl, rfl, rfl, rfl⟩) (fun _ => le_rfl) ?_
    · intro i r hmem
      refine hholder h n hframe i r ?_
      cases h <;> exact hmem
    · cases h <;> rfl

/-- A frame that passes its check changes no lease that was reported. -/
theorem Check.reported {sha256 : List UInt8 → String} {m m' : Leasing} {h : Holder} {l : Metered}
    {clock : Clock} {bytes : Nat} (hk : Check m m' h l clock bytes) (ha : m.Alive)
    (hr : m.Reported sha256) : m'.Reported sha256 := by
  obtain ⟨-, hh, -, -, rfl⟩ := hk
  refine (hr.concat (e := .checked h) (by simp) fun i r hmem hholder => ?_).keeps
    (fun _ l hl hyes => ⟨l, hl, hyes, rfl, rfl, rfl, rfl⟩) (fun _ => le_rfl) rfl
  obtain rfl : h = .lease i := Option.some.inj hholder
  rcases holder_cases hh with ⟨j, hj, hactive⟩ | ⟨hj, -⟩
  · exact ha.unreported hr hactive r (Holder.lease.inj hj ▸ hmem)
  · cases hj

/-! ### The startup budget -/

/-- Once a heartbeat found the backend loaded, no frame is counted to the startup budget. -/
structure Closed (m : Leasing) : Prop where
  closed : .loaded ∈ m.events → m.startupClosed = true
  each : Log.Each (fun before e => .loaded ∈ before → e ≠ .checked .startup) m.events

/-- **Every move keeps** the startup budget closed. -/
theorem Move.closed {sha256 : List UInt8 → String} {m m' : Leasing} (h : Move sha256 m m')
    (hc : m.Closed) : m'.Closed := by
  have hconcat : ∀ e, e ≠ .checked .startup → e ≠ .loaded →
      Closed { m with events := m.events ++ [e] } := by
    intro e hcheck hloaded
    refine ⟨fun hmem => ?_, hc.each.concat fun _ => hcheck⟩
    rcases List.mem_append.1 hmem with hmem | hmem
    · exact hc.closed hmem
    · exact absurd (List.mem_singleton.1 hmem).symm hloaded
  have hmeter : ∀ h f, (m.meter h f).Closed := by
    intro h f
    cases h <;> exact ⟨hc.closed, hc.each⟩
  cases h with
  | unprepare | prepare | start | claimed | refused | take | forget | endFrame =>
    exact ⟨hc.closed, hc.each⟩
  | loaded => exact ⟨fun _ => rfl, hc.each.concat fun _ => by simp⟩
  | receipt i l r taken hl hr ht =>
    have hevent := hconcat (.receipt i r) (by simp) (by simp)
    exact ⟨hevent.closed, hevent.each⟩
  | hash h n bytes hframe => exact hmeter h _
  | pass h n bytes hframe => exact hconcat _ (by simp) (by simp)
  | count h n hframe =>
    have hevent := hconcat (.counted h (n + 9 + 13) 24) (by simp) (by simp)
    cases h <;> exact ⟨hevent.closed, hevent.each⟩

/-- A frame that passes its check reopens no lease. -/
theorem Check.closed {m m' : Leasing} {h : Holder} {l : Metered} {clock : Clock} {bytes : Nat}
    (hk : Check m m' h l clock bytes) (hc : m.Closed) : m'.Closed := by
  obtain ⟨-, hh, -, -, rfl⟩ := hk
  refine ⟨fun hmem => ?_, hc.each.concat fun hloaded hcheck => ?_⟩
  · rcases List.mem_append.1 hmem with hmem | hmem
    · exact hc.closed hmem
    · cases List.mem_singleton.1 hmem
  · -- the budget had been closed, so that the frame would have had no holder
    obtain rfl := Event.checked.inj hcheck
    have hclosed := hc.closed hloaded
    rcases holder_cases hh with ⟨i, hi, -⟩ | ⟨-, -, hopen⟩
    · cases hi
    · rw [hclosed] at hopen
      cases hopen

/-! ### The frame of an event -/

/-- What happens of a compute frame happens after its check and before the next one. -/
structure Framed (m : Leasing) : Prop where
  frame : ∀ h n, m.frame = some (h, n) → Log.LastMark Event.Marks (· = .checked h) m.events
  each : Log.Each (fun before e => ∀ h, e.ofFrame = some h →
    Log.LastMark Event.Marks (· = .checked h) before) m.events

/-- **Every move keeps** the frames after their checks. -/
theorem Move.framed {sha256 : List UInt8 → String} {m m' : Leasing} (h : Move sha256 m m')
    (hf : m.Framed) : m'.Framed := by
  have hconcat : ∀ e, ¬ e.Marks → (∀ h, e.ofFrame = some h → ∃ n, m.frame = some (h, n)) →
      Framed { m with events := m.events ++ [e] } := by
    intro e hmarks hframe
    refine ⟨fun h n hn => (hf.frame h n hn).concat hmarks, hf.each.concat fun h he => ?_⟩
    obtain ⟨n, hn⟩ := hframe h he
    exact hf.frame h n hn
  cases h with
  | unprepare | prepare | start | claimed | refused | take | forget => exact ⟨hf.frame, hf.each⟩
  | endFrame => exact ⟨fun _ _ hn => absurd hn (by simp), hf.each⟩
  | loaded =>
    have hevent := hconcat .loaded (by simp [Event.Marks]) (by simp [Event.ofFrame])
    exact ⟨hevent.frame, hevent.each⟩
  | receipt i l r taken hl hr ht =>
    have hevent := hconcat (.receipt i r) (by simp [Event.Marks]) (by simp [Event.ofFrame])
    exact ⟨hevent.frame, hevent.each⟩
  | hash h n bytes hframe => cases h <;> exact ⟨hf.frame, hf.each⟩
  | pass h n bytes hframe =>
    refine hconcat (.passed h bytes) (by simp [Event.Marks]) fun h' he => ⟨n, ?_⟩
    rw [hframe, ← Option.some.inj he]
  | count h n hframe =>
    refine ⟨fun _ _ hn => absurd hn (by simp), ?_⟩
    have hlast := hf.frame h n hframe
    cases h <;> exact hf.each.concat fun h' he => Option.some.inj he ▸ hlast

/-- A frame that passes its check is framed. -/
theorem Check.framed {m m' : Leasing} {h : Holder} {l : Metered} {clock : Clock} {bytes : Nat}
    (hk : Check m m' h l clock bytes) (hf : m.Framed) : m'.Framed := by
  obtain ⟨-, -, -, -, rfl⟩ := hk
  refine ⟨fun h' n hn => ?_, hf.each.concat fun h' he => ?_⟩
  · obtain ⟨rfl, -⟩ := Prod.mk.inj (Option.some.inj hn)
    exact .new trivial rfl
  · cases he

/-! ### All of it -/

/-- The invariant of the machine. -/
structure Sound (sha256 : List UInt8 → String) (m : Leasing) : Prop where
  alive : m.Alive
  counts : m.Counts
  reported : m.Reported sha256
  closed : m.Closed
  framed : m.Framed

/-- **A move** keeps the leases sound. -/
theorem Move.sound {sha256 : List UInt8 → String} {m m' : Leasing} (h : Move sha256 m m')
    (hs : m.Sound sha256) : m'.Sound sha256 :=
  ⟨h.alive hs.alive, h.counts hs.alive hs.counts, h.reported hs.alive hs.reported,
    h.closed hs.closed, h.framed hs.framed⟩

/-- **A frame that passes its check** keeps the leases sound. -/
theorem Check.sound {sha256 : List UInt8 → String} {m m' : Leasing} {h : Holder} {l : Metered}
    {clock : Clock} {bytes : Nat} (hk : Check m m' h l clock bytes) (hs : m.Sound sha256) :
    m'.Sound sha256 :=
  ⟨hk.alive hs.alive, hk.counts hs.counts, hk.reported hs.alive hs.reported, hk.closed hs.closed,
    hk.framed hs.framed⟩

/-- A record that grows, by events that are no checks. -/
def Unchecked (events events' : List Event) : Prop :=
  ∃ new, events' = events ++ new ∧ ∀ h, .checked h ∉ new

/-- Nothing new holds no check. -/
theorem Unchecked.refl (events : List Event) : Unchecked events events :=
  ⟨[], (List.append_nil _).symm, fun _ => List.not_mem_nil⟩

/-- Events without a check after events without a check. -/
theorem Unchecked.trans {a b c : List Event} (hab : Unchecked a b) (hbc : Unchecked b c) :
    Unchecked a c := by
  obtain ⟨new, rfl, hnew⟩ := hab
  obtain ⟨newer, rfl, hnewer⟩ := hbc
  refine ⟨new ++ newer, List.append_assoc _ _ _, fun h hmem => ?_⟩
  rcases List.mem_append.1 hmem with hmem | hmem
  · exact hnew h hmem
  · exact hnewer h hmem

/-- A move checks no frame. -/
theorem Move.unchecked {sha256 : List UInt8 → String} {m m' : Leasing} (h : Move sha256 m m') :
    Unchecked m.events m'.events := by
  cases h with
  | unprepare | prepare | start | claimed | refused | take | forget | endFrame => exact .refl _
  | loaded => exact ⟨[.loaded], rfl, by simp⟩
  | receipt i l r taken hl hr ht => exact ⟨[.receipt i r], rfl, by simp⟩
  | hash h n bytes hframe => cases h <;> exact .refl _
  | pass h n bytes hframe => exact ⟨[.passed h bytes], rfl, by simp⟩
  | count h n hframe => cases h <;> exact ⟨[.counted _ (n + 9 + 13) 24], rfl, by simp⟩

end Leasing

end NetworkAi.Stage
