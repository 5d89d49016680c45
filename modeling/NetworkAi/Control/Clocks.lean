import NetworkAi.Control.Coordinator

set_option relaxedAutoImplicit false
set_option autoImplicit false

/-!
# Runs under one clock

The readings of a transaction are arbitrary in the model: nothing relates `now()`, `Date.now()` and
`clock_timestamp()` of one transaction, or of two. A run is under one monotone clock when all
readings of a transaction lie between the instants at which it starts and ends, and the
transactions follow one another.

## Main definitions

* `NetworkAi.Tx.Within` — a transaction takes place between two instants.
* `NetworkAi.Clocked` — the transactions of a run follow one another.

## Main results

* `NetworkAi.clocked_invariant` — the induction over a run under one clock.
-/

namespace NetworkAi

/-- A whole millisecond is read back as itself. -/
theorem toMs_ofMs (t : Int) : toMs (ofMs t) = t := Int.mul_ediv_cancel t (by decide)

/-- Reading the milliseconds of an instant keeps the order. -/
theorem toMs_mono {a b : Micros} (h : a ≤ b) : toMs a ≤ toMs b :=
  Int.ediv_le_ediv (by decide) h

/-- **A transaction takes place between two instants**: it starts at `now()`, and every other
reading is between its start and its end. -/
structure Tx.Within (tx : Tx) (lo hi : Micros) : Prop where
  now : lo ≤ tx.now
  wall : ∀ k, tx.now ≤ tx.wall k ∧ tx.wall k ≤ hi
  date : ∀ k, toMs tx.now ≤ tx.date k ∧ tx.date k ≤ toMs hi

/-- The transactions of a run follow one another, between two instants. -/
def Clocked : Micros → List (Tx × Request) → Micros → Prop
  | lo, [], hi => lo ≤ hi
  | lo, i :: is, hi => ∃ mid, i.1.Within lo mid ∧ Clocked mid is hi

variable {env : Env} {tx : Tx} {db : Db} {lo hi : Micros} {is : List (Tx × Request)}

/-- A transaction lies in no empty stretch of time. -/
theorem Tx.Within.le (h : tx.Within lo hi) : lo ≤ hi :=
  h.now.trans ((h.wall 0).1.trans (h.wall 0).2)

/-- A clocked run ends no earlier than it starts. -/
theorem Clocked.le : ∀ {lo : Micros} {is : List (Tx × Request)}, Clocked lo is hi → lo ≤ hi
  | _, [], h => h
  | _, _ :: _, ⟨_, hnow, hrest⟩ => hnow.le.trans hrest.le

/-- A clocked run after a clocked run, from the instant where that one ended. -/
theorem Clocked.append {mid : Micros} {js : List (Tx × Request)} (h : Clocked lo is mid)
    (hj : Clocked mid js hi) : Clocked lo (is ++ js) hi := by
  induction is generalizing lo with
  | nil =>
    cases js with
    | nil => exact h.trans hj
    | cons j js =>
      obtain ⟨next, hnow, hrest⟩ := hj
      exact ⟨next, { hnow with now := h.trans hnow.now }, hrest⟩
  | cons i is ih =>
    obtain ⟨next, hnow, hrest⟩ := h
    exact ⟨next, hnow, ih hrest⟩

/-- A clocked run has an instant between any two of its parts. -/
theorem Clocked.split {js : List (Tx × Request)} (h : Clocked lo (is ++ js) hi) :
    ∃ mid, Clocked lo is mid ∧ Clocked mid js hi := by
  induction is generalizing lo with
  | nil => exact ⟨lo, le_refl lo, h⟩
  | cons i is ih =>
    obtain ⟨next, hnow, hrest⟩ := h
    obtain ⟨mid, his, hjs⟩ := ih hrest
    exact ⟨mid, ⟨next, hnow, his⟩, hjs⟩

/-- A clocked run may be given more time to end. -/
theorem Clocked.wait {mid : Micros} (h : Clocked lo is mid) (hle : mid ≤ hi) :
    Clocked lo is hi := by
  have happ : Clocked lo (is ++ []) hi := h.append hle
  rwa [List.append_nil] at happ

/-- **The induction over a run under one clock**: a property of a database at an instant that goes
on as time passes, and that every transaction preserves up to its end. -/
theorem clocked_invariant {P : Micros → Db → Prop}
    (hwait : ∀ lo hi db, lo ≤ hi → P lo db → P hi db)
    (hstep : ∀ lo hi db i, Machine.Reachable (controlSystem env) db → i.1.Within lo hi →
      P lo db → P hi ((controlSystem env).step i db))
    (hr : Machine.Reachable (controlSystem env) db) (hclock : Clocked lo is hi) (hp : P lo db) :
    P hi ((controlSystem env).run db is) := by
  induction is generalizing lo db with
  | nil => exact hwait lo hi db hclock hp
  | cons i is ih =>
    obtain ⟨mid, hnow, hrest⟩ := hclock
    exact ih (.step i hr) hrest (hstep lo mid db i hr hnow hp)

/-! ### The clock of the laboratory -/

/-- A transaction of the examples reads one instant. -/
theorem labTx_within (n : Nat) (ms : Int) :
    (labTx n ms).Within (ofMs (86400000 + ms)) (ofMs (86400000 + ms)) := by
  refine ⟨le_refl _, fun k => ⟨le_refl _, le_refl _⟩, fun k => ?_⟩
  show toMs (ofMs (86400000 + ms)) ≤ 86400000 + ms ∧ 86400000 + ms ≤ toMs (ofMs (86400000 + ms))
  rw [toMs_ofMs]
  exact ⟨le_refl _, le_refl _⟩

/-- Requests of the laboratory at one instant. -/
theorem clocked_labTx {is : List (Tx × Request)} {ms : Int}
    (h : is.Forall fun i => ∃ n, i.1 = labTx n ms) :
    Clocked (ofMs (86400000 + ms)) is (ofMs (86400000 + ms)) := by
  induction is with
  | nil => exact le_refl _
  | cons i is ih =>
    obtain ⟨⟨n, hn⟩, hrest⟩ := List.forall_cons _ _ _ |>.1 h
    exact ⟨_, hn ▸ labTx_within n ms, ih hrest⟩

/-- The laboratory is set up at one instant. -/
theorem labPlan_clocked :
    Clocked (ofMs (86400000 + 0)) (labSetup ++ labPlan) (ofMs (86400000 + 0)) := by
  refine clocked_labTx ?_
  unfold labSetup labPlan labBeats
  repeat' first | exact ⟨_, rfl⟩ | constructor

end NetworkAi
