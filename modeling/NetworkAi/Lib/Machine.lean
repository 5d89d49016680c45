import Mathlib.Logic.Relation

set_option relaxedAutoImplicit false
set_option autoImplicit false

/-!
# Transition systems and their invariants

A system is a set of initial states and a total step function under inputs; an input that is
rejected is a step as well, which leaves what the system leaves. A property of every reachable state
is proved once from its base case and from what one step preserves. Where a step is a composite of
smaller moves, it is enough that every move preserves the property.

## Main definitions

* `Machine.System`, `Machine.Reachable`, `Machine.System.run` — systems, states and runs.
* `Machine.Star` — finitely many moves of a relation.

## Main results

* `Machine.Reachable.invariant` — the induction over reachable states.
* `Machine.System.run_invariant`, `Machine.reachable_run` — the same along a list of inputs.
* `Machine.System.run_arises` — what arises along a run arises at one of its steps.
* `Machine.Star.preserves` — what every move preserves, finitely many moves preserve.
-/

namespace Machine

variable {σ ι : Type}

/-- A system: its initial states and its step under an input. -/
structure System (σ ι : Type) where
  /-- The states a run may start in. -/
  init : σ → Prop
  /-- The state after an input, which is the old one where the input is rejected as a whole. -/
  step : ι → σ → σ

/-- The states of all runs, under any sequence of inputs. -/
inductive Reachable (M : System σ ι) : σ → Prop
  | init {s : σ} (h : M.init s) : Reachable M s
  | step {s : σ} (i : ι) (h : Reachable M s) : Reachable M (M.step i s)

/-- The state after a list of inputs. -/
def System.run (M : System σ ι) (s : σ) (is : List ι) : σ := is.foldl (fun s i => M.step i s) s

/-- A run without inputs stays where it is. -/
@[simp] theorem System.run_nil (M : System σ ι) (s : σ) : M.run s [] = s := rfl

/-- A run takes its first step first. -/
@[simp] theorem System.run_cons (M : System σ ι) (s : σ) (i : ι) (is : List ι) :
    M.run s (i :: is) = M.run (M.step i s) is := rfl

/-- A run in two parts. -/
theorem System.run_append (M : System σ ι) (s : σ) (is js : List ι) :
    M.run s (is ++ js) = M.run (M.run s is) js := by
  simp [System.run, List.foldl_append]

/-- **Invariants.** A property of the initial states that every step from a reachable state
preserves holds in every reachable state. -/
theorem Reachable.invariant {M : System σ ι} {P : σ → Prop} (h0 : ∀ s, M.init s → P s)
    (hs : ∀ s i, Reachable M s → P s → P (M.step i s)) {s : σ} (h : Reachable M s) : P s := by
  induction h with
  | init h => exact h0 _ h
  | step i h ih => exact hs _ i h ih

/-- The states along a run from a reachable state are reachable. -/
theorem reachable_run {M : System σ ι} {s : σ} (h : Reachable M s) (is : List ι) :
    Reachable M (M.run s is) := by
  induction is generalizing s with
  | nil => exact h
  | cons i is ih => exact ih (.step i h)

/-- A property that every step from a reachable state preserves survives a run. -/
theorem System.run_invariant {M : System σ ι} {P : σ → Prop}
    (hs : ∀ s i, Reachable M s → P s → P (M.step i s)) {s : σ} (hr : Reachable M s) (hp : P s)
    (is : List ι) : P (M.run s is) := by
  induction is generalizing s with
  | nil => exact hp
  | cons i is ih => exact ih (.step i hr) (hs s i hr hp)

/-- **What arises along a run** arises at one of its steps. -/
theorem System.run_arises {M : System σ ι} {P : σ → Prop} {s : σ} {is : List ι} (h0 : ¬ P s)
    (h : P (M.run s is)) : ∃ before i after, is = before ++ i :: after ∧ ¬ P (M.run s before) ∧
      P (M.run s (before ++ [i])) := by
  induction is generalizing s with
  | nil => exact absurd h h0
  | cons i is ih =>
    by_cases hi : P (M.step i s)
    · exact ⟨[], i, is, rfl, h0, hi⟩
    · obtain ⟨before, j, after, rfl, hbefore, hj⟩ := ih hi h
      exact ⟨i :: before, j, after, rfl, hbefore, hj⟩

/-- Finitely many moves of a relation, one after the other. -/
abbrev Star (R : σ → σ → Prop) : σ → σ → Prop := Relation.ReflTransGen R

/-- What every move preserves, finitely many moves preserve. -/
theorem Star.preserves {R : σ → σ → Prop} {P : σ → Prop} (hm : ∀ a b, R a b → P a → P b)
    {s s' : σ} (h : Star R s s') (hp : P s) : P s' := by
  induction h with
  | refl => exact hp
  | tail _ hbc ih => exact hm _ _ hbc ih

/-- A relation between states that is reflexive, transitive and contains every move contains
every sequence of moves. -/
theorem Star.within {R Q : σ → σ → Prop} (hr : ∀ a, Q a a)
    (ht : ∀ a b c, Q a b → R b c → Q a c) {s s' : σ} (h : Star R s s') : Q s s' := by
  induction h with
  | refl => exact hr _
  | tail _ hbc ih => exact ht _ _ _ ih hbc

end Machine
