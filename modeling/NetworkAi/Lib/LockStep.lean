import Mathlib.Data.List.Infix

set_option relaxedAutoImplicit false
set_option autoImplicit false

/-!
# Two components in lock step

A component answers every input. Two components that stay in a relation which fixes their answers
answer every sequence of inputs alike.

## Main definitions

* `Machine.after`, `Machine.answers` — the state and the answers after a list of inputs.
* `Machine.LockStep` — a relation that inputs keep and that fixes the answers.

## Main results

* `Machine.LockStep.run` — the relation holds after every list of inputs, with equal answers.
-/

namespace Machine

variable {α β ι ο : Type}

/-- The state after a list of inputs. -/
def after (step : ι → α → α × ο) (s : α) (is : List ι) : α :=
  is.foldl (fun s i => (step i s).1) s

/-- The answers to a list of inputs. -/
def answers (step : ι → α → α × ο) (s : α) : List ι → List ο
  | [] => []
  | i :: is => (step i s).2 :: answers step (step i s).1 is

/-- Under inputs of a kind, the relation fixes the answers and is kept. -/
structure LockStep (stepA : ι → α → α × ο) (stepB : ι → β → β × ο) (P : ι → Prop)
    (R : α → β → Prop) : Prop where
  answer : ∀ i a b, P i → R a b → (stepA i a).2 = (stepB i b).2
  keep : ∀ i a b, P i → R a b → R (stepA i a).1 (stepB i b).1

variable {stepA : ι → α → α × ο} {stepB : ι → β → β × ο} {P : ι → Prop} {R : α → β → Prop}

/-- **Lock step.** The relation holds after every list of inputs, and the answers are the same. -/
theorem LockStep.run (h : LockStep stepA stepB P R) {is : List ι} (his : ∀ i ∈ is, P i) {a : α}
    {b : β} (hR : R a b) :
    R (after stepA a is) (after stepB b is) ∧ answers stepA a is = answers stepB b is := by
  induction is generalizing a b with
  | nil => exact ⟨hR, rfl⟩
  | cons i is ih =>
    have hi := his i List.mem_cons_self
    obtain ⟨hafter, hanswers⟩ := ih (fun j hj => his j (List.mem_cons_of_mem _ hj))
      (h.keep i a b hi hR)
    refine ⟨hafter, ?_⟩
    show (stepA i a).2 :: answers stepA (stepA i a).1 is =
      (stepB i b).2 :: answers stepB (stepB i b).1 is
    rw [h.answer i a b hi hR, hanswers]

end Machine
