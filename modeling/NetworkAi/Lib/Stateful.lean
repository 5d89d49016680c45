import Mathlib.Tactic.TypeStar

set_option relaxedAutoImplicit false
set_option autoImplicit false

/-!
# Stateful computations that can fail

A computation over a state that keeps what it did to the state when it fails, as a process does
that is interrupted half way. Its specification has a postcondition for each of the two ways to
end; the rules follow the lines of a `do` block.

## Main definitions

* `Stateful.Prog` — the computations, with their monad.
* `Stateful.Ensures` — the specifications, `Stateful.Keeps` — those of an invariant.
* `Stateful.Respects` — related states give the same result and related states.

## Main results

* `Stateful.Ensures.bind` — the rule for a line of a block.
* `Stateful.Ensures.mono` — the rule of consequence.
* `Stateful.Respects.bind` — a block respects what its lines respect.
-/

namespace Stateful

variable {σ ε α β : Type}

/-- A computation: it ends with a value or an error, and with a state in both cases. -/
def Prog (σ ε α : Type) : Type := σ → Except ε α × σ

instance : Monad (Prog σ ε) where
  pure a := fun s => (.ok a, s)
  bind x f := fun s =>
    match x s with
    | (.ok a, s') => f a s'
    | (.error e, s') => (.error e, s')

/-- The state. -/
def get : Prog σ ε σ := fun s => (.ok s, s)

/-- Replace the state. -/
def modify (f : σ → σ) : Prog σ ε Unit := fun s => (.ok (), f s)

/-- Stop with an error. -/
def fail (e : ε) : Prog σ ε α := fun s => (.error e, s)

/-- Stop with an error unless a condition holds. -/
def require (c : Prop) [Decidable c] (e : ε) : Prog σ ε Unit :=
  if c then pure () else fail e

/-- Run a computation if a condition holds. -/
def when (c : Prop) [Decidable c] (x : Prog σ ε Unit) : Prog σ ε Unit :=
  if c then x else pure ()

/-- The result of a computation, which the block goes on with however it ends. -/
def attempt {ε' : Type} (x : Prog σ ε α) : Prog σ ε' (Except ε α) := fun s => (.ok (x s).1, (x s).2)

/-- Run a computation over a part of the state. -/
def zoom {τ : Type} (part : σ → τ) (put : τ → σ → σ) (x : Prog τ ε α) : Prog σ ε α := fun s =>
  match x (part s) with
  | (r, t) => (r, put t s)

/-- A sequence runs its second part on the result and the state of the first, unless that fails. -/
theorem bind_def (x : Prog σ ε α) (f : α → Prog σ ε β) (s : σ) :
    (x >>= f) s = match x s with
      | (.ok a, s') => f a s'
      | (.error e, s') => (.error e, s') := rfl

/-- Mapping the result leaves the state as it is. -/
theorem map_def (f : α → β) (x : Prog σ ε α) (s : σ) :
    (f <$> x) s = match x s with
      | (.ok a, s') => (.ok (f a), s')
      | (.error e, s') => (.error e, s') := rfl

/-- Returning a value leaves the state as it is. -/
@[simp] theorem pure_def (a : α) (s : σ) : (pure a : Prog σ ε α) s = (.ok a, s) := rfl

/-- Reading the state returns it. -/
@[simp] theorem get_def (s : σ) : (get : Prog σ ε σ) s = (.ok s, s) := rfl

/-- A modification changes the state and returns nothing. -/
@[simp] theorem modify_def (f : σ → σ) (s : σ) :
    (modify f : Prog σ ε Unit) s = (.ok (), f s) := rfl

/-- A failure leaves the state as it is. -/
@[simp] theorem fail_def (e : ε) (s : σ) : (fail e : Prog σ ε α) s = (.error e, s) := rfl

/-- A block that ended well: its first line ended well, and then the rest. -/
theorem bind_ok {x : Prog σ ε α} {f : α → Prog σ ε β} {b : β} {s s' : σ} :
    (x >>= f) s = (.ok b, s') ↔ ∃ a t, x s = (.ok a, t) ∧ f a t = (.ok b, s') := by
  rw [bind_def]
  rcases hx : x s with ⟨e | a, t⟩
  · simp
  · constructor
    · intro h
      exact ⟨a, t, rfl, h⟩
    · rintro ⟨a', t', heq, h⟩
      obtain ⟨ha, rfl⟩ := Prod.mk.inj heq
      rw [Except.ok.inj ha]
      exact h

/-- A check that ended well. -/
@[simp] theorem require_ok {c : Prop} [Decidable c] {e : ε} {u : Unit} {s s' : σ} :
    (require c e : Prog σ ε Unit) s = (.ok u, s') ↔ c ∧ s = s' := by
  by_cases h : c
  · simp [require, h]
  · simp [require, h]

/-- A computation over a part of the state that ended well. -/
theorem zoom_ok {τ : Type} {part : σ → τ} {put : τ → σ → σ} {x : Prog τ ε α} {a : α} {s s' : σ} :
    zoom part put x s = (.ok a, s') ↔ ∃ t, x (part s) = (.ok a, t) ∧ put t s = s' := by
  unfold zoom
  rcases x (part s) with ⟨r, t⟩
  constructor
  · intro h
    obtain ⟨rfl, hput⟩ := Prod.mk.inj h
    exact ⟨t, rfl, hput⟩
  · rintro ⟨t', h, hput⟩
    obtain ⟨rfl, rfl⟩ := Prod.mk.inj h
    rw [← hput]

/-! ### Specifications -/

/-- From every state with `P`, the computation ends with a value and `Q`, or an error and `E`. -/
def Ensures (P : σ → Prop) (x : Prog σ ε α) (Q : α → σ → Prop) (E : ε → σ → Prop) : Prop :=
  ∀ s, P s →
    match x s with
    | (.ok a, s') => Q a s'
    | (.error e, s') => E e s'

/-- The computation keeps a property of the state, however it ends. -/
def Keeps (I : σ → Prop) (x : Prog σ ε α) : Prop := Ensures I x (fun _ => I) (fun _ => I)

section Rules

variable {P P' : σ → Prop} {x : Prog σ ε α} {Q Q' : α → σ → Prop} {E E' : ε → σ → Prop}

/-- A returned value meets what the state before it gives. -/
theorem Ensures.pure {a : α} (h : ∀ s, P s → Q a s) : Ensures P (Pure.pure a) Q E :=
  fun s hs => h s hs

/-- A failure ends in the state before it. -/
theorem Ensures.fail {e : ε} (h : ∀ s, P s → E e s) : Ensures P (Stateful.fail e) Q E :=
  fun s hs => h s hs

/-- A line and what follows it. -/
theorem Ensures.bind {f : α → Prog σ ε β} {R : α → σ → Prop} {Q : β → σ → Prop}
    (hx : Ensures P x R E) (hf : ∀ a, Ensures (R a) (f a) Q E) : Ensures P (x >>= f) Q E := by
  intro s hs
  have hxs := hx s hs
  rw [bind_def]
  rcases h : x s with ⟨_ | a, s'⟩
  · rw [h] at hxs
    exact hxs
  · rw [h] at hxs
    exact hf a s' hxs

/-- **Consequence.** -/
theorem Ensures.mono (h : Ensures P x Q E) (hP : ∀ s, P' s → P s) (hQ : ∀ a s, Q a s → Q' a s)
    (hE : ∀ e s, E e s → E' e s) : Ensures P' x Q' E' := by
  intro s hs
  have hxs := h s (hP s hs)
  rcases hx : x s with ⟨e | a, s'⟩
  · rw [hx] at hxs
    exact hE e s' hxs
  · rw [hx] at hxs
    exact hQ a s' hxs

/-- What is read is the state. -/
theorem Ensures.get {Q : σ → σ → Prop} (h : ∀ s, P s → Q s s) : Ensures P Stateful.get Q E :=
  fun s hs => h s hs

/-- A modification meets what holds of the state it makes. -/
theorem Ensures.modify {f : σ → σ} {Q : Unit → σ → Prop} (h : ∀ s, P s → Q () (f s)) :
    Ensures P (Stateful.modify f) Q E := fun s hs => h s hs

/-- A requirement goes on or fails in the state before it. -/
theorem Ensures.require {c : Prop} [Decidable c] {e : ε} {Q : Unit → σ → Prop}
    (hc : ∀ s, c → P s → Q () s) (hn : ∀ s, ¬ c → P s → E e s) :
    Ensures P (Stateful.require c e) Q E := by
  intro s hs
  unfold Stateful.require
  by_cases h : c
  · rw [if_pos h]
    exact hc s h hs
  · rw [if_neg h]
    exact hn s h hs

/-- A branching meets what both branches meet, each under its condition. -/
theorem Ensures.ite {c : Prop} [Decidable c] {y : Prog σ ε α} (hx : c → Ensures P x Q E)
    (hy : ¬ c → Ensures P y Q E) : Ensures P (if c then x else y) Q E := by
  by_cases h : c
  · rw [if_pos h]
    exact hx h
  · rw [if_neg h]
    exact hy h

/-- A fact that does not depend on the state. -/
theorem Ensures.assume {c : Prop} (h : c → Ensures P x Q E) :
    Ensures (fun s => P s ∧ c) x Q E := fun s hs => h hs.2 s hs.1

/-- A line that checks something. -/
theorem Ensures.check {c : Prop} [Decidable c] {e : ε} {f : Unit → Prog σ ε β} {Q : β → σ → Prop}
    (hfail : ¬ c → ∀ s, P s → E e s) (hf : c → Ensures P (f ()) Q E) :
    Ensures P (Stateful.require c e >>= f) Q E :=
  .bind (R := fun _ s => P s ∧ c) (.require (fun _ hc hs => ⟨hs, hc⟩) fun s hc hs => hfail hc s hs)
    fun _ => .assume hf

/-- What holds for every value of a parameter holds for the one at hand. -/
theorem Ensures.exists {ι : Type} {P : ι → σ → Prop} (h : ∀ i, Ensures (P i) x Q E) :
    Ensures (fun s => ∃ i, P i s) x Q E := fun s ⟨i, hs⟩ => h i s hs

/-- Either end of a computation is a result of the attempt. -/
theorem Ensures.attempt {ε' : Type} {F : ε' → σ → Prop} (h : Ensures P x Q E) :
    Ensures P (Stateful.attempt x) (fun r s =>
      match r with
      | .ok a => Q a s
      | .error e => E e s) F := by
  intro s hs
  have hxs := h s hs
  unfold Stateful.attempt
  rcases hx : x s with ⟨e | a, s'⟩
  · rw [hx] at hxs
    exact hxs
  · rw [hx] at hxs
    exact hxs

/-- A computation over a part of the state, by what it makes of that part. -/
theorem Ensures.zoom {τ : Type} {part : σ → τ} {put : τ → σ → σ} {y : Prog τ ε α}
    (h : ∀ s, P s → Ensures (fun t => t = part s) y (fun a t => Q a (put t s))
      fun e t => E e (put t s)) : Ensures P (Stateful.zoom part put y) Q E := by
  intro s hs
  have hy := h s hs (part s) rfl
  unfold Stateful.zoom
  rcases hrun : y (part s) with ⟨e | a, t⟩
  · rw [hrun] at hy
    exact hy
  · rw [hrun] at hy
    exact hy

/-- What a specification says of a computation that ended well. -/
theorem Ensures.of_ok (h : Ensures P x Q E) {s : σ} (hs : P s) {a : α} (hrun : (x s).1 = .ok a) :
    Q a (x s).2 := by
  have hxs := h s hs
  rcases hx : x s with ⟨e | a', s'⟩
  · rw [hx] at hrun
    cases hrun
  · rw [hx] at hxs hrun
    obtain rfl := Except.ok.inj hrun
    exact hxs

/-- What a specification says of a computation that failed. -/
theorem Ensures.of_error (h : Ensures P x Q E) {s : σ} (hs : P s) {e : ε}
    (hrun : (x s).1 = .error e) : E e (x s).2 := by
  have hxs := h s hs
  rcases hx : x s with ⟨e' | a, s'⟩
  · rw [hx] at hxs hrun
    obtain rfl := Except.error.inj hrun
    exact hxs
  · rw [hx] at hrun
    cases hrun

end Rules

section Invariants

/-! ### Invariants -/

variable {I : σ → Prop} {x : Prog σ ε α}

/-- A computation that keeps the invariant, where failures need less. -/
theorem Keeps.ensures {E : ε → σ → Prop} (h : Keeps I x) (hE : ∀ e s, I s → E e s) :
    Ensures I x (fun _ => I) E := Ensures.mono h (fun _ hs => hs) (fun _ _ hs => hs) hE

/-- Returning a value keeps everything. -/
theorem Keeps.pure {a : α} : Keeps I (Pure.pure a : Prog σ ε α) := Ensures.pure fun _ h => h

/-- A failure keeps everything. -/
theorem Keeps.fail {e : ε} : Keeps I (Stateful.fail e : Prog σ ε α) := Ensures.fail fun _ h => h

/-- A sequence keeps what both parts keep. -/
theorem Keeps.bind {f : α → Prog σ ε β} (hx : Keeps I x) (hf : ∀ a, Keeps I (f a)) :
    Keeps I (x >>= f) := Ensures.bind hx hf

/-- A line that keeps the invariant, before the rest of a block. -/
theorem Keeps.then {f : α → Prog σ ε β} {Q : β → σ → Prop} (hx : Keeps I x)
    (hf : ∀ a, Ensures I (f a) Q fun _ => I) : Ensures I (x >>= f) Q fun _ => I :=
  Ensures.bind hx hf

/-- Reading the state keeps everything. -/
theorem Keeps.get : Keeps I (Stateful.get : Prog σ ε σ) := Ensures.get fun _ h => h

/-- A modification keeps what the modified state keeps. -/
theorem Keeps.modify {f : σ → σ} (h : ∀ s, I s → I (f s)) :
    Keeps I (Stateful.modify f : Prog σ ε Unit) := Ensures.modify h

/-- A requirement keeps everything. -/
theorem Keeps.require {c : Prop} [Decidable c] {e : ε} :
    Keeps I (Stateful.require c e : Prog σ ε Unit) :=
  Ensures.require (fun _ _ h => h) fun _ _ h => h

/-- A branching keeps what both branches keep. -/
theorem Keeps.ite {c : Prop} [Decidable c] {y : Prog σ ε α} (hx : Keeps I x) (hy : Keeps I y) :
    Keeps I (if c then x else y) := Ensures.ite (fun _ => hx) fun _ => hy

/-- A computation over a part of the state keeps what depends on the other parts. -/
theorem Keeps.zoom {τ : Type} {part : σ → τ} {put : τ → σ → σ} {y : Prog τ ε α}
    (h : ∀ s t, I s → I (put t s)) : Keeps I (Stateful.zoom part put y) := by
  intro s hs
  unfold Stateful.zoom
  rcases y (part s) with ⟨e | a, t⟩
  · exact h s t hs
  · exact h s t hs

end Invariants

/-! ### Related states -/

/-- From related states the computation gives the same result, and related states again. -/
def Respects (R : σ → σ → Prop) (x : Prog σ ε α) : Prop :=
  ∀ s s', R s s' → (x s).1 = (x s').1 ∧ R (x s).2 (x s').2

section Respect

variable {R : σ → σ → Prop} {x : Prog σ ε α}

/-- Returning a value respects every relation. -/
theorem Respects.pure {a : α} : Respects R (Pure.pure a : Prog σ ε α) := fun _ _ h => ⟨rfl, h⟩

/-- A failure respects every relation. -/
theorem Respects.fail {e : ε} : Respects R (Stateful.fail e : Prog σ ε α) := fun _ _ h => ⟨rfl, h⟩

/-- A sequence respects what both parts respect. -/
theorem Respects.bind {f : α → Prog σ ε β} (hx : Respects R x) (hf : ∀ a, Respects R (f a)) :
    Respects R (x >>= f) := by
  intro s s' h
  obtain ⟨heq, hstate⟩ := hx s s' h
  rw [bind_def, bind_def]
  rcases hs : x s with ⟨r, t⟩
  rcases hs' : x s' with ⟨r', t'⟩
  rw [hs, hs'] at heq hstate
  obtain rfl : r = r' := heq
  cases r with
  | error e => exact ⟨rfl, hstate⟩
  | ok a => exact hf a t t' hstate

/-- A block that starts by looking at the state, where it looks at what related states share. -/
theorem Respects.get_bind {f : σ → Prog σ ε β} (hf : ∀ s s', R s s' → f s = f s')
    (hr : ∀ s, Respects R (f s)) : Respects R (Stateful.get >>= f) := by
  intro s s' h
  have hfs := hf s s' h
  show (f s s).1 = (f s' s').1 ∧ R (f s s).2 (f s' s').2
  rw [← hfs]
  exact hr s s s' h

/-- A modification respects what the modified states respect. -/
theorem Respects.modify {f : σ → σ} (h : ∀ s s', R s s' → R (f s) (f s')) :
    Respects R (Stateful.modify f : Prog σ ε Unit) := fun s s' hr => ⟨rfl, h s s' hr⟩

/-- A branching respects what both branches respect. -/
theorem Respects.ite {c : Prop} [Decidable c] {y : Prog σ ε α} (hx : c → Respects R x)
    (hy : ¬ c → Respects R y) : Respects R (if c then x else y) := by
  by_cases h : c
  · rw [if_pos h]
    exact hx h
  · rw [if_neg h]
    exact hy h

/-- A requirement respects every relation. -/
theorem Respects.require {c : Prop} [Decidable c] {e : ε} :
    Respects R (Stateful.require c e : Prog σ ε Unit) := .ite (fun _ => .pure) fun _ => .fail

/-- A conditional command respects what the command respects. -/
theorem Respects.when {c : Prop} [Decidable c] {y : Prog σ ε Unit} (hy : Respects R y) :
    Respects R (Stateful.when c y) := .ite (fun _ => hy) fun _ => .pure

/-- A computation over a part of the state. -/
theorem Respects.zoom {τ : Type} {S : τ → τ → Prop} {part : σ → τ} {put : τ → σ → σ}
    {y : Prog τ ε α} (hy : Respects S y) (hpart : ∀ s s', R s s' → S (part s) (part s'))
    (hput : ∀ s s' t t', R s s' → S t t' → R (put t s) (put t' s')) :
    Respects R (Stateful.zoom part put y) := by
  intro s s' h
  obtain ⟨heq, hstate⟩ := hy _ _ (hpart s s' h)
  unfold Stateful.zoom
  rcases hs : y (part s) with ⟨r, t⟩
  rcases hs' : y (part s') with ⟨r', t'⟩
  rw [hs, hs'] at heq hstate
  exact ⟨heq, hput s s' t t' h hstate⟩

/-- Every computation respects equality. -/
theorem Respects.eq : Respects Eq x := by
  rintro s _ rfl
  exact ⟨rfl, rfl⟩

end Respect

end Stateful
