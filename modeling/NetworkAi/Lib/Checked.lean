import Mathlib.Data.List.Forall2

set_option relaxedAutoImplicit false
set_option autoImplicit false

/-!
# Fallible computations, read backwards

A transaction is a `do` block in `Except ε`: it either ends with a value or stops at the first
error. The lemmas of this file turn "the block ended with `b`" into what each of its lines did,
so that a proof about a block never unfolds the monad.

## Main definitions

* `Checked.guard` — stop with an error unless a condition holds.
* `Checked.settle` — the state after a transaction: the new one, or the old one on an error.
* `Checked.Avoids` — a block never stops with certain errors.

## Main results

* `Checked.bind_ok`, `Checked.guard_ok`, `Checked.map_ok` — inversion of the lines of a block.
* `Checked.foldlM_invariant`, `Checked.mapM_ok` — inversion of the two loops.
* `Checked.avoids_bind`, `Checked.avoids_guard`, … — which errors a block avoids, line by line.
-/

namespace Checked

variable {ε α β σ : Type}

/-- Stop with the error `e` unless `c` holds. -/
def guard (c : Prop) [Decidable c] (e : ε) : Except ε Unit :=
  if c then .ok () else .error e

/-- The value of an optional lookup, or the error `e`. -/
def require (o : Option α) (e : ε) : Except ε α :=
  match o with
  | some a => .ok a
  | none => .error e

/-- The state after an atomic transaction: what it computed, or the state before it when it
stopped with an error. -/
def settle (x : Except ε σ) (s : σ) : σ :=
  match x with
  | .ok s' => s'
  | .error _ => s

/-- A block ends with `b` exactly when its first line ends and the rest ends with `b`. -/
@[simp] theorem bind_ok {x : Except ε α} {f : α → Except ε β} {b : β} :
    (x >>= f) = .ok b ↔ ∃ a, x = .ok a ∧ f a = .ok b := by
  cases x with
  | error e => simp [bind, Except.bind]
  | ok a => simp [bind, Except.bind]

/-- The rest of a block after a conditional line. -/
theorem ite_bind {c : Prop} [Decidable c] {x y : Except ε α} {f : α → Except ε β} :
    (if c then x >>= f else y >>= f) = (if c then x else y) >>= f := by
  split <;> rfl

/-- `pure` ends with its value. -/
@[simp] theorem pure_ok {a b : α} : (pure a : Except ε α) = .ok b ↔ a = b := by
  simp [pure, Except.pure]

/-- `throw` never ends. -/
@[simp] theorem throw_ok {e : ε} {b : α} : (throw e : Except ε α) = .ok b ↔ False := by
  simp [throw, throwThe, MonadExceptOf.throw]

/-- A mapped block ends with `b` exactly when the block ends with a value mapped to `b`. -/
@[simp] theorem map_ok {x : Except ε α} {f : α → β} {b : β} :
    (f <$> x) = .ok b ↔ ∃ a, x = .ok a ∧ f a = b := by
  cases x with
  | error e => simp [Functor.map, Except.map]
  | ok a => simp [Functor.map, Except.map]

/-- A guard ends exactly when its condition holds. -/
@[simp] theorem guard_ok {c : Prop} [Decidable c] {e : ε} {u : Unit} :
    guard c e = .ok u ↔ c := by
  by_cases h : c <;> simp [guard, h]

/-- A block that has a value ended with one. -/
theorem ok_of_toOption {x : Except ε α} (h : x.toOption.isSome = true) : ∃ a, x = .ok a := by
  cases x with
  | error e => cases h
  | ok a => exact ⟨a, rfl⟩

/-- A lookup ends with `a` exactly when it found `a`. -/
@[simp] theorem require_ok {o : Option α} {e : ε} {a : α} :
    require o e = .ok a ↔ o = some a := by
  cases o <;> simp [require]

/-- A transaction either ended, or left the state as it was. -/
theorem settle_cases (x : Except ε σ) (s : σ) :
    (∃ s', x = .ok s' ∧ settle x s = s') ∨ settle x s = s := by
  cases x with
  | error e => exact .inr rfl
  | ok s' => exact .inl ⟨s', rfl, rfl⟩

/-- A block that ends commits its state. -/
@[simp] theorem settle_ok (s s' : σ) : settle (.ok s' : Except ε σ) s = s' := rfl

/-- A block that stops rolls back to the state before it. -/
@[simp] theorem settle_error (e : ε) (s : σ) : settle (.error e : Except ε σ) s = s := rfl

/-- **Loop rule.** A property of the accumulator that holds at the start and that every
completed round keeps holds when the loop ends. -/
theorem foldlM_invariant {P : β → Prop} {f : β → α → Except ε β} :
    ∀ {l : List α} {b b' : β}, l.foldlM f b = .ok b' → P b →
      (∀ c a c', a ∈ l → P c → f c a = .ok c' → P c') → P b'
  | [], b, b', h, h0, _ => by
    simp only [List.foldlM_nil, pure_ok] at h
    exact h ▸ h0
  | a :: l, b, b', h, h0, hs => by
    simp only [List.foldlM_cons, bind_ok] at h
    obtain ⟨c, hc, hl⟩ := h
    exact foldlM_invariant hl (hs b a c (by simp) h0 hc)
      (fun d e d' he => hs d e d' (List.mem_cons_of_mem _ he))

/-- `mapM` ends with `bs` exactly when every element ends with its counterpart in `bs`. -/
theorem mapM_ok {f : α → Except ε β} :
    ∀ {l : List α} {bs : List β},
      l.mapM f = .ok bs ↔ List.Forall₂ (fun a b => f a = .ok b) l bs
  | [], bs => by cases bs <;> simp
  | a :: l, bs => by
    cases bs with
    | nil => simp [List.mapM_cons]
    | cons b bs => simp [List.mapM_cons, mapM_ok]

/-- Every result belongs to an argument. -/
theorem forall₂_right {R : α → β → Prop} {l : List α} {bs : List β} (h : List.Forall₂ R l bs)
    {b : β} (hb : b ∈ bs) : ∃ a ∈ l, R a b := by
  induction h with
  | nil => cases hb
  | cons hab _ ih =>
    rcases List.mem_cons.1 hb with rfl | hb
    · exact ⟨_, List.mem_cons_self, hab⟩
    · obtain ⟨a, ha, hR⟩ := ih hb
      exact ⟨a, List.mem_cons_of_mem _ ha, hR⟩

/-- What every result of a `mapM` shares with its argument, the lists share. -/
theorem mapM_map_eq {γ : Type} {f : α → Except ε β} {l : List α} {bs : List β}
    (h : l.mapM f = .ok bs) {g : β → γ} {k : α → γ} (hg : ∀ a b, f a = .ok b → g b = k a) :
    bs.map g = l.map k := by
  rw [mapM_ok] at h
  induction h with
  | nil => rfl
  | cons hab _ ih => rw [List.map_cons, List.map_cons, hg _ _ hab, ih]

/-! ### Errors that never come -/

/-- A block never stops with one of the errors `bad`. -/
def Avoids (bad : ε → Prop) (x : Except ε α) : Prop := ∀ e, x = .error e → ¬ bad e

section Avoids

variable {bad : ε → Prop}

/-- A block that ends stops with no error. -/
theorem Avoids.of_ok {x : Except ε α} {a : α} (h : x = .ok a) : Avoids bad x := by
  intro e he
  rw [h] at he
  cases he

/-- A block that has ended avoids every error. -/
@[simp] theorem avoids_ok (a : α) : Avoids bad (.ok a : Except ε α) := Avoids.of_ok rfl

/-- Returning a value avoids every error. -/
@[simp] theorem avoids_pure (a : α) : Avoids bad (pure a : Except ε α) := avoids_ok a

/-- Throwing an error avoids the bad ones exactly if it is none of them. -/
@[simp] theorem avoids_throw {e : ε} : Avoids bad (throw e : Except ε α) ↔ ¬ bad e := by
  constructor
  · intro h
    exact h e rfl
  · intro h e' he
    cases he
    exact h

/-- A block avoids what its first line avoids, and the rest after every end of it. -/
@[simp] theorem avoids_bind {x : Except ε α} {f : α → Except ε β} :
    Avoids bad (x >>= f) ↔ Avoids bad x ∧ ∀ a, x = .ok a → Avoids bad (f a) := by
  cases x with
  | error e =>
    constructor
    · intro h
      exact ⟨fun e' he => h e' (by cases he; rfl), fun a ha => nomatch ha⟩
    · intro h e' he
      exact h.1 e' (by cases he; rfl)
  | ok a =>
    constructor
    · intro h
      refine ⟨.of_ok rfl, fun b hb => ?_⟩
      cases hb
      exact h
    · intro h
      exact h.2 a rfl

/-- Mapping the result does not change the errors. -/
@[simp] theorem avoids_map {x : Except ε α} {f : α → β} :
    Avoids bad (f <$> x) ↔ Avoids bad x := by
  cases x with
  | error e =>
    constructor
    · intro h e' he
      exact h e' (by cases he; rfl)
    · intro h e' he
      exact h e' (by cases he; rfl)
  | ok a =>
    constructor
    · intro _
      exact .of_ok rfl
    · intro _
      exact .of_ok (a := f a) rfl

/-- A branching avoids what both branches avoid, each under its condition. -/
@[simp] theorem avoids_ite {c : Prop} [Decidable c] {x y : Except ε α} :
    Avoids bad (if c then x else y) ↔ (c → Avoids bad x) ∧ (¬ c → Avoids bad y) := by
  by_cases h : c
  · simp [h]
  · simp [h]

/-- A guard avoids its error exactly if its condition holds. -/
@[simp] theorem avoids_guard {c : Prop} [Decidable c] {e : ε} :
    Avoids bad (guard c e) ↔ bad e → c := by
  by_cases h : c
  · simp [guard, h, Avoids]
  · simp [guard, h, Avoids]

/-- A requirement avoids its error exactly if there is a value. -/
@[simp] theorem avoids_require {o : Option α} {e : ε} :
    Avoids bad (require o e) ↔ bad e → o.isSome := by
  cases o <;> simp [require, Avoids]

/-- The error rule of a loop, with an invariant that every completed round keeps. -/
theorem avoids_foldlM {P : β → Prop} {f : β → α → Except ε β} :
    ∀ {l : List α} {b : β}, P b → (∀ c a, a ∈ l → P c → Avoids bad (f c a)) →
      (∀ c a c', a ∈ l → P c → f c a = .ok c' → P c') → Avoids bad (l.foldlM f b)
  | [], b, _, _, _ => avoids_pure b
  | a :: l, b, h0, hf, hs => by
    rw [List.foldlM_cons, avoids_bind]
    refine ⟨hf b a (by simp) h0, fun c hc => ?_⟩
    exact avoids_foldlM (hs b a c (by simp) h0 hc)
      (fun d e he => hf d e (List.mem_cons_of_mem _ he))
      (fun d e d' he => hs d e d' (List.mem_cons_of_mem _ he))

/-- A pass over a list avoids what its steps avoid. -/
theorem avoids_mapM {f : α → Except ε β} {l : List α} (h : ∀ a ∈ l, Avoids bad (f a)) :
    Avoids bad (l.mapM f) := by
  induction l with
  | nil => exact avoids_pure _
  | cons a l ih =>
    rw [List.mapM_cons, avoids_bind]
    refine ⟨h a (by simp), fun b _ => ?_⟩
    rw [avoids_bind]
    exact ⟨ih fun c hc => h c (List.mem_cons_of_mem _ hc), fun bs _ => avoids_pure _⟩

/-- A loop over a list avoids what its steps avoid. -/
theorem avoids_forM {f : α → Except ε PUnit} {l : List α} (h : ∀ a ∈ l, Avoids bad (f a)) :
    Avoids bad (l.forM f) := by
  induction l with
  | nil => exact avoids_pure _
  | cons a l ih =>
    show Avoids bad (f a >>= fun _ => l.forM f)
    rw [avoids_bind]
    exact ⟨h a (by simp), fun _ _ => ih fun c hc => h c (List.mem_cons_of_mem _ hc)⟩

end Avoids

end Checked
