import NetworkAi.Lib.Machine

set_option relaxedAutoImplicit false
set_option autoImplicit false

/-!
# Comparing two runs

An observer sees some steps of a run and is blind to the others; after each step that it sees, a
part of the state concerns it. If a relation between states survives the blind steps of either run
and pairs of steps that look alike, then runs that look alike agree on what concerns the observer.

## Main definitions

* `Machine.System.seen` — what is seen of the steps of a run.
* `Machine.System.shown` — what concerns the observer, after each step that is seen.
* `Machine.Unwinding` — the conditions on the relation.

## Main results

* `Machine.Unwinding.shown_eq` — runs that look alike agree on what concerns the observer.
-/

namespace Machine

variable {σ ι ω α : Type}

/-- What is seen of the steps of a run. -/
def System.seen (M : System σ ι) (see : ι → σ → Option ω) : σ → List ι → List ω
  | _, [] => []
  | s, i :: is => (see i s).toList ++ M.seen see (M.step i s) is

/-- What concerns the observer, after each step that is seen. -/
def System.shown (M : System σ ι) (see : ι → σ → Option ω) (concern : σ → α) :
    σ → List ι → List α
  | _, [] => []
  | s, i :: is => ((see i s).toList.map fun _ => concern (M.step i s)) ++
      M.shown see concern (M.step i s) is

/-- **An unwinding relation**: blind steps of either side preserve it, steps that look alike
preserve it, and related states agree on what concerns the observer. -/
structure Unwinding (M : System σ ι) (see : ι → σ → Option ω) (concern : σ → α)
    (R : σ → σ → Prop) : Prop where
  left : ∀ i s t, see i s = none → R s t → R (M.step i s) t
  right : ∀ i s t, see i t = none → R s t → R s (M.step i t)
  both : ∀ i j s t o, see i s = some o → see j t = some o → R s t → R (M.step i s) (M.step j t)
  agree : ∀ s t, R s t → concern s = concern t

/-- Nothing is seen of a blind step, and nothing is shown after it. -/
theorem System.seen_blind (M : System σ ι) {see : ι → σ → Option ω} {i : ι} {s : σ}
    (hi : see i s = none) (is : List ι) : M.seen see s (i :: is) = M.seen see (M.step i s) is := by
  rw [System.seen, hi]
  rfl

/-- An input that is not seen does not show. -/
theorem System.shown_blind (M : System σ ι) {see : ι → σ → Option ω} {concern : σ → α} {i : ι}
    {s : σ} (hi : see i s = none) (is : List ι) :
    M.shown see concern s (i :: is) = M.shown see concern (M.step i s) is := by
  rw [System.shown, hi]
  rfl

/-- After a run of which nothing is seen, nothing is shown. -/
theorem System.shown_eq_nil (M : System σ ι) {see : ι → σ → Option ω} {concern : σ → α} {s : σ}
    {is : List ι} (h : M.seen see s is = []) : M.shown see concern s is = [] := by
  induction is generalizing s with
  | nil => rfl
  | cons i is ih =>
    rw [System.seen, List.append_eq_nil_iff] at h
    rw [System.shown, ih h.2, h.1]
    rfl

/-- **Runs that look alike agree on what concerns the observer**, after each step that is seen.

**Proof sketch.** Induction on the first run. A blind step of it keeps the relation. For one that is
seen, induction on the second run: it goes on blindly to the step that shows the same, after which
both are related and show what concerns the observer. -/
theorem Unwinding.shown_eq {M : System σ ι} {see : ι → σ → Option ω} {concern : σ → α}
    {R : σ → σ → Prop} (h : Unwinding M see concern R) {s t : σ} {is js : List ι} (hR : R s t)
    (hseen : M.seen see s is = M.seen see t js) :
    M.shown see concern s is = M.shown see concern t js := by
  induction is generalizing s t js with
  | nil =>
    rw [System.seen] at hseen
    rw [M.shown_eq_nil hseen.symm]
    rfl
  | cons i is ih =>
    cases hi : see i s with
    | none =>
      rw [M.seen_blind hi] at hseen
      rw [M.shown_blind hi]
      exact ih (h.left i s t hi hR) hseen
    | some o =>
      -- the second run goes on blindly until it shows the same step
      induction js generalizing t with
      | nil =>
        rw [System.seen, System.seen, hi] at hseen
        cases hseen
      | cons j js ihj =>
        cases hj : see j t with
        | none =>
          rw [M.seen_blind hj] at hseen
          rw [M.shown_blind hj]
          exact ihj (h.right j s t hj hR) hseen
        | some o' =>
          rw [System.seen, System.seen, hi, hj] at hseen
          simp only [Option.toList_some, List.singleton_append, List.cons.injEq] at hseen
          obtain ⟨rfl, hseen⟩ := hseen
          have hnext := h.both i j s t o hi hj hR
          rw [System.shown, System.shown, hi, hj, ih hnext hseen]
          simp only [Option.toList_some, List.map_cons, List.map_nil, List.cons_append,
            List.nil_append, List.cons.injEq, and_true]
          exact h.agree _ _ hnext

end Machine
