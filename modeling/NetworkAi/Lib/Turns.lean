import Mathlib.Data.List.Nodup
import Mathlib.Logic.Function.Basic
import Mathlib.Order.WithBot

set_option relaxedAutoImplicit false
set_option autoImplicit false

/-!
# Service by turns

A server keeps for every client the time of its last service, and serves among those that wait
one whose last service lies furthest back. While a client waits, nobody else is served twice.

## Main definitions

* `Turns.serve` — the turns after a service.
* `Turns.Rotates` — no service goes to a client whose turn is after that of a given one.

## Main results

* `Turns.foldl_serve_cases` — a turn is an old one or the time of a service.
* `Turns.Rotates.nodup` — while a client waits, every other one is served at most once.
-/

namespace Turns

variable {U T : Type} [DecidableEq U]

/-- The turns after a service, given as its time and its client. -/
def serve (turn : U → WithBot T) (e : T × U) : U → WithBot T :=
  Function.update turn e.2 e.1

/-- Whoever is served was served at that time. -/
@[simp] theorem serve_self (turn : U → WithBot T) (e : T × U) : serve turn e e.2 = e.1 := by
  simp [serve]

/-- Serving one user leaves the turns of the others alone. -/
theorem serve_of_ne (turn : U → WithBot T) {e : T × U} {u : U} (h : e.2 ≠ u) :
    serve turn e u = turn u := by
  simp [serve, Function.update_of_ne h.symm]

/-- The turn of a client after some services is its old one, or the time of one of them. -/
theorem foldl_serve_cases (turn : U → WithBot T) (es : List (T × U)) (u : U) :
    es.foldl serve turn u = turn u ∨ ∃ e ∈ es, es.foldl serve turn u = e.1 := by
  induction es generalizing turn with
  | nil => exact .inl rfl
  | cons e es ih =>
    rcases ih (serve turn e) with hold | ⟨e', he', hnew⟩
    · by_cases hu : e.2 = u
      · subst hu
        exact .inr ⟨e, List.mem_cons_self, hold.trans (serve_self turn e)⟩
      · exact .inl (hold.trans (serve_of_ne turn hu))
    · exact .inr ⟨e', List.mem_cons_of_mem e he', hnew⟩

variable [LinearOrder T]

/-- Every service goes to a client whose turn is not after that of `b`. -/
def Rotates (b : U) : (U → WithBot T) → List (T × U) → Prop
  | _, [] => True
  | turn, e :: es => turn e.2 ≤ turn b ∧ Rotates b (serve turn e) es

/-- While `b` waits, a client whose turn is after that of `b` is not served. -/
theorem Rotates.not_mem {b u : U} {turn : U → WithBot T} {es : List (T × U)}
    (h : Rotates b turn es) (hb : ∀ e ∈ es, e.2 ≠ b) (hu : turn b < turn u) :
    u ∉ es.map Prod.snd := by
  induction es generalizing turn with
  | nil => exact List.not_mem_nil
  | cons e es ih =>
    obtain ⟨hturn, hrest⟩ := h
    have hne : e.2 ≠ u := by
      rintro rfl
      exact absurd hturn (not_le.2 hu)
    have htail : u ∉ es.map Prod.snd := by
      refine ih hrest (fun e' he' => hb e' (List.mem_cons_of_mem e he')) ?_
      rw [serve_of_ne turn (hb e List.mem_cons_self), serve_of_ne turn hne]
      exact hu
    rw [List.map_cons, List.mem_cons, not_or]
    exact ⟨hne.symm, htail⟩

/-- **Bounded bypass**: while `b` waits and the clock has passed its turn, every other client is
served at most once. -/
theorem Rotates.nodup {b : U} {turn : U → WithBot T} {es : List (T × U)}
    (h : Rotates b turn es) (hb : ∀ e ∈ es, e.2 ≠ b) (hlate : ∀ e ∈ es, turn b < e.1) :
    (es.map Prod.snd).Nodup := by
  induction es generalizing turn with
  | nil => exact List.nodup_nil
  | cons e es ih =>
    obtain ⟨-, hrest⟩ := h
    have hb' : ∀ e' ∈ es, e'.2 ≠ b := fun e' he' => hb e' (List.mem_cons_of_mem e he')
    have hsame : serve turn e b = turn b := serve_of_ne turn (hb e List.mem_cons_self)
    -- the client just served has a turn after that of `b`
    have hserved : serve turn e b < serve turn e e.2 := by
      rw [hsame, serve_self]
      exact hlate e List.mem_cons_self
    refine List.nodup_cons.2 ⟨hrest.not_mem hb' hserved, ih hrest hb' fun e' he' => ?_⟩
    rw [hsame]
    exact hlate e' (List.mem_cons_of_mem e he')

end Turns
