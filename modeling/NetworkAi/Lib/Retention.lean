import Mathlib.Algebra.Order.Group.Defs
import NetworkAi.Lib.Table

set_option relaxedAutoImplicit false
set_option autoImplicit false

/-!
# Replay protection by retained keys

A receiver accepts a message only at admissible times and only under a key that it does not hold,
and then holds the key.  Old keys are deleted.  When the admissible times of a message span no
more than the retention of its key, no message is accepted twice.

## Main definitions

* `Retention.Narrow` — the admissible times of a message span at most the retention.
* `Retention.Guarded` — every message accepted within the retention still has its key.

## Main results

* `Retention.Guarded.later`, `Guarded.expire`, `Guarded.accept` — what the steps preserve.
* `Retention.Guarded.fresh` — a message that is accepted has not been accepted before.
-/

namespace Retention

open Relational

variable {M K τ : Type} [DecidableEq K] [AddCommGroup τ] [LinearOrder τ]
variable {admissible : M → τ → Prop} {key : M → K} {retention : τ}
variable {seen : Table K τ} {accepted : List (M × τ)} {now : τ}

/-- Two admissible times of one message are at most the retention apart. -/
def Narrow (admissible : M → τ → Prop) (retention : τ) : Prop :=
  ∀ m t u, admissible m t → admissible m u → u ≤ t + retention

/-- The keys that a receiver holds cover what it accepted: every message was accepted at an
admissible time in the past, and while that is no longer ago than the retention, its key is held
since then or later. -/
def Guarded (admissible : M → τ → Prop) (key : M → K) (retention : τ) (now : τ)
    (seen : Table K τ) (accepted : List (M × τ)) : Prop :=
  ∀ a ∈ accepted, admissible a.1 a.2 ∧ a.2 ≤ now ∧
    (now ≤ a.2 + retention → ∃ t, seen.find? (key a.1) = some t ∧ a.2 ≤ t)

/-- Nothing is guarded before the first input. -/
theorem Guarded.nil : Guarded admissible key retention now seen [] :=
  fun _ h => absurd h List.not_mem_nil

/-- Time passes. -/
theorem Guarded.later (h : Guarded admissible key retention now seen accepted) {later : τ}
    (hle : now ≤ later) : Guarded admissible key retention later seen accepted := by
  intro a ha
  obtain ⟨hadm, hpast, hheld⟩ := h a ha
  exact ⟨hadm, hpast.trans hle, fun hrecent => hheld (hle.trans hrecent)⟩

/-- Keys older than the retention are deleted. -/
theorem Guarded.expire [IsOrderedAddMonoid τ]
    (h : Guarded admissible key retention now seen accepted) :
    Guarded admissible key retention now
      (seen.deleteWhere fun _ t => decide (t + retention < now)) accepted := by
  intro a ha
  obtain ⟨hadm, hpast, hheld⟩ := h a ha
  refine ⟨hadm, hpast, fun hrecent => ?_⟩
  obtain ⟨t, hfound, hle⟩ := hheld hrecent
  have hkept : now ≤ t + retention := hrecent.trans (add_le_add_left hle retention)
  refine ⟨t, ?_, hle⟩
  rw [Table.find?_deleteWhere, hfound]
  simpa [Option.filter] using hkept

/-- **A message that is accepted is new**: its key is not held, at an admissible time. -/
theorem Guarded.fresh (h : Guarded admissible key retention now seen accepted)
    (hnarrow : Narrow admissible retention) {m : M} (hnow : admissible m now)
    (hkey : seen.find? (key m) = none) : m ∉ accepted.map Prod.fst := by
  intro hm
  obtain ⟨a, ha, rfl⟩ := List.mem_map.1 hm
  obtain ⟨hadm, -, hheld⟩ := h a ha
  obtain ⟨t, hfound, -⟩ := hheld (hnarrow a.1 a.2 now hadm hnow)
  rw [hkey] at hfound
  cases hfound

/-- A message is accepted and its key held. -/
theorem Guarded.accept (h : Guarded admissible key retention now seen accepted) {m : M}
    (hnow : admissible m now) (hkey : seen.find? (key m) = none) :
    Guarded admissible key retention now (seen.insert (key m) now hkey)
      (accepted ++ [(m, now)]) := by
  intro a ha
  rcases List.mem_append.1 ha with ha | ha
  · obtain ⟨hadm, hpast, hheld⟩ := h a ha
    refine ⟨hadm, hpast, fun hrecent => ?_⟩
    obtain ⟨t, hfound, hle⟩ := hheld hrecent
    exact ⟨t, Table.find?_insert_of_some hfound, hle⟩
  · obtain rfl := List.mem_singleton.1 ha
    exact ⟨hnow, le_rfl, fun _ => ⟨now, Table.find?_insert_self, le_rfl⟩⟩

omit [AddCommGroup τ] [LinearOrder τ] in
/-- Without repetitions so far, an accepted message that is new is no repetition. -/
theorem nodup_accept {m : M} (h : (accepted.map Prod.fst).Nodup)
    (hm : m ∉ accepted.map Prod.fst) : ((accepted ++ [(m, now)]).map Prod.fst).Nodup := by
  rw [List.map_append]
  refine List.Nodup.append h (List.nodup_singleton _) ?_
  simpa [List.disjoint_singleton] using hm

end Retention
