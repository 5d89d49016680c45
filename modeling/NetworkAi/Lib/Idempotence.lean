import NetworkAi.Lib.Machine

set_option relaxedAutoImplicit false
set_option autoImplicit false

/-!
# Requests that take effect once

A system answers requests under keys. A request that takes effect leaves a record under its key,
records stay, and a request whose key has a record has no effect. Then of any two requests under
one key, in any run, at most one takes effect.

## Main definitions

* `Idempotence.Keyed` — a system with keys and records, and its three laws.

## Main results

* `Idempotence.Keyed.recorded_run` — a record stays along every run.
* `Idempotence.Keyed.once` — after a request that took effect, no other one under its key does.
-/

namespace Idempotence

open Machine

variable {σ ι κ ρ : Type}

/-- **A system that answers requests under keys**: the keys that an input has in a state, the record
under a key, and the steps that have no effect. -/
structure Keyed (M : System σ ι) (κ ρ : Type) where
  Uses : σ → ι → κ → Prop
  record : σ → κ → Option ρ
  Quiet : σ → σ → Prop
  /-- A record stays. -/
  persists : ∀ {s k r} (i : ι), Reachable M s → record s k = some r →
    record (M.step i s) k = some r
  /-- A request whose key has a record has no effect. -/
  replays : ∀ {s i k r}, Reachable M s → Uses s i k → record s k = some r →
    Quiet s (M.step i s)
  /-- A request that takes effect leaves a record under its key. -/
  records : ∀ {s i k}, Reachable M s → Uses s i k → ¬ Quiet s (M.step i s) →
    ∃ r, record (M.step i s) k = some r

namespace Keyed

variable {M : System σ ι} (K : Keyed M κ ρ) {s : σ} {k : κ} {r : ρ}

/-- A record stays along every run. -/
theorem recorded_run (hs : Reachable M s) (hr : K.record s k = some r) (is : List ι) :
    K.record (M.run s is) k = some r :=
  System.run_invariant (P := fun s => K.record s k = some r)
    (fun _ i hs hr => K.persists i hs hr) hs hr is

/-- **Effects happen once**: after a request that took effect, and any other steps, no request
under its key takes effect. -/
theorem once {i j : ι} (hs : Reachable M s) (hi : K.Uses s i k)
    (heffect : ¬ K.Quiet s (M.step i s)) (is : List ι)
    (hj : K.Uses (M.run (M.step i s) is) j k) :
    K.Quiet (M.run (M.step i s) is) (M.step j (M.run (M.step i s) is)) := by
  obtain ⟨r, hr⟩ := K.records hs hi heffect
  have hs' : Reachable M (M.step i s) := .step i hs
  exact K.replays (reachable_run hs' is) hj (K.recorded_run hs' hr is)

end Keyed

end Idempotence
