import NetworkAi.Lib.Table
import Mathlib.Order.Defs.LinearOrder

set_option relaxedAutoImplicit false
set_option autoImplicit false

/-!
# Tables of dated facts

A fact is recorded at one instant and may be ended at a later one; what it says never changes. The
view of such a table at an instant contains the facts recorded by then and not ended by then. It is
recomputed from rows that change, and yet no write dated after the instant changes it.

## Main definitions

* `Relational.History` — how a row says when its fact was recorded and ended, and what it is.
* `Relational.History.asOf` — the view of a table at an instant.
* `Relational.History.After` — a write whose records and ends are all after an instant.

## Main results

* `Relational.History.After.asOf` — a later write does not change the view.
-/

namespace Relational

variable {K V C T : Type}

/-- How a row records a fact: when it was recorded, when it was ended, and what it says. -/
structure History (V C T : Type) where
  /-- The instant at which the fact was recorded. -/
  start : V → T
  /-- The instant at which the fact was ended, if it was. -/
  stop : V → Option T
  /-- What the fact says. -/
  content : V → C

namespace History

variable [LinearOrder T] (h : History V C T)

/-- A fact is known at an instant: it was recorded by then and not ended by then. -/
def known (time : T) (v : V) : Bool := h.start v ≤ time ∧ ∀ s ∈ h.stop v, time < s

/-- A version is known at a time at which it has started and has not stopped. -/
theorem known_iff {time : T} {v : V} :
    h.known time v = true ↔ h.start v ≤ time ∧ ∀ s ∈ h.stop v, time < s :=
  decide_eq_true_iff

/-- A row that is written after an instant: it is the same, or its fact is ended later. -/
def Later (time : T) (v v' : V) : Prop :=
  v' = v ∨ h.start v' = h.start v ∧ h.content v' = h.content v ∧ h.stop v = none ∧
    ∃ s, h.stop v' = some s ∧ time < s

/-- A row written after an instant is known at that instant if it was, and says the same. -/
theorem Later.same {h : History V C T} {time : T} {v v' : V} (hl : h.Later time v v') :
    h.known time v' = h.known time v ∧ h.content v' = h.content v := by
  rcases hl with rfl | ⟨hstart, hcontent, hnone, s, hstop, hlate⟩
  · exact ⟨rfl, rfl⟩
  · refine ⟨?_, hcontent⟩
    unfold known
    rw [hstart, hstop, hnone]
    simp [hlate]

variable [DecidableEq K]

/-- The view of a table at an instant: what each fact known then says. -/
def asOf (t : Table K V) (time : T) (k : K) : Option C :=
  ((t.find? k).filter (h.known time)).map h.content

/-- What was known of a key at a time is the content of a version of it that was known then. -/
theorem asOf_eq_some {t : Table K V} {time : T} {k : K} {c : C} :
    h.asOf t time k = some c ↔
      ∃ v, t.find? k = some v ∧ h.known time v = true ∧ h.content v = c := by
  simp only [asOf, Option.map_eq_some_iff, Option.filter_eq_some_iff, and_assoc]

/-- A write after an instant: rows are at most ended, and new facts recorded, later than that. -/
def After (time : T) (t t' : Table K V) : Prop :=
  t.Grows (h.Later time) (fun _ v => time < h.start v) t'

/-- **A write dated after an instant** does not change the view at that instant. -/
theorem After.asOf {h : History V C T} {time : T} {t t' : Table K V} (ha : h.After time t t') :
    h.asOf t' time = h.asOf t time := by
  funext k
  unfold History.asOf
  cases hk : t.find? k with
  | some v =>
    obtain ⟨v', hv', hlater⟩ := ha.old hk
    obtain ⟨hknown, hcontent⟩ := hlater.same
    rw [hv', Option.filter_some, Option.filter_some, hknown]
    split
    · exact congrArg some hcontent
    · rfl
  | none =>
    cases hk' : t'.find? k with
    | none => rfl
    | some v' =>
      rcases ha.cases hk' with ⟨v, hv, -⟩ | ⟨-, hnew⟩
      · rw [hk] at hv
        cases hv
      · have hunknown : h.known time v' = false := by
          simp only [known, Bool.decide_and, Bool.and_eq_false_iff, decide_eq_false_iff_not]
          exact .inl (not_le.2 hnew)
        rw [Option.filter_some, hunknown]
        rfl

end History

end Relational
