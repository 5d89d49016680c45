import NetworkAi.Lib.Table

set_option relaxedAutoImplicit false
set_option autoImplicit false

/-!
# Exclusive holdings

Owners hold sets of resources, and a table with one row per resource records who holds it. The
table records the holdings when its rows are exactly the pairs of a resource and its owner; then
no resource is held twice, whatever the owners are.

## Main definitions

* `Relational.Table.Records` — the table is exactly the set of holdings.

## Main results

* `Relational.Table.Records.exclusive` — recorded holdings are disjoint.
* `Relational.Table.Records.acquire`, `Relational.Table.Records.release` — an owner without
  holdings takes free resources, an owner gives up all it holds.
-/

namespace Relational.Table

variable {R O : Type} [DecidableEq R] {claims claims' : Table R O} {held held' : O → List R}

/-- The table is exactly the set of pairs of a resource and the owner that holds it. -/
def Records (claims : Table R O) (held : O → List R) : Prop :=
  ∀ r o, claims.find? r = some o ↔ r ∈ held o

/-- **Recorded holdings are disjoint**: a resource has at most one owner. -/
theorem Records.exclusive (h : claims.Records held) {r : R} {o o' : O} (ho : r ∈ held o)
    (ho' : r ∈ held o') : o = o' := by
  have hfound := (h r o).2 ho
  rw [(h r o').2 ho', Option.some.injEq] at hfound
  exact hfound.symm

/-- Without holdings the table is empty. -/
theorem Records.empty : (Table.empty : Table R O).Records fun _ => [] := by
  intro r o
  simp

/-- The holdings may be replaced by equal ones. -/
theorem Records.congr (h : claims.Records held) (heq : ∀ o, held' o = held o) :
    claims.Records held' := by
  intro r o
  rw [heq o]
  exact h r o

/-- **Taking resources**: an owner that held nothing holds what it claimed. -/
theorem Records.acquire (h : claims.Records held) {o : O} {rs : List R} (hnone : held o = [])
    (hclaims : ∀ r o', claims'.find? r = some o' ↔ claims.find? r = some o' ∨ (o' = o ∧ r ∈ rs))
    (hself : held' o = rs) (hother : ∀ o', o' ≠ o → held' o' = held o') :
    claims'.Records held' := by
  intro r o'
  rw [hclaims, h r o']
  by_cases he : o' = o
  · subst he
    rw [hself, hnone]
    simp
  · rw [hother o' he]
    simp [he]

/-- **Giving up resources**: the rows of an owner are deleted when it gives up all it holds. -/
theorem Records.release [DecidableEq O] (h : claims.Records held) {o : O} (hself : held' o = [])
    (hother : ∀ o', o' ≠ o → held' o' = held o') :
    (claims.deleteWhere fun _ o' => o' = o).Records held' := by
  intro r o'
  rw [find?_deleteWhere, Option.filter_eq_some_iff, h r o']
  by_cases he : o' = o
  · subst he
    simp [hself]
  · simp [he, hother o' he]

end Relational.Table
