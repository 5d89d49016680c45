import NetworkAi.Lib.Table

set_option relaxedAutoImplicit false
set_option autoImplicit false

/-!
# Tables as dictionaries

An assignment `d[k] = v` of a dictionary writes the row under a key, whether or not there is one.
What it does to an aggregate is told by the share that the key had before.

## Main definitions

* `Relational.Table.put` — the assignment.
* `Relational.Table.share` — what a key has in an aggregate.

## Main results

* `Relational.Table.find?_put` — what is found after it.
* `Relational.Table.sum_put`, `Relational.Table.sum_without` — what it and a removal do to an
  aggregate.
* `Relational.Table.sum_change` — what becomes of an aggregate whose function changes at one key.
-/

namespace Relational

namespace Table

variable {K V : Type} [DecidableEq K]

/-- `d[k] = v`. -/
def put (t : Table K V) (k : K) (v : V) : Table K V :=
  if h : t.find? k = none then t.insert k v h else t.set k v

/-- Reading after a write, under the key that was written or another one. -/
theorem find?_put {t : Table K V} {k k' : K} {v : V} :
    (t.put k v).find? k' = if k = k' then some v else t.find? k' := by
  unfold put
  split
  · rw [find?_insert]
  · next h =>
    obtain ⟨w, hw⟩ := Option.ne_none_iff_exists'.1 h
    by_cases hk : k = k'
    · rw [if_pos hk, ← hk, find?_set_self hw]
    · rw [if_neg hk, find?_set_ne (Ne.symm hk)]

/-- What was written under a key is found there. -/
@[simp] theorem find?_put_self {t : Table K V} {k : K} {v : V} :
    (t.put k v).find? k = some v := by
  rw [find?_put, if_pos rfl]

/-- A write leaves the other keys alone. -/
theorem find?_put_ne {t : Table K V} {k k' : K} {v : V} (h : k' ≠ k) :
    (t.put k v).find? k' = t.find? k' := by
  rw [find?_put, if_neg h.symm]

/-- A row after an assignment is the assigned one or an old one. -/
theorem mem_put {t : Table K V} {k : K} {v : V} {r : K × V} (h : r ∈ (t.put k v).rows) :
    r = (k, v) ∨ r ∈ t.rows := by
  obtain ⟨k', w⟩ := r
  have hfound := find?_eq_some.2 h
  rw [find?_put] at hfound
  split at hfound
  · next hk =>
    obtain rfl := Option.some.inj hfound
    exact .inl (by rw [hk])
  · exact .inr (find?_eq_some.1 hfound)

/-- A deleted key is not found. -/
@[simp] theorem find?_without_self {t : Table K V} {k : K} : (t.without k).find? k = none := by
  rw [without, find?_deleteWhere]
  cases t.find? k with
  | none => rfl
  | some v => simp [Option.filter]

/-- Reading after a deletion. -/
theorem find?_without {t : Table K V} {k k' : K} :
    (t.without k).find? k' = if k' = k then none else t.find? k' := by
  by_cases h : k' = k
  · rw [if_pos h, h, find?_without_self]
  · rw [if_neg h, find?_without_ne h]

/-- The rows after a deletion were there before. -/
theorem mem_without {t : Table K V} {k : K} {r : K × V} (h : r ∈ (t.without k).rows) :
    r ∈ t.rows :=
  List.mem_of_mem_filter h

/-- What the key `k` has in the aggregate of `g`. -/
def share (t : Table K V) (g : K → V → Int) (k : K) : Int := (t.find? k).elim 0 (g k)

/-- An assignment puts the new value's share in the place of the old one. -/
theorem sum_put (t : Table K V) (k : K) (v : V) (g : K → V → Int) :
    (t.put k v).sum g = t.sum g - t.share g k + g k v := by
  unfold put share
  split
  · next h =>
    rw [sum_insert, h]
    simp
  · next h =>
    obtain ⟨w, hw⟩ := Option.ne_none_iff_exists'.1 h
    rw [sum_set hw, hw]
    simp only [Option.elim_some]
    ring

/-- An aggregate without a row lacks what that row contributed. -/
theorem sum_without {t : Table K V} {k : K} {v : V} (h : t.find? k = some v) (g : K → V → Int) :
    (t.without k).sum g = t.sum g - g k v :=
  sum_delete h g

/-- An aggregate of functions that agree but at one key. -/
theorem sum_change {t : Table K V} {k : K} {v : V} (g g' : K → V → Int) (h : t.find? k = some v)
    (hother : ∀ k' v', k' ≠ k → g' k' v' = g k' v') : t.sum g' = t.sum g + (g' k v - g k v) := by
  have hrest : (t.without k).sum g' = (t.without k).sum g := by
    refine sum_congr fun k' v' hr => hother k' v' ?_
    rintro rfl
    have hfound := find?_eq_some.2 hr
    rw [find?_without_self] at hfound
    cases hfound
  rw [sum_without h, sum_without h] at hrest
  omega

end Table

end Relational
