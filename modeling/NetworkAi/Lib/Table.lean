import Mathlib.Algebra.BigOperators.Group.List.Basic
import Mathlib.Algebra.Order.BigOperators.Group.List
import Mathlib.Data.List.Nodup
import Mathlib.Data.List.Lookmap
import Mathlib.Data.List.Perm.Subperm
import Mathlib.Tactic.Ring
import Mathlib.Tactic.Linarith

set_option relaxedAutoImplicit false
set_option autoImplicit false

/-!
# Relational tables

A table with a primary key, as a list of rows whose keys are distinct: the distinctness is a
field of the structure, so a table with two rows of one key cannot be built. Rows are inserted
under a fresh key, updated in place and deleted; a table is read through its key or through an
aggregate over its rows.

## Main definitions

* `Relational.Table` — a table; `find?`, `insert`, `modify`, `deleteWhere` — its operations.
* `Relational.Table.insert?` — the insertion that a duplicate key rejects.
* `Relational.Table.Grows` — what a write that deletes nothing does to a table.
* `Relational.Table.sum` — the aggregate `SELECT sum(g) FROM t`.

## Main results

* `Relational.Table.find?_insert`, `find?_modify`, `find?_deleteWhere` — reading after a write.
* `Relational.Table.sum_insert`, `sum_modify` — how a write moves an aggregate: an insertion
  adds its row, an update replaces the old row's share by the new one's.

## Implementation notes

Rows keep their insertion order, so a query without an `ORDER BY` has one definite result. The
aggregates are sums over that list; no result here depends on the order.
-/

namespace Relational

/-- A table: rows under pairwise distinct keys. -/
structure Table (K V : Type) where
  /-- The rows with their keys, in insertion order. -/
  rows : List (K × V)
  /-- The primary key: no two rows share one. -/
  nodup : (rows.map Prod.fst).Nodup

namespace Table

variable {K V W : Type}

/-- Tables with the same rows are equal. -/
@[ext] theorem ext {s t : Table K V} (h : s.rows = t.rows) : s = t := by
  cases s; cases t; cases h; rfl

/-- The table without rows. -/
def empty : Table K V := ⟨[], List.nodup_nil⟩

instance : Inhabited (Table K V) := ⟨empty⟩

section Lookup

variable [DecidableEq K]

/-- The first row under a key in a list of rows. -/
def lookup (k : K) : List (K × V) → Option V
  | [] => none
  | (k', v) :: l => if k' = k then some v else lookup k l

/-- A key is found exactly when some row has it. -/
theorem lookup_eq_none {k : K} : ∀ {l : List (K × V)}, lookup k l = none ↔ k ∉ l.map Prod.fst
  | [] => by simp [lookup]
  | (k', v) :: l => by
    by_cases h : k' = k
    · simp [lookup, h]
    · have h' : k ≠ k' := fun e => h e.symm
      simp [lookup, h, h', lookup_eq_none (l := l)]

/-- What a lookup finds is a row. -/
theorem mem_of_lookup {k : K} {v : V} :
    ∀ {l : List (K × V)}, lookup k l = some v → (k, v) ∈ l
  | [], h => by simp [lookup] at h
  | (k', w) :: l, h => by
    by_cases e : k' = k
    · simp only [lookup, e, if_true, Option.some.injEq] at h
      simp [e, h]
    · simp only [lookup, e, if_false] at h
      exact List.mem_cons_of_mem _ (mem_of_lookup h)

/-- With distinct keys every row is found under its key. -/
theorem lookup_of_mem {k : K} {v : V} :
    ∀ {l : List (K × V)}, (l.map Prod.fst).Nodup → (k, v) ∈ l → lookup k l = some v
  | [], _, h => by simp at h
  | (k', w) :: l, hn, h => by
    simp only [List.map_cons, List.nodup_cons] at hn
    rcases List.mem_cons.1 h with h | h
    · cases h; simp [lookup]
    · have hk : k ∈ l.map Prod.fst := List.mem_map.2 ⟨(k, v), h, rfl⟩
      have hne : k' ≠ k := fun e => hn.1 (e ▸ hk)
      simp [lookup, hne, lookup_of_mem hn.2 h]

/-- Looking up in two lists of rows, one after the other. -/
theorem lookup_append (k : K) : ∀ l m : List (K × V),
    lookup k (l ++ m) = (lookup k l).or (lookup k m)
  | [], m => by simp [lookup]
  | (k', v) :: l, m => by
    by_cases h : k' = k <;> simp [lookup, h, lookup_append k l m]

/-- The row under a key. -/
def find? (t : Table K V) (k : K) : Option V := lookup k t.rows

/-- A row is found under its key and nowhere else. -/
theorem find?_eq_some {t : Table K V} {k : K} {v : V} : t.find? k = some v ↔ (k, v) ∈ t.rows :=
  ⟨mem_of_lookup, lookup_of_mem t.nodup⟩

/-- A key is not found exactly when no row has it. -/
theorem find?_eq_none {t : Table K V} {k : K} : t.find? k = none ↔ k ∉ t.rows.map Prod.fst :=
  lookup_eq_none

/-- Nothing is found in the empty table. -/
@[simp] theorem find?_empty (k : K) : (empty : Table K V).find? k = none := rfl

/-- Insert a row under a key that no row has. -/
def insert (t : Table K V) (k : K) (v : V) (h : t.find? k = none) : Table K V where
  rows := t.rows ++ [(k, v)]
  nodup := by
    rw [List.map_append]
    refine List.Nodup.append t.nodup (by simp) ?_
    rw [find?_eq_none] at h
    simpa [List.disjoint_singleton] using h

/-- Insert a row, unless its key is taken. -/
def insert? (t : Table K V) (k : K) (v : V) : Option (Table K V) :=
  if h : t.find? k = none then some (t.insert k v h) else none

/-- An insertion succeeds exactly under a fresh key. -/
theorem insert?_eq_some {t u : Table K V} {k : K} {v : V} :
    t.insert? k v = some u ↔ ∃ h : t.find? k = none, u = t.insert k v h := by
  unfold insert?
  split
  · rename_i h
    simp only [Option.some.injEq]
    exact ⟨fun e => ⟨h, e.symm⟩, fun ⟨_, e⟩ => e.symm⟩
  · rename_i h
    simp [h]

/-- Update the row under a key, if there is one. -/
def modify (t : Table K V) (k : K) (f : V → V) : Table K V where
  rows := t.rows.map fun r => (r.1, if r.1 = k then f r.2 else r.2)
  nodup := by simpa [Function.comp_def] using t.nodup

/-- Overwrite the row under a key, if there is one. -/
def set (t : Table K V) (k : K) (v : V) : Table K V := t.modify k fun _ => v

/-- Update every row. -/
def mapRows (t : Table K V) (f : K → V → V) : Table K V where
  rows := t.rows.map fun r => (r.1, f r.1 r.2)
  nodup := by simpa [Function.comp_def] using t.nodup

/-- Delete the rows that satisfy `p`. -/
def deleteWhere (t : Table K V) (p : K → V → Bool) : Table K V where
  rows := t.rows.filter fun r => !p r.1 r.2
  nodup := (List.filter_sublist.map Prod.fst).nodup t.nodup

/-! ### Reading after a write -/

/-- Reading after an insertion. -/
theorem find?_insert {t : Table K V} {k k' : K} {v : V} {h : t.find? k = none} :
    (t.insert k v h).find? k' = if k = k' then some v else t.find? k' := by
  show lookup k' (t.rows ++ [(k, v)]) = _
  rw [lookup_append]
  by_cases e : k = k'
  · subst e
    have hn : lookup k t.rows = none := h
    simp [hn, lookup]
  · simp [lookup, e, find?]

/-- What was inserted under a key is found there. -/
@[simp] theorem find?_insert_self {t : Table K V} {k : K} {v : V} {h : t.find? k = none} :
    (t.insert k v h).find? k = some v := by
  simp [find?_insert]

/-- An insertion leaves the other keys alone. -/
theorem find?_insert_ne {t : Table K V} {k k' : K} {v : V} {h : t.find? k = none}
    (hne : k ≠ k') : (t.insert k v h).find? k' = t.find? k' := by
  simp [find?_insert, hne]

/-- A row found before an insertion is found after it. -/
theorem find?_insert_of_some {t : Table K V} {k k' : K} {v w : V} {h : t.find? k = none}
    (hw : t.find? k' = some w) : (t.insert k v h).find? k' = some w := by
  have hne : k ≠ k' := fun e => by rw [e, hw] at h; simp at h
  rw [find?_insert_ne hne, hw]

/-- Looking up in a list with the row under a key updated. -/
theorem lookup_map (k k' : K) (f : V → V) : ∀ l : List (K × V),
    lookup k' (l.map fun r => (r.1, if r.1 = k then f r.2 else r.2)) =
      if k' = k then (lookup k' l).map f else lookup k' l
  | [] => by simp [lookup]
  | (k₀, v) :: l => by
    have ih := lookup_map k k' f l
    simp only [List.map_cons, lookup]
    by_cases h : k₀ = k'
    · subst h
      by_cases e : k₀ = k <;> simp [e]
    · simp only [h, if_false, ih]

/-- Reading after an update. -/
theorem find?_modify {t : Table K V} {k k' : K} {f : V → V} :
    (t.modify k f).find? k' = if k' = k then (t.find? k').map f else t.find? k' :=
  lookup_map k k' f t.rows

/-- An updated row is found under its key. -/
@[simp] theorem find?_modify_self {t : Table K V} {k : K} {f : V → V} :
    (t.modify k f).find? k = (t.find? k).map f := by
  simp [find?_modify]

/-- An update leaves the other keys alone. -/
theorem find?_modify_ne {t : Table K V} {k k' : K} {f : V → V} (h : k' ≠ k) :
    (t.modify k f).find? k' = t.find? k' := by
  simp [find?_modify, h]

/-- Reading after an overwrite. -/
theorem find?_set {t : Table K V} {k k' : K} {v : V} :
    (t.set k v).find? k' = if k' = k then (t.find? k').map (fun _ => v) else t.find? k' :=
  find?_modify

/-- Overwriting an existing row. -/
theorem find?_set_self {t : Table K V} {k : K} {v w : V} (h : t.find? k = some w) :
    (t.set k v).find? k = some v := by
  simp [find?_set, h]

/-- An overwrite leaves the other keys alone. -/
theorem find?_set_ne {t : Table K V} {k k' : K} {v : V} (h : k' ≠ k) :
    (t.set k v).find? k' = t.find? k' :=
  find?_modify_ne h

/-- Of two writes to a row the last one stays. -/
theorem set_set (t : Table K V) (k : K) (v w : V) : (t.set k v).set k w = t.set k w := by
  refine Table.ext ?_
  simp only [set, modify, List.map_map]
  refine List.map_congr_left fun r _ => ?_
  simp only [Function.comp_apply]
  split
  · rfl
  · rfl

/-- Every row after an overwrite is the new one or an old one under another key. -/
theorem find?_set_cases {t : Table K V} {k k' : K} {v w : V} (h : (t.set k v).find? k' = some w) :
    (k' = k ∧ w = v ∧ (t.find? k).isSome) ∨ (k' ≠ k ∧ t.find? k' = some w) := by
  rw [find?_set] at h
  by_cases e : k' = k
  · subst e
    rw [if_pos rfl, Option.map_eq_some_iff] at h
    obtain ⟨w', hw', rfl⟩ := h
    exact .inl ⟨rfl, rfl, by simp [hw']⟩
  · exact .inr ⟨e, by simpa [e] using h⟩

/-- Every row after an insertion is the new one or an old one under another key. -/
theorem find?_insert_cases {t : Table K V} {k k' : K} {v w : V} {h : t.find? k = none}
    (hw : (t.insert k v h).find? k' = some w) :
    (k' = k ∧ w = v) ∨ (k' ≠ k ∧ t.find? k' = some w) := by
  rw [find?_insert] at hw
  by_cases e : k = k'
  · subst e
    rw [if_pos rfl, Option.some.injEq] at hw
    exact .inl ⟨rfl, hw.symm⟩
  · exact .inr ⟨fun h => e h.symm, by simpa [e] using hw⟩

/-- Reading after an update of every row. -/
theorem find?_mapRows {t : Table K V} {k : K} {f : K → V → V} :
    (t.mapRows f).find? k = (t.find? k).map (f k) := by
  show lookup k (t.rows.map fun r => (r.1, f r.1 r.2)) = (lookup k t.rows).map (f k)
  induction t.rows with
  | nil => simp [lookup]
  | cons r l ih =>
    obtain ⟨k₀, v⟩ := r
    by_cases h : k₀ = k
    · subst h; simp [lookup]
    · simp [lookup, h, ih]

/-- An update that changes no row. -/
theorem mapRows_eq_self {t : Table K V} {f : K → V → V}
    (h : ∀ k v, t.find? k = some v → f k v = v) : t.mapRows f = t := by
  have hrows : t.rows.map (fun r => (r.1, f r.1 r.2)) = t.rows.map id :=
    List.map_congr_left fun r hr => Prod.ext rfl (h r.1 r.2 (find?_eq_some.2 hr))
  ext1
  exact hrows.trans (List.map_id _)

/-- Updates that agree on the rows are one. -/
theorem mapRows_congr {t : Table K V} {f g : K → V → V}
    (h : ∀ k v, t.find? k = some v → f k v = g k v) : t.mapRows f = t.mapRows g := by
  ext1
  exact List.map_congr_left fun r hr => Prod.ext rfl (h r.1 r.2 (find?_eq_some.2 hr))

/-- Overwriting a row of an updated table updates that row in another way. -/
theorem mapRows_set {t : Table K V} {f g : K → V → V} {k : K} {v : V} (hk : t.find? k = some v)
    (h : ∀ k' w, t.find? k' = some w → k' ≠ k → g k' w = f k' w) :
    (t.mapRows f).set k (g k v) = t.mapRows g := by
  ext1
  show (t.rows.map fun r => (r.1, f r.1 r.2)).map (fun r => (r.1, if r.1 = k then g k v else r.2)) =
    t.rows.map fun r => (r.1, g r.1 r.2)
  rw [List.map_map]
  refine List.map_congr_left fun r hr => Prod.ext rfl ?_
  have hrow : t.find? r.1 = some r.2 := find?_eq_some.2 hr
  show (if r.1 = k then g k v else f r.1 r.2) = g r.1 r.2
  by_cases hkey : r.1 = k
  · rw [hkey, hk, Option.some.injEq] at hrow
    rw [if_pos hkey, hkey, hrow]
  · rw [if_neg hkey, h r.1 r.2 hrow hkey]

/-- Reading after a deletion of rows. -/
theorem find?_deleteWhere {t : Table K V} {p : K → V → Bool} {k : K} :
    (t.deleteWhere p).find? k = (t.find? k).filter fun v => !p k v := by
  apply Option.ext
  intro v
  rw [find?_eq_some]
  simp only [deleteWhere, List.mem_filter, Option.filter_eq_some_iff, find?_eq_some]

/-- The table without the row under a key. -/
def without (t : Table K V) (k : K) : Table K V := t.deleteWhere fun k' _ => k' = k

/-- A deletion leaves the other keys alone. -/
theorem find?_without_ne {t : Table K V} {k k' : K} (h : k' ≠ k) :
    (t.without k).find? k' = t.find? k' := by
  rw [without, find?_deleteWhere]
  cases t.find? k' with
  | none => rfl
  | some v => simp [Option.filter, h]

/-- A write to a row does not touch the others. -/
theorem without_modify (t : Table K V) (k : K) (f : V → V) :
    (t.modify k f).without k = t.without k := by
  refine Table.ext ?_
  simp only [without, deleteWhere, modify, List.filter_map]
  conv_rhs => rw [← List.map_id (t.rows.filter fun r => !decide (r.1 = k))]
  refine List.map_congr_left fun r hr => ?_
  have hne : r.1 ≠ k := by simpa using (List.mem_filter.1 hr).2
  simp [hne]

/-- Overwriting a row that is then left out makes no difference. -/
theorem without_set (t : Table K V) (k : K) (v : V) : (t.set k v).without k = t.without k :=
  without_modify t k _

/-- An insertion does not touch the rows that are there. -/
theorem without_insert {t : Table K V} {k : K} {v : V} {h : t.find? k = none} :
    (t.insert k v h).without k = t := by
  refine Table.ext ?_
  simp only [without, deleteWhere, insert, List.filter_append]
  have hnew : [(k, v)].filter (fun r => !decide (r.1 = k)) = [] := by simp
  rw [hnew, List.append_nil, List.filter_eq_self]
  intro r hr
  have hne : r.1 ≠ k := fun e => find?_eq_none.1 h (e ▸ List.mem_map_of_mem hr)
  simp [hne]

/-! ### Tables that grow -/

/-- A table after a write that deletes nothing: every old row is still there, related by `R` to
what it was, and every row under a new key satisfies `New`. -/
def Grows (R : V → V → Prop) (New : K → V → Prop) (t t' : Table K V) : Prop :=
  (∀ k v, t.find? k = some v → ∃ v', t'.find? k = some v' ∧ R v v') ∧
    ∀ k v', t'.find? k = some v' → t.find? k = none → New k v'

section Grows

variable {R : V → V → Prop} {New : K → V → Prop} {t t' : Table K V}

/-- An old row after the write. -/
theorem Grows.old (h : t.Grows R New t') {k : K} {v : V} (hv : t.find? k = some v) :
    ∃ v', t'.find? k = some v' ∧ R v v' :=
  h.1 k v hv

/-- A row that is there stays there. -/
theorem Grows.isSome (h : t.Grows R New t') {k : K} (hk : (t.find? k).isSome) :
    (t'.find? k).isSome := by
  obtain ⟨v, hv⟩ := Option.isSome_iff_exists.1 hk
  obtain ⟨v', hv', -⟩ := h.old hv
  rw [hv']
  rfl

/-- A row after the write is an old one or a new one. -/
theorem Grows.cases (h : t.Grows R New t') {k : K} {v' : V} (hv : t'.find? k = some v') :
    (∃ v, t.find? k = some v ∧ R v v') ∨ (t.find? k = none ∧ New k v') := by
  cases hk : t.find? k with
  | none => exact .inr ⟨rfl, h.2 k v' hv hk⟩
  | some v =>
    obtain ⟨w, hw, hr⟩ := h.old hk
    rw [hv, Option.some.injEq] at hw
    exact .inl ⟨v, rfl, hw ▸ hr⟩

/-- A table that is not written. -/
theorem Grows.refl (hr : ∀ v, R v v) (t : Table K V) : t.Grows R New t :=
  ⟨fun _ v hv => ⟨v, hv, hr v⟩, fun _ _ hv hn => by rw [hv] at hn; cases hn⟩

/-- An insertion. -/
theorem Grows.insert (hr : ∀ v, R v v) {k : K} {v : V} (h : t.find? k = none) (hv : New k v) :
    t.Grows R New (t.insert k v h) := by
  refine ⟨fun k' v' hv' => ⟨v', find?_insert_of_some hv', hr v'⟩, fun k' v' hv' hn => ?_⟩
  rcases find?_insert_cases hv' with ⟨rfl, rfl⟩ | ⟨-, hv'⟩
  · exact hv
  · rw [hv'] at hn
    cases hn

/-- An update of the row under a key. -/
theorem Grows.modify (hr : ∀ v, R v v) {k : K} {f : V → V}
    (hf : ∀ v, t.find? k = some v → R v (f v)) : t.Grows R New (t.modify k f) := by
  refine ⟨fun k' v' hv' => ?_, fun k' v' hv' hn => ?_⟩
  · rw [find?_modify, hv']
    by_cases e : k' = k
    · subst e
      exact ⟨f v', by simp, hf v' hv'⟩
    · exact ⟨v', by simp [e], hr v'⟩
  · rw [find?_modify, hn] at hv'
    simp at hv'

/-- An overwrite of a row. -/
theorem Grows.set (hr : ∀ v, R v v) {k : K} {v w : V} (hv : t.find? k = some v) (hw : R v w) :
    t.Grows R New (t.set k w) := by
  refine Grows.modify hr fun v' hv' => ?_
  rw [hv, Option.some.injEq] at hv'
  exact hv' ▸ hw

/-- An update of every row. -/
theorem Grows.mapRows {f : K → V → V} (hf : ∀ k v, t.find? k = some v → R v (f k v)) :
    t.Grows R New (t.mapRows f) := by
  refine ⟨fun k v hv => ⟨f k v, by simp [find?_mapRows, hv], hf k v hv⟩, fun k v' hv' hn => ?_⟩
  rw [find?_mapRows, hn] at hv'
  simp at hv'

end Grows

/-! ### Tables that keep their order -/

/-- A table after a write that deletes nothing and appends its new rows: the old rows stand first,
in their order and under their keys, related by `R` to what they were. -/
def Extends (R : V → V → Prop) (t t' : Table K V) : Prop :=
  ∃ old, old <+: t'.rows ∧ List.Forall₂ (fun a b => a.1 = b.1 ∧ R a.2 b.2) t.rows old

section Extends

variable {R : V → V → Prop} {t t' : Table K V}

omit [DecidableEq K] in
/-- A table that is not written. -/
theorem Extends.refl (hr : ∀ v, R v v) (t : Table K V) : t.Extends R t :=
  ⟨t.rows, List.prefix_rfl, List.forall₂_same.2 fun r _ => ⟨rfl, hr r.2⟩⟩

/-- An insertion. -/
theorem Extends.insert (hr : ∀ v, R v v) {k : K} {v : V} (h : t.find? k = none) :
    t.Extends R (t.insert k v h) :=
  ⟨t.rows, List.prefix_append t.rows [(k, v)], List.forall₂_same.2 fun r _ => ⟨rfl, hr r.2⟩⟩

/-- An update of every row. -/
theorem Extends.mapRows {f : K → V → V} (hf : ∀ k v, t.find? k = some v → R v (f k v)) :
    t.Extends R (t.mapRows f) := by
  refine ⟨(t.mapRows f).rows, List.prefix_rfl, ?_⟩
  show List.Forall₂ _ t.rows (t.rows.map fun r => (r.1, f r.1 r.2))
  rw [List.forall₂_map_right_iff, List.forall₂_same]
  exact fun r hmem => ⟨rfl, hf r.1 r.2 (find?_eq_some.2 hmem)⟩

/-- An update of the row under a key. -/
theorem Extends.modify (hr : ∀ v, R v v) {k : K} {f : V → V}
    (hf : ∀ v, t.find? k = some v → R v (f v)) : t.Extends R (t.modify k f) := by
  have hmap : t.modify k f = t.mapRows fun k' v => if k' = k then f v else v := rfl
  rw [hmap]
  refine Extends.mapRows fun k' v hv => ?_
  split
  · rename_i e
    exact hf v (e ▸ hv)
  · exact hr v

/-- An overwrite of a row. -/
theorem Extends.set (hr : ∀ v, R v v) {k : K} {v w : V} (hv : t.find? k = some v) (hw : R v w) :
    t.Extends R (t.set k w) := by
  refine Extends.modify hr fun v' hv' => ?_
  rw [hv, Option.some.injEq] at hv'
  exact hv' ▸ hw

/-- An old row after the write. -/
theorem Extends.old (h : t.Extends R t') {k : K} {v : V} (hv : t.find? k = some v) :
    ∃ v', t'.find? k = some v' ∧ R v v' := by
  obtain ⟨old, ⟨new, hnew⟩, hrows⟩ := h
  have hold : ∃ b ∈ old, k = b.1 ∧ R v b.2 := by
    have hmem := find?_eq_some.1 hv
    clear hnew hv
    generalize t.rows = rows at hmem hrows
    induction hrows with
    | nil => cases hmem
    | @cons a b as bs hab _ ih =>
      rcases List.mem_cons.1 hmem with rfl | hmem
      · exact ⟨b, List.mem_cons_self, hab⟩
      · obtain ⟨b', hb', hrel⟩ := ih hmem
        exact ⟨b', List.mem_cons_of_mem _ hb', hrel⟩
  obtain ⟨⟨k', v'⟩, hmem, rfl, hrel⟩ := hold
  exact ⟨v', find?_eq_some.2 (hnew ▸ List.mem_append_left _ hmem), hrel⟩

/-- A write followed by an insertion. -/
theorem Extends.insert_after (h : t.Extends R t') {k : K} {v : V} (hk : t'.find? k = none) :
    t.Extends R (t'.insert k v hk) := by
  obtain ⟨old, hprefix, hrows⟩ := h
  exact ⟨old, hprefix.trans (List.prefix_append t'.rows [(k, v)]), hrows⟩

omit [DecidableEq K] in
/-- **A query for the first row** under a condition that no update changes finds the same row. -/
theorem Extends.find?_rows (h : t.Extends R t') {q : K × V → Bool} {k : K} {v : V}
    (hq : ∀ k a b, R a b → q (k, b) = q (k, a)) (hv : t.rows.find? q = some (k, v)) :
    ∃ v', t'.rows.find? q = some (k, v') ∧ R v v' := by
  obtain ⟨old, ⟨new, hnew⟩, hrows⟩ := h
  have hold : ∃ v', old.find? q = some (k, v') ∧ R v v' := by
    clear hnew
    generalize t.rows = rows at hv hrows
    induction hrows with
    | nil => cases hv
    | @cons a b as bs hab _ ih =>
      obtain ⟨hkey, hrel⟩ := hab
      have hsame : q b = q a := by
        have hrow : b = (a.1, b.2) := Prod.ext hkey.symm rfl
        rw [hrow]
        exact hq a.1 a.2 b.2 hrel
      cases ha : q a with
      | true =>
        rw [List.find?_cons_of_pos (by rw [ha]), Option.some.injEq] at hv
        subst hv
        refine ⟨b.2, ?_, hrel⟩
        rw [List.find?_cons_of_pos (by rw [hsame, ha])]
        exact congrArg some (Prod.ext hkey.symm rfl)
      | false =>
        rw [List.find?_cons_of_neg (by rw [ha]; exact Bool.false_ne_true)] at hv
        rw [List.find?_cons_of_neg (by rw [hsame, ha]; exact Bool.false_ne_true)]
        exact ih hv
  obtain ⟨v', hv', hrel⟩ := hold
  refine ⟨v', ?_, hrel⟩
  rw [← hnew, List.find?_append, hv', Option.some_or]

end Extends

/-! ### Aggregates -/

end Lookup

/-- The aggregate of `g` over all rows. -/
def sum (t : Table K V) (g : K → V → Int) : Int := (t.rows.map fun r => g r.1 r.2).sum

/-- An aggregate over no rows is zero. -/
@[simp] theorem sum_empty (g : K → V → Int) : (empty : Table K V).sum g = 0 := rfl

/-- Aggregates of functions that agree on the rows are equal. -/
theorem sum_congr {t : Table K V} {g g' : K → V → Int}
    (h : ∀ k v, (k, v) ∈ t.rows → g k v = g' k v) : t.sum g = t.sum g' := by
  unfold sum
  congr 1
  exact List.map_congr_left fun r hr => h r.1 r.2 hr

/-- An aggregate of nonnegative amounts is nonnegative. -/
theorem sum_nonneg {t : Table K V} {g : K → V → Int} (h : ∀ k v, (k, v) ∈ t.rows → 0 ≤ g k v) :
    0 ≤ t.sum g := by
  apply List.sum_nonneg
  intro x hx
  obtain ⟨r, hr, rfl⟩ := List.mem_map.1 hx
  exact h r.1 r.2 hr

/-- An aggregate of zeros is zero. -/
theorem sum_eq_zero {t : Table K V} {g : K → V → Int} (h : ∀ k v, (k, v) ∈ t.rows → g k v = 0) :
    t.sum g = 0 := by
  have hzero : t.sum g = t.sum fun _ _ => 0 := sum_congr h
  rw [hzero]
  simp [sum]

section

variable [DecidableEq K]

/-- An insertion adds the new row's share. -/
@[simp] theorem sum_insert {t : Table K V} {k : K} {v : V} {h : t.find? k = none}
    (g : K → V → Int) : (t.insert k v h).sum g = t.sum g + g k v := by
  simp [sum, insert]

/-- Replacing the value under `k` in a list of rows with distinct keys. -/
private theorem sum_map_modify {k : K} {f : V → V} {g : K → V → Int} :
    ∀ {l : List (K × V)} {v : V}, (l.map Prod.fst).Nodup → (k, v) ∈ l →
      ((l.map fun r => (r.1, if r.1 = k then f r.2 else r.2)).map fun r => g r.1 r.2).sum =
        (l.map fun r => g r.1 r.2).sum + (g k (f v) - g k v)
  | [], v, _, h => by simp at h
  | (k', w) :: l, v, hn, h => by
    simp only [List.map_cons, List.nodup_cons] at hn
    rcases List.mem_cons.1 h with h | h
    · -- the row itself: no later row has the key
      cases h
      have hl : (l.map fun r => (r.1, if r.1 = k then f r.2 else r.2)) = l := by
        conv_rhs => rw [← List.map_id l]
        refine List.map_congr_left fun r hr => ?_
        have : r.1 ≠ k := fun e => hn.1 (e ▸ List.mem_map.2 ⟨r, hr, rfl⟩)
        simp [this]
      simp only [List.map_cons, hl, List.sum_cons, if_true]
      ring
    · have hk : k ∈ l.map Prod.fst := List.mem_map.2 ⟨(k, v), h, rfl⟩
      have hne : k' ≠ k := fun e => hn.1 (e ▸ hk)
      simp only [List.map_cons, List.sum_cons, hne, if_false]
      rw [sum_map_modify hn.2 h]
      ring

/-- **An update replaces one share**: the old row's share leaves, the new row's enters. -/
theorem sum_modify {t : Table K V} {k : K} {v : V} (h : t.find? k = some v) (f : V → V)
    (g : K → V → Int) : (t.modify k f).sum g = t.sum g + (g k (f v) - g k v) :=
  sum_map_modify t.nodup (find?_eq_some.1 h)

/-- Overwriting a row changes an aggregate by the difference of its amounts. -/
theorem sum_set {t : Table K V} {k : K} {v : V} (h : t.find? k = some v) (w : V)
    (g : K → V → Int) : (t.set k w).sum g = t.sum g + (g k w - g k v) :=
  sum_modify h _ g

/-- An update that keeps the row's share keeps the aggregate. -/
theorem sum_set_eq {t : Table K V} {k : K} {v w : V} {g : K → V → Int} (h : t.find? k = some v)
    (hg : g k w = g k v) : (t.set k w).sum g = t.sum g := by
  rw [sum_set h, hg]; ring

/-- One share is at most the aggregate of nonnegative shares. -/
theorem le_sum {t : Table K V} {g : K → V → Int} {k : K} {v : V} (h : t.find? k = some v)
    (hg : ∀ k v, (k, v) ∈ t.rows → 0 ≤ g k v) : g k v ≤ t.sum g := by
  refine List.single_le_sum ?_ _ (List.mem_map.2 ⟨(k, v), find?_eq_some.1 h, rfl⟩)
  intro x hx
  obtain ⟨r, hr, rfl⟩ := List.mem_map.1 hx
  exact hg r.1 r.2 hr

/-- Deleting a row takes it out of the rows. -/
theorem rows_delete {t : Table K V} {k : K} {v : V} (h : t.find? k = some v) :
    ∃ a b, t.rows = a ++ (k, v) :: b ∧ (t.deleteWhere fun k' _ => k' = k).rows = a ++ b := by
  obtain ⟨a, b, hrows⟩ := List.append_of_mem (find?_eq_some.1 h)
  have hnodup := t.nodup
  rw [hrows, List.map_append, List.map_cons, List.nodup_middle, List.nodup_cons,
    List.mem_append, not_or] at hnodup
  have hother : ∀ l : List (K × V), k ∉ l.map Prod.fst →
      l.filter (fun r => !decide (r.1 = k)) = l := fun l hl =>
    List.filter_eq_self.2 fun r hr => by
      have hne : r.1 ≠ k := fun e => hl (e ▸ List.mem_map_of_mem hr)
      simp [hne]
  refine ⟨a, b, hrows, ?_⟩
  show t.rows.filter (fun r => !decide (r.1 = k)) = a ++ b
  rw [hrows, List.filter_append, List.filter_cons, hother a hnodup.1.1, hother b hnodup.1.2]
  simp

/-- One row counts for one at most. -/
theorem length_filter_le_without (t : Table K V) (k : K) (p : K × V → Bool) :
    (t.rows.filter p).length ≤ ((t.without k).rows.filter p).length + 1 := by
  cases hk : t.find? k with
  | none =>
    have hsame : (t.without k).rows = t.rows :=
      List.filter_eq_self.2 fun r hr => by
        have hne : r.1 ≠ k := fun e => find?_eq_none.1 hk (e ▸ List.mem_map_of_mem hr)
        simp [hne]
    rw [hsame]
    omega
  | some v =>
    obtain ⟨a, b, hrows, hdelete⟩ := rows_delete hk
    have hwithout : (t.without k).rows = a ++ b := hdelete
    have hone : ([(k, v)].filter p).length ≤ 1 := List.length_filter_le p [(k, v)]
    rw [hrows, hwithout, List.append_cons, List.filter_append, List.filter_append,
      List.filter_append, List.length_append, List.length_append, List.length_append]
    omega

/-- **A count after a write that deletes nothing**: rows that count only if they counted before,
and rows under new keys, count for as many more as there are new keys. -/
theorem Grows.length_filter_le {R : V → V → Prop} {New : K → V → Prop} {t t' : Table K V}
    (h : t.Grows R New t') {p : K × V → Bool} {new : List K}
    (hold : ∀ k v v', R v v' → p (k, v') = true → p (k, v) = true)
    (hnew : ∀ k v', t'.find? k = some v' → t.find? k = none → p (k, v') = true → k ∈ new) :
    (t'.rows.filter p).length ≤ (t.rows.filter p).length + new.length := by
  have hsub : (t'.rows.filter p).map Prod.fst ⊆ (t.rows.filter p).map Prod.fst ++ new := by
    intro k hk
    obtain ⟨⟨k, v'⟩, hr, rfl⟩ := List.mem_map.1 hk
    obtain ⟨hmem, hp⟩ := List.mem_filter.1 hr
    have hv' := find?_eq_some.2 hmem
    rw [List.mem_append]
    rcases h.cases hv' with ⟨v, hv, hrel⟩ | ⟨hnone, -⟩
    · exact .inl (List.mem_map.2 ⟨(k, v), List.mem_filter.2 ⟨find?_eq_some.1 hv,
        hold k v v' hrel hp⟩, rfl⟩)
    · exact .inr (hnew k v' hv' hnone hp)
  have hnodup : ((t'.rows.filter p).map Prod.fst).Nodup :=
    (List.filter_sublist.map Prod.fst).nodup t'.nodup
  have hlength := (hnodup.subperm hsub).length_le
  simpa using hlength

/-- Deleting a row takes out its share. -/
theorem sum_delete {t : Table K V} {k : K} {v : V} (h : t.find? k = some v) (g : K → V → Int) :
    (t.deleteWhere fun k' _ => k' = k).sum g = t.sum g - g k v := by
  obtain ⟨a, b, hrows, hdelete⟩ := rows_delete h
  simp only [sum, hrows, hdelete, List.map_append, List.map_cons, List.sum_append, List.sum_cons]
  ring

/-- Aggregates of functions that differ under one key alone. -/
theorem sum_eq_of_ne {t : Table K V} {k : K} {v : V} {g g' : K → V → Int} (h : t.find? k = some v)
    (hne : ∀ k' v', k' ≠ k → g' k' v' = g k' v') : t.sum g' = t.sum g + (g' k v - g k v) := by
  have hrest : (t.without k).sum g' = (t.without k).sum g := by
    refine sum_congr fun k' v' hr => hne k' v' ?_
    have hkept := (List.mem_filter.1 hr).2
    simpa using hkept
  have hg : (t.without k).sum g = t.sum g - g k v := sum_delete h g
  have hg' : (t.without k).sum g' = t.sum g' - g' k v := sum_delete h g'
  omega

/-- **An aggregate over a joined table**: where every row of one table has a row of the other with
the same share, and the other rows have none, the aggregates are equal. -/
theorem sum_join {W : Type} {g : K → V → Int} {h : K → W → Int} :
    ∀ {rows : List (K × W)} {t : Table K V}, (rows.map Prod.fst).Nodup →
      (∀ r ∈ rows, ∃ v, t.find? r.1 = some v ∧ g r.1 v = h r.1 r.2) →
      (∀ k v, t.find? k = some v → k ∉ rows.map Prod.fst → g k v = 0) →
      t.sum g = (rows.map fun r => h r.1 r.2).sum
  | [], t, _, _, hzero => sum_eq_zero fun k v hr => hzero k v (find?_eq_some.2 hr) (by simp)
  | (k, w) :: rows, t, hnodup, hsome, hzero => by
    rw [List.map_cons, List.nodup_cons] at hnodup
    obtain ⟨v, hv, hshare⟩ := hsome _ List.mem_cons_self
    have hdelete : (t.without k).sum g = t.sum g - g k v := sum_delete hv g
    -- the remaining rows are joined with the rest of the table
    have hrest : (t.without k).sum g = (rows.map fun r => h r.1 r.2).sum := by
      refine sum_join hnodup.2 (fun r hr => ?_) fun k' v' hv' hk' => ?_
      · obtain ⟨v', hv', hshare'⟩ := hsome r (List.mem_cons_of_mem _ hr)
        have hne : r.1 ≠ k := fun e => hnodup.1 (List.mem_map.2 ⟨r, hr, e⟩)
        exact ⟨v', by rw [find?_without_ne hne]; exact hv', hshare'⟩
      · have hne : k' ≠ k := by
          rintro rfl
          have hr := (List.mem_filter.1 (find?_eq_some.1 hv')).2
          simp at hr
        rw [find?_without_ne hne] at hv'
        refine hzero k' v' hv' ?_
        rw [List.map_cons, List.mem_cons, not_or]
        exact ⟨hne, hk'⟩
    have hshare : g k v = h k w := hshare
    show t.sum g = h k w + (rows.map fun r => h r.1 r.2).sum
    omega

end

end Table

/-! ### Queries over lists of rows -/

section Queries

variable {α : Type}

/-- The element that `ORDER BY le LIMIT 1` selects: the first among the least. -/
def firstBy (le : α → α → Bool) : List α → Option α
  | [] => none
  | a :: l =>
    match firstBy le l with
    | none => some a
    | some b => if le a b then some a else some b

/-- What `firstBy` selects is one of the elements. -/
theorem mem_of_firstBy {le : α → α → Bool} :
    ∀ {l : List α} {a : α}, firstBy le l = some a → a ∈ l
  | [], a, h => by simp [firstBy] at h
  | b :: l, a, h => by
    simp only [firstBy] at h
    split at h
    · simp only [Option.some.injEq] at h
      simp [h]
    · rename_i c hc
      split at h <;> simp only [Option.some.injEq] at h
      · simp [h]
      · exact List.mem_cons_of_mem _ (h ▸ mem_of_firstBy hc)

/-- `firstBy` selects something from every nonempty list. -/
theorem firstBy_isSome {le : α → α → Bool} :
    ∀ {l : List α}, l ≠ [] → (firstBy le l).isSome
  | [], h => absurd rfl h
  | b :: l, _ => by
    simp only [firstBy]
    split
    · rfl
    · split <;> rfl

/-- Under an order whose first key is `f`, `firstBy` selects an element with the least key. -/
theorem firstBy_key_le {κ : Type} [Preorder κ] {le : α → α → Bool} {f : α → κ}
    (hle : ∀ a b, le a b = true → f a ≤ f b) (hnot : ∀ a b, le a b = false → f b ≤ f a) :
    ∀ {l : List α} {a b : α}, firstBy le l = some a → b ∈ l → f a ≤ f b
  | c :: l, a, b, h, hb => by
    simp only [firstBy] at h
    split at h
    · rename_i hnone
      -- nothing is left beside the head
      have hl : l = [] := by
        by_contra hne
        have : (firstBy le l).isSome := firstBy_isSome hne
        rw [hnone] at this
        cases this
      simp only [Option.some.injEq] at h
      rw [hl, List.mem_singleton] at hb
      rw [← h, hb]
    · rename_i d hd
      have htail : ∀ b ∈ l, f d ≤ f b := fun b hb => firstBy_key_le hle hnot hd hb
      split at h <;> rename_i hcd <;> simp only [Option.some.injEq] at h
      · have hhead : f c ≤ f d := hle c d hcd
        rcases List.mem_cons.1 hb with rfl | hb
        · exact h ▸ le_rfl
        · exact h ▸ hhead.trans (htail b hb)
      · have hhead : f d ≤ f c := hnot c d (by simpa using hcd)
        rcases List.mem_cons.1 hb with rfl | hb
        · exact h ▸ hhead
        · exact h ▸ htail b hb

end Queries

end Relational
