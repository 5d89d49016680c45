import Mathlib.Data.List.Basic

set_option relaxedAutoImplicit false
set_option autoImplicit false

/-!
# Rosters

The parties of a system as a list that only grows: a party is known by its place, where its record
is replaced as it goes on.

## Main definitions

* `Roster.act` — what a party does if it is in one of some states.

## Main results

* `Roster.act_cases`, `Roster.act_of` — what holds whether or not it acts, and what it then does.
* `Roster.at_set`, `Roster.mem_set` — a place of a roster with one record replaced.
* `Roster.map_set` — what a replacement leaves of one record, it leaves of all.
* `Roster.countP_set` — a replacement moves a count by one at most.
-/

namespace Roster

variable {α β : Type} {l : List α} {i j : Nat} {a b x : α}

/-- The party at a place acts if it satisfies `p`; otherwise the system stays as it is. -/
def act {σ : Type} (l : List α) (i : Nat) (p : α → Bool) (f : α → σ) (s : σ) : σ :=
  match l[i]? with
  | some a => if p a then f a else s
  | none => s

/-- What holds of the system whether or not the party acts. -/
theorem act_cases {σ : Type} {P : σ → Prop} {p : α → Bool} {f : α → σ} {s : σ} (h : P s)
    (hf : ∀ a, l[i]? = some a → p a = true → P (f a)) : P (act l i p f s) := by
  unfold act
  split
  · next a ha =>
    split
    · next hp => exact hf a ha hp
    · exact h
  · exact h

/-- What a party that satisfies `p` does. -/
theorem act_of {σ : Type} {p : α → Bool} {f : α → σ} {s : σ} (h : l[i]? = some a)
    (hp : p a = true) : act l i p f s = f a := by
  unfold act
  rw [h]
  exact if_pos hp

/-- A record at a place is one of the list. -/
theorem mem_of_at (h : l[i]? = some a) : a ∈ l := List.mem_of_getElem? h

/-- The record that was put in a place. -/
theorem at_set_self (h : l[i]? = some a) : (l.set i b)[i]? = some b :=
  List.getElem?_set_self (List.getElem?_eq_some_iff.1 h).1

/-- The other places are as they were. -/
theorem at_set_ne (hne : j ≠ i) : (l.set i b)[j]? = l[j]? := List.getElem?_set_ne (Ne.symm hne)

/-- A place after a replacement: the replaced one, or another as it was. -/
theorem at_set (h : l[i]? = some a) (hx : (l.set i b)[j]? = some x) :
    (j = i ∧ x = b) ∨ (j ≠ i ∧ l[j]? = some x) := by
  by_cases hj : j = i
  · subst hj
    rw [at_set_self h] at hx
    exact .inl ⟨rfl, (Option.some.inj hx).symm⟩
  · rw [at_set_ne hj] at hx
    exact .inr ⟨hj, hx⟩

/-- After a replacement every record is the new one or an old one. -/
theorem mem_set (hx : x ∈ l.set i b) : x = b ∨ x ∈ l :=
  (List.mem_or_eq_of_mem_set hx).symm

/-- What a replacement does not change about its record, it does not change about all. -/
theorem map_set (f : α → β) (h : l[i]? = some a) (hf : f b = f a) :
    (l.set i b).map f = l.map f := by
  apply List.ext_getElem?
  intro j
  rw [List.getElem?_map, List.getElem?_map]
  by_cases hj : j = i
  · subst hj
    rw [at_set_self h, h, Option.map_some, Option.map_some, hf]
  · rw [at_set_ne hj]

/-- A record that counts is replaced by one that counts or not. -/
theorem countP_set {p : α → Bool} (h : l[i]? = some a) (ha : p a = true) :
    (l.set i b).countP p + (if p b then 0 else 1) = l.countP p := by
  obtain ⟨hlt, hget⟩ := List.getElem?_eq_some_iff.1 h
  have hpos : 0 < l.countP p := List.countP_pos_iff.2 ⟨a, mem_of_at h, ha⟩
  rw [List.countP_set hlt, hget, if_pos ha]
  split <;> omega

/-- A replacement that counts as the record did. -/
theorem countP_set_same {p : α → Bool} (h : l[i]? = some a) (hp : p b = p a) :
    (l.set i b).countP p = l.countP p := by
  have hmap := map_set (b := b) p h hp
  have hall : ∀ m : List α, m.countP p = (m.map p).countP id := fun m => by
    rw [List.countP_map]
    rfl
  rw [hall, hall, hmap]

end Roster
