import Mathlib.Data.List.Basic

set_option relaxedAutoImplicit false
set_option autoImplicit false

/-!
# Records of events

A record only grows at its end. What is said of an event and of those before it is proved as the
event is appended; what the last mark of a record is stays until the next mark.

## Main definitions

* `Log.Each` — a relation between every event and those before it.
* `Log.LastMark` — the last mark of a record has a property.

## Main results

* `Log.Each.concat`, `Log.LastMark.concat` — the record with one event more.
-/

namespace Log

variable {α : Type} {P : List α → α → Prop} {mark p : α → Prop} {l : List α} {e : α}

/-- Every event is related to the events before it. -/
def Each (P : List α → α → Prop) (l : List α) : Prop :=
  ∀ before e after, l = before ++ e :: after → P before e

/-- An empty log has the property. -/
theorem Each.nil : Each P [] := by
  intro before e after h
  exact absurd h.symm (by simp)

/-- The last event of a longer record, or one of the shorter record. -/
theorem split_concat {before after : List α} {x : α} (h : l ++ [e] = before ++ x :: after) :
    (before = l ∧ x = e) ∨ ∃ after', l = before ++ x :: after' := by
  rcases List.eq_nil_or_concat after with rfl | ⟨after', y, rfl⟩
  · obtain ⟨rfl, hx⟩ := List.append_inj' h rfl
    exact .inl ⟨rfl, (List.cons.inj hx).1.symm⟩
  · rw [List.concat_eq_append, ← List.cons_append, ← List.append_assoc] at h
    exact .inr ⟨after', (List.append_inj' h rfl).1⟩

/-- **One event more**: it is related to the record so far. -/
theorem Each.concat (h : Each P l) (he : P l e) : Each P (l ++ [e]) := by
  intro before x after hsplit
  rcases split_concat hsplit with ⟨rfl, rfl⟩ | ⟨after', hl⟩
  · exact he
  · exact h before x after' hl

/-- The last event of a record that is a mark has a property. -/
def LastMark (mark p : α → Prop) (l : List α) : Prop :=
  ∃ before e after, l = before ++ e :: after ∧ mark e ∧ p e ∧ ∀ x ∈ after, ¬ mark x

/-- A new mark is the last one. -/
theorem LastMark.new (hm : mark e) (hp : p e) : LastMark mark p (l ++ [e]) :=
  ⟨l, e, [], rfl, hm, hp, fun _ hx => absurd hx List.not_mem_nil⟩

/-- **One event more** that is no mark leaves the last mark. -/
theorem LastMark.concat (h : LastMark mark p l) (he : ¬ mark e) : LastMark mark p (l ++ [e]) := by
  obtain ⟨before, x, after, rfl, hm, hp, hafter⟩ := h
  refine ⟨before, x, after ++ [e], by simp, hm, hp, fun y hy => ?_⟩
  rcases List.mem_append.1 hy with hy | hy
  · exact hafter y hy
  · rw [List.mem_singleton.1 hy]
    exact he

end Log
