import NetworkAi.Ledger.Post

set_option relaxedAutoImplicit false
set_option autoImplicit false
set_option linter.unusedSectionVars false

/-!
# The lines of a posting

Merging, filtering and sorting the entries of a posting change neither what moves on an account
nor the total: the lines are one per account, none is zero, and an account's line carries the
sum of its entries.

## Main results

* `NetworkAi.Ledger.entrySum_linesOf`, `NetworkAi.Ledger.sum_linesOf` — the lines move what the
  entries move, on each account and in total.
* `NetworkAi.Ledger.nodup_linesOf` — no account has two lines.
-/

namespace NetworkAi.Ledger

open Relational

variable {A : Type} [DecidableEq A]

/-- No entries give an account nothing. -/
@[simp] theorem entrySum_nil (a : A) : entrySum a [] = 0 := rfl

/-- The sum of an account over entries, by the first one. -/
@[simp] theorem entrySum_cons (a : A) (e : A × Int) (l : List (A × Int)) :
    entrySum a (e :: l) = (if e.1 = a then e.2 else 0) + entrySum a l := by
  simp [entrySum]

/-- The sum of an account over two lists of entries. -/
@[simp] theorem entrySum_append (a : A) (l m : List (A × Int)) :
    entrySum a (l ++ m) = entrySum a l + entrySum a m := by
  simp [entrySum]

/-- Entries that do not name an account move nothing on it. -/
theorem entrySum_eq_zero {a : A} {l : List (A × Int)} (h : ∀ e ∈ l, e.1 ≠ a) :
    entrySum a l = 0 := by
  induction l with
  | nil => rfl
  | cons e l ih =>
    rw [entrySum_cons, if_neg (h e (by simp)), ih fun e' he => h e' (List.mem_cons_of_mem _ he)]
    rfl

/-- The order of the entries does not matter. -/
theorem entrySum_perm {a : A} {l m : List (A × Int)} (h : l.Perm m) :
    entrySum a l = entrySum a m :=
  (h.map _).sum_eq

/-! ### Merging -/

/-- Adding an entry to combined ones adds its amount to its account. -/
theorem entrySum_addEntry (a : A) (e : A × Int) :
    ∀ l : List (A × Int), entrySum a (addEntry e l) = entrySum a l + entrySum a [e]
  | [] => by simp [addEntry]
  | (b, v) :: l => by
    have ih := entrySum_addEntry a e l
    unfold addEntry
    split
    · rename_i h
      subst h
      simp only [entrySum_cons, entrySum_nil]
      split <;> ring
    · rw [entrySum_cons, entrySum_cons, ih]
      ring

/-- Adding an entry to combined ones adds its amount to the total. -/
theorem sum_addEntry (e : A × Int) :
    ∀ l : List (A × Int), ((addEntry e l).map Prod.snd).sum = (l.map Prod.snd).sum + e.2
  | [] => by simp [addEntry]
  | (b, v) :: l => by
    have ih := sum_addEntry e l
    unfold addEntry
    split
    · simp only [List.map_cons, List.sum_cons]; ring
    · simp only [List.map_cons, List.sum_cons, ih]; ring

/-- The accounts after merging one entry. -/
theorem mem_keys_addEntry (e : A × Int) (a : A) :
    ∀ l : List (A × Int), a ∈ (addEntry e l).map Prod.fst ↔ a = e.1 ∨ a ∈ l.map Prod.fst
  | [] => by simp [addEntry]
  | (b, v) :: l => by
    have ih := mem_keys_addEntry e a l
    unfold addEntry
    split
    · rename_i h
      simp only [List.map_cons, List.mem_cons, ← h]
      tauto
    · simp only [List.map_cons, List.mem_cons, ih]
      tauto

/-- Adding an entry keeps the accounts of combined entries distinct. -/
theorem nodup_addEntry (e : A × Int) :
    ∀ l : List (A × Int), (l.map Prod.fst).Nodup → ((addEntry e l).map Prod.fst).Nodup
  | [], _ => by simp [addEntry]
  | (b, v) :: l, h => by
    simp only [List.map_cons, List.nodup_cons] at h
    unfold addEntry
    split
    · simpa using h
    · rename_i hne
      simp only [List.map_cons, List.nodup_cons]
      refine ⟨fun hb => ?_, nodup_addEntry e l h.2⟩
      rcases (mem_keys_addEntry e b l).1 hb with rfl | hb
      · exact hne rfl
      · exact h.1 hb

/-- Merging, from any merged prefix: what the fold of `combine` keeps. -/
private theorem foldl_addEntry (entries : List (A × Int)) :
    ∀ m : List (A × Int), (m.map Prod.fst).Nodup →
      let r := entries.foldl (fun m e => addEntry e m) m
      (r.map Prod.fst).Nodup ∧ (∀ a, entrySum a r = entrySum a m + entrySum a entries) ∧
      (r.map Prod.snd).sum = (m.map Prod.snd).sum + (entries.map Prod.snd).sum ∧
      ∀ a, a ∈ r.map Prod.fst ↔ a ∈ m.map Prod.fst ∨ a ∈ entries.map Prod.fst := by
  induction entries with
  | nil => intro m hm; simp [hm]
  | cons e l ih =>
    intro m hm
    obtain ⟨h1, h2, h3, h4⟩ := ih (addEntry e m) (nodup_addEntry e m hm)
    refine ⟨h1, fun a => ?_, ?_, fun a => ?_⟩
    · rw [List.foldl_cons, h2 a, entrySum_addEntry]
      simp only [entrySum_cons, entrySum_nil]
      ring
    · rw [List.foldl_cons, h3, sum_addEntry]
      simp only [List.map_cons, List.sum_cons]
      ring
    · rw [List.foldl_cons, h4 a, mem_keys_addEntry, List.map_cons, List.mem_cons]
      tauto

/-- The accounts of combined entries are distinct. -/
theorem nodup_combine (entries : List (A × Int)) : ((combine entries).map Prod.fst).Nodup :=
  (foldl_addEntry entries [] (by simp)).1

/-- Combining entries keeps the sum of every account. -/
theorem entrySum_combine (a : A) (entries : List (A × Int)) :
    entrySum a (combine entries) = entrySum a entries := by
  have h := (foldl_addEntry entries [] (by simp)).2.1 a
  simpa [combine] using h

/-- Combining entries keeps their total. -/
theorem sum_combine (entries : List (A × Int)) :
    ((combine entries).map Prod.snd).sum = (entries.map Prod.snd).sum := by
  have h := (foldl_addEntry entries [] (by simp)).2.2.1
  simpa [combine] using h

/-- The merged accounts are those the entries name. -/
theorem mem_keys_combine (a : A) (entries : List (A × Int)) :
    a ∈ (combine entries).map Prod.fst ↔ a ∈ entries.map Prod.fst := by
  have h := (foldl_addEntry entries [] (by simp)).2.2.2 a
  simpa [combine] using h

/-! ### Filtering and sorting -/

/-- Entries of amount zero do not matter to an account. -/
theorem entrySum_filter_ne_zero (a : A) (l : List (A × Int)) :
    entrySum a (l.filter fun e => e.2 ≠ 0) = entrySum a l := by
  induction l with
  | nil => rfl
  | cons e l ih =>
    simp only [ne_eq, decide_not] at ih
    by_cases h : e.2 = 0 <;> simp [h, ih]

/-- Entries of amount zero do not matter to the total. -/
theorem sum_filter_ne_zero (l : List (A × Int)) :
    ((l.filter fun e => e.2 ≠ 0).map Prod.snd).sum = (l.map Prod.snd).sum := by
  induction l with
  | nil => rfl
  | cons e l ih =>
    simp only [ne_eq, decide_not] at ih
    by_cases h : e.2 = 0 <;> simp [h, ih]

variable (le : A → A → Bool)

/-- The lines of a posting are the combined entries that are not zero, in another order. -/
theorem linesOf_perm (entries : List (A × Int)) :
    (linesOf le entries).Perm ((combine entries).filter fun e => e.2 ≠ 0) :=
  List.perm_insertionSort _ _

/-- The lines move on each account what the entries move. -/
theorem entrySum_linesOf (a : A) (entries : List (A × Int)) :
    entrySum a (linesOf le entries) = entrySum a entries := by
  rw [entrySum_perm (linesOf_perm le entries), entrySum_filter_ne_zero, entrySum_combine]

/-- The lines have the entries' total. -/
theorem sum_linesOf (entries : List (A × Int)) :
    ((linesOf le entries).map Prod.snd).sum = (entries.map Prod.snd).sum := by
  rw [((linesOf_perm le entries).map Prod.snd).sum_eq, sum_filter_ne_zero, sum_combine]

/-- No account has two lines. -/
theorem nodup_linesOf (entries : List (A × Int)) : ((linesOf le entries).map Prod.fst).Nodup := by
  rw [((linesOf_perm le entries).map Prod.fst).nodup_iff]
  exact (List.filter_sublist.map Prod.fst).nodup (nodup_combine entries)

/-- A line is not zero, and its account is one the entries name. -/
theorem mem_linesOf {entries : List (A × Int)} {e : A × Int} (h : e ∈ linesOf le entries) :
    e.2 ≠ 0 ∧ e.1 ∈ entries.map Prod.fst := by
  rw [(linesOf_perm le entries).mem_iff, List.mem_filter] at h
  refine ⟨by simpa using h.2, ?_⟩
  rw [← mem_keys_combine]
  exact List.mem_map.2 ⟨e, h.1, rfl⟩

/-- With distinct accounts, a line's amount is what the lines move on its account. -/
theorem entrySum_of_mem : ∀ {l : List (A × Int)} {e : A × Int}, (l.map Prod.fst).Nodup → e ∈ l →
    entrySum e.1 l = e.2
  | [], e, _, h => by simp at h
  | e' :: l, e, hn, h => by
    simp only [List.map_cons, List.nodup_cons] at hn
    rcases List.mem_cons.1 h with rfl | h
    · rw [entrySum_cons, if_pos rfl, entrySum_eq_zero, add_zero]
      intro e'' he he'
      exact hn.1 (he' ▸ List.mem_map.2 ⟨e'', he, rfl⟩)
    · have hne : e'.1 ≠ e.1 := fun he => hn.1 (he ▸ List.mem_map.2 ⟨e, h, rfl⟩)
      rw [entrySum_cons, if_neg hne, zero_add, entrySum_of_mem hn.2 h]

/-- The line of an account carries the sum of the account's entries. -/
theorem mem_linesOf_amount {entries : List (A × Int)} {e : A × Int} (h : e ∈ linesOf le entries) :
    e.2 = entrySum e.1 entries := by
  rw [← entrySum_linesOf le e.1 entries, entrySum_of_mem (nodup_linesOf le entries) h]

/-- An account on which the entries move something has a line. -/
theorem linesOf_of_entrySum_ne_zero {entries : List (A × Int)} {a : A}
    (h : entrySum a entries ≠ 0) : (a, entrySum a entries) ∈ linesOf le entries := by
  by_contra hn
  apply h
  rw [← entrySum_linesOf le a entries]
  refine entrySum_eq_zero fun e he hea => hn ?_
  subst hea
  rwa [← mem_linesOf_amount le he]

/-- The lines of one account: at most one, with the sum of its entries. -/
theorem filter_linesOf (a : A) (entries : List (A × Int)) :
    (linesOf le entries).filter (fun e => e.1 = a) =
      if entrySum a entries = 0 then [] else [(a, entrySum a entries)] := by
  have hvalue : ∀ e ∈ linesOf le entries, e.1 = a → e = (a, entrySum a entries) := by
    rintro ⟨b, v⟩ he rfl
    rw [Prod.mk.injEq]
    exact ⟨rfl, mem_linesOf_amount le he⟩
  split
  · rename_i hzero
    rw [List.filter_eq_nil_iff]
    intro e he
    simp only [decide_eq_true_eq]
    intro hea
    have := (mem_linesOf le he).1
    rw [hvalue e he hea] at this
    exact this hzero
  · rename_i hne
    have hmem := linesOf_of_entrySum_ne_zero le hne
    have hnodup := nodup_linesOf le entries
    generalize linesOf le entries = lines at hnodup hvalue hmem
    induction lines with
    | nil => simp at hmem
    | cons e l ih =>
      simp only [List.map_cons, List.nodup_cons] at hnodup
      rcases List.mem_cons.1 hmem with rfl | hmem
      · have hrest : l.filter (fun e => decide (e.1 = a)) = [] := by
          rw [List.filter_eq_nil_iff]
          intro e he
          simp only [decide_eq_true_eq]
          rintro rfl
          exact hnodup.1 (List.mem_map.2 ⟨e, he, rfl⟩)
        simp [hrest]
      · have hea : e.1 ≠ a := fun h => hnodup.1 (h ▸ List.mem_map.2 ⟨_, hmem, rfl⟩)
        rw [List.filter_cons_of_neg (by simpa using hea)]
        exact ih hnodup.2 (fun e he => hvalue e (List.mem_cons_of_mem _ he)) hmem

end NetworkAi.Ledger
