import Mathlib.Algebra.BigOperators.Group.List.Basic
import Mathlib.Algebra.BigOperators.Ring.Finset
import Mathlib.Algebra.Order.BigOperators.Group.Finset
import Mathlib.Algebra.Order.BigOperators.Group.List
import Mathlib.Data.Finset.Dedup
import Mathlib.Algebra.Group.Action.Defs

set_option relaxedAutoImplicit false
set_option autoImplicit false

/-!
# Packing jobs on shared resources

A job runs on an offer and takes one unit of every resource of it.  A plan says how many jobs
run on each offer.  The greedy plan walks over the offers once and puts as many jobs as fit on
each.  It is feasible and leaves no room, but it is neither a maximum nor monotone in the
capacities, unless the offers share few resources.

## Main definitions

* `Packing.room` — the jobs that fit on an offer.
* `Packing.load`, `Packing.size` — the jobs of a plan on a resource, and all of them.
* `Packing.greedy` — the greedy plan.
* `Packing.Narrow` — a bound on the resources that an offer shares with later ones.

## Main results

* `Packing.load_greedy_le`, `Packing.exists_load_greedy_eq` — the greedy plan is feasible, and
  uses up a resource of every offer.
* `Packing.size_le_greedy` — it is a maximum when the offers are disjoint.
* `Packing.size_greedy_le` — with less capacity it grows at most by the factor of `Narrow`.
-/

namespace Packing

variable {ρ : Type*}

/-! ### The room of an offer -/

/-- The least capacity among the resources of an offer. -/
def room (free : ρ → ℕ) : List ρ → ℕ
  | [] => 0
  | [d] => free d
  | d :: ds => min (free d) (room free ds)

/-- The room of a set is at most what is free on each of its resources. -/
theorem room_le (free : ρ → ℕ) {d : ρ} : ∀ {S : List ρ}, d ∈ S → room free S ≤ free d
  | [e], h => by
    rw [List.mem_singleton] at h
    rw [h, room]
  | e :: e' :: S, h => by
    rw [room]
    rcases List.mem_cons.mp h with rfl | h
    · exact min_le_left _ _
    · exact (min_le_right _ _).trans (room_le free h)
    · simp

/-- The room of a set is what is free on its scarcest resource. -/
theorem exists_room_eq (free : ρ → ℕ) : ∀ {S : List ρ}, S ≠ [] → ∃ d ∈ S, free d = room free S
  | [d], _ => ⟨d, by simp, rfl⟩
  | d :: e :: S, _ => by
    obtain ⟨d', hd', heq⟩ := exists_room_eq free (S := e :: S) (by simp)
    rw [room]
    · rcases le_total (free d) (room free (e :: S)) with hle | hle
      · exact ⟨d, by simp, (min_eq_left hle).symm⟩
      · exact ⟨d', List.mem_cons_of_mem d hd', by rw [min_eq_right hle, heq]⟩
    · simp

/-- What is free on every resource of a set is within its room. -/
theorem le_room {free : ρ → ℕ} {S : List ρ} {k : ℕ} (hS : S ≠ []) (h : ∀ d ∈ S, k ≤ free d) :
    k ≤ room free S := by
  obtain ⟨d, hd, heq⟩ := exists_room_eq free hS
  rw [← heq]
  exact h d hd

/-- The room of a set depends on its own resources only. -/
theorem room_congr {free free' : ρ → ℕ} :
    ∀ {S : List ρ}, (∀ d ∈ S, free d = free' d) → room free S = room free' S
  | [], _ => rfl
  | [d], h => h d (by simp)
  | d :: e :: S, h => by
    have htail := room_congr (S := e :: S) fun x hx => h x (List.mem_cons_of_mem d hx)
    simp only [room, h d (by simp), htail]

/-! ### Plans -/

variable [DecidableEq ρ]

/-- The jobs of a plan that take a unit of a resource. -/
def load (plan : List (List ρ × ℕ)) (d : ρ) : ℕ :=
  (plan.map fun p => if d ∈ p.1 then p.2 else 0).sum

/-- The jobs of a plan. -/
def size (plan : List (List ρ × ℕ)) : ℕ := (plan.map (·.2)).sum

omit [DecidableEq ρ] in
/-- An empty plan places nothing. -/
@[simp] theorem size_nil : size ([] : List (List ρ × ℕ)) = 0 := rfl

omit [DecidableEq ρ] in
/-- A plan places what its first set takes and what the others take. -/
@[simp] theorem size_cons (p : List ρ × ℕ) (plan : List (List ρ × ℕ)) :
    size (p :: plan) = p.2 + size plan := by
  simp [size]

/-- An empty plan loads nothing. -/
@[simp] theorem load_nil (d : ρ) : load [] d = 0 := rfl

/-- A plan loads a resource with what the sets that use it take. -/
@[simp] theorem load_cons (p : List ρ × ℕ) (plan : List (List ρ × ℕ)) (d : ρ) :
    load (p :: plan) d = (if d ∈ p.1 then p.2 else 0) + load plan d := by
  simp [load]

/-- The jobs on an offer take a unit of each of its resources. -/
theorem le_load {p : List ρ × ℕ} {d : ρ} (hd : d ∈ p.1) :
    ∀ {plan : List (List ρ × ℕ)}, p ∈ plan → p.2 ≤ load plan d
  | q :: plan, hp => by
    rw [load_cons]
    rcases List.mem_cons.mp hp with rfl | hp
    · rw [if_pos hd]
      exact Nat.le_add_right _ _
    · exact (le_load hd hp).trans (Nat.le_add_left _ _)

/-- A resource carries no more jobs than there are. -/
theorem load_le_size (d : ρ) : ∀ plan : List (List ρ × ℕ), load plan d ≤ size plan
  | [] => le_rfl
  | p :: plan => by
    have ih := load_le_size d plan
    rw [load_cons, size_cons]
    split <;> omega

/-! ### The greedy plan -/

/-- The capacities that `n` jobs on an offer leave. -/
def place (free : ρ → ℕ) (S : List ρ) (n : ℕ) (d : ρ) : ℕ := if d ∈ S then free d - n else free d

/-- On each offer in turn, as many jobs as fit. -/
def greedy (free : ρ → ℕ) : List (List ρ) → List (List ρ × ℕ)
  | [] => []
  | S :: L => (S, room free S) :: greedy (place free S (room free S)) L

/-- A greedy plan is about the sets it is given, in their order. -/
theorem map_fst_greedy (free : ρ → ℕ) (L : List (List ρ)) :
    (greedy free L).map Prod.fst = L := by
  induction L generalizing free with
  | nil => rfl
  | cons S L ih => rw [greedy, List.map_cons, ih]

/-- The jobs on an offer and what they leave of a resource are its capacity. -/
theorem add_place (free : ρ → ℕ) (S : List ρ) (d : ρ) :
    (if d ∈ S then room free S else 0) + place free S (room free S) d = free d := by
  rw [place]
  split
  · rename_i hd
    have := room_le free hd
    omega
  · omega

/-- **The greedy plan is feasible.** -/
theorem load_greedy_le (free : ρ → ℕ) (L : List (List ρ)) (d : ρ) :
    load (greedy free L) d ≤ free d := by
  induction L generalizing free with
  | nil => exact Nat.zero_le _
  | cons S L ih =>
    rw [greedy, load_cons, ← add_place free S d]
    exact Nat.add_le_add_left (ih _) _

/-- **The greedy plan leaves no room**: every offer has a resource without free units. -/
theorem exists_load_greedy_eq (free : ρ → ℕ) (L : List (List ρ)) {S : List ρ} (hS : S ∈ L)
    (hne : S ≠ []) : ∃ d ∈ S, load (greedy free L) d = free d := by
  induction L generalizing free with
  | nil => cases hS
  | cons T L ih =>
    rcases List.mem_cons.mp hS with rfl | hS
    · obtain ⟨d, hd, heq⟩ := exists_room_eq free hne
      refine ⟨d, hd, le_antisymm (load_greedy_le free (S :: L) d) ?_⟩
      rw [heq]
      exact le_load (p := (S, room free S)) hd (List.mem_cons_self ..)
    · -- what the rest uses up is what the head left
      obtain ⟨d, hd, heq⟩ := ih (place free T (room free T)) hS
      refine ⟨d, hd, ?_⟩
      rw [greedy, load_cons, heq, add_place]

/-- **The greedy plan is empty** exactly when every offer has a resource without capacity. -/
theorem size_greedy_eq_zero (free : ρ → ℕ) (L : List (List ρ)) (hL : ∀ S ∈ L, S ≠ []) :
    size (greedy free L) = 0 ↔ ∀ S ∈ L, ∃ d ∈ S, free d = 0 := by
  constructor
  · intro hzero S hS
    obtain ⟨d, hd, heq⟩ := exists_load_greedy_eq free L hS (hL S hS)
    have := load_le_size d (greedy free L)
    exact ⟨d, hd, by omega⟩
  · intro hfull
    unfold size
    rw [List.sum_eq_zero_iff]
    intro n hn
    obtain ⟨p, hp, rfl⟩ := List.mem_map.mp hn
    have hoffer : p.1 ∈ L := by
      rw [← map_fst_greedy free L]
      exact List.mem_map_of_mem hp
    obtain ⟨d, hd, hdzero⟩ := hfull p.1 hoffer
    have hload := le_load hd hp
    have := load_greedy_le free L d
    omega

/-! ### Disjoint offers -/

/-- The jobs on an offer of a feasible plan fit on it alone. -/
theorem snd_le_room {free : ρ → ℕ} {plan : List (List ρ × ℕ)}
    (hfits : ∀ d, load plan d ≤ free d) {p : List ρ × ℕ} (hp : p ∈ plan) (hne : p.1 ≠ []) :
    p.2 ≤ room free p.1 :=
  le_room hne fun d hd => (le_load hd hp).trans (hfits d)

/-- On disjoint offers the greedy plan fills each offer as if it were alone. -/
theorem size_greedy_of_disjoint (free : ρ → ℕ) {L : List (List ρ)}
    (hL : L.Pairwise List.Disjoint) : size (greedy free L) = (L.map (room free)).sum := by
  induction L generalizing free with
  | nil => rfl
  | cons S L ih =>
    obtain ⟨hhead, htail⟩ := List.pairwise_cons.mp hL
    rw [greedy, size_cons, ih _ htail, List.map_cons, List.sum_cons]
    congr 2
    refine List.map_congr_left fun T hT => room_congr fun d hd => ?_
    exact if_neg fun hS => hhead T hT hS hd

/-- **On disjoint offers the greedy plan is a maximum.** -/
theorem size_le_greedy {free : ρ → ℕ} {L : List (List ρ)} (hL : L.Pairwise List.Disjoint)
    (hne : ∀ S ∈ L, S ≠ []) {plan : List (List ρ × ℕ)} (hplan : plan.map Prod.fst = L)
    (hfits : ∀ d, load plan d ≤ free d) : size plan ≤ size (greedy free L) := by
  rw [size_greedy_of_disjoint free hL, ← hplan, List.map_map, size]
  refine List.sum_le_sum fun p hp => snd_le_room hfits hp (hne p.1 ?_)
  rw [← hplan]
  exact List.mem_map_of_mem hp

/-! ### Less capacity -/

/-- The resources of some of the offers. -/
def resources (L : List (List ρ)) : Finset ρ := L.flatten.toFinset

/-- The resources of some sets are those of each of them. -/
theorem mem_resources {L : List (List ρ)} {d : ρ} : d ∈ resources L ↔ ∃ S ∈ L, d ∈ S := by
  simp [resources]

/-- Beside any one of its resources, an offer has at most `w` that later offers have too. -/
def Narrow (w : ℕ) : List (List ρ) → Prop
  | [] => True
  | S :: L => (∀ d ∈ S, (S.toFinset.erase d ∩ resources L).card ≤ w) ∧ Narrow w L

/-- What one capacity has above another, on the resources of some offers. -/
def excess (free' free : ρ → ℕ) (D : Finset ρ) : ℕ := ∑ d ∈ D, (free' d - free d)

/-- When the greater room is that of the first capacities, the units left to the second ones
exceed by as much on at most `w` more resources. -/
theorem excess_place_of_le {w : ℕ} {free' free : ρ → ℕ} {S : List ρ} {D : Finset ρ} (hS : S ≠ [])
    (hw : ∀ d ∈ S, (S.toFinset.erase d ∩ D).card ≤ w) (hle : room free' S ≤ room free S) :
    excess (place free' S (room free' S)) (place free S (room free S)) D ≤
      excess free' free D + w * (room free S - room free' S) := by
  obtain ⟨d₁, hd₁, heq⟩ := exists_room_eq free' hS
  have hterm : ∀ d ∈ D, place free' S (room free' S) d - place free S (room free S) d ≤
      (free' d - free d) +
        if d ∈ S.toFinset.erase d₁ then room free S - room free' S else 0 := by
    intro d _
    have hroom : d ∈ S → room free S ≤ free d := room_le free
    by_cases hd : d ∈ S
    · have := hroom hd
      by_cases he : d = d₁
      · subst he
        simp only [place, if_pos hd]
        omega
      · have hmem : d ∈ S.toFinset.erase d₁ := by simp [he, hd]
        simp only [place, if_pos hd, if_pos hmem]
        omega
    · simp only [place, if_neg hd]
      omega
  calc excess (place free' S (room free' S)) (place free S (room free S)) D
      ≤ ∑ d ∈ D, ((free' d - free d) +
          if d ∈ S.toFinset.erase d₁ then room free S - room free' S else 0) :=
        Finset.sum_le_sum hterm
    _ = excess free' free D +
          (S.toFinset.erase d₁ ∩ D).card * (room free S - room free' S) := by
        rw [Finset.sum_add_distrib, ← Finset.sum_filter, Finset.sum_const, smul_eq_mul,
          Finset.filter_mem_eq_inter, Finset.inter_comm, excess]
    _ ≤ excess free' free D + w * (room free S - room free' S) :=
        Nat.add_le_add_left (Nat.mul_le_mul_right _ (hw d₁ hd₁)) _

/-- When the greater room is that of the second capacities, they lose the difference. -/
theorem excess_place_of_lt {free' free : ρ → ℕ} {S : List ρ} {D : Finset ρ} (hS : S ≠ [])
    (hlt : room free S < room free' S) :
    excess (place free' S (room free' S)) (place free S (room free S)) D +
      (room free' S - room free S) ≤ excess free' free (S.toFinset ∪ D) := by
  obtain ⟨d₀, hd₀, heq⟩ := exists_room_eq free hS
  have hmem : d₀ ∈ S.toFinset ∪ D := by simp [hd₀]
  have hterm : ∀ d ∈ S.toFinset ∪ D,
      (place free' S (room free' S) d - place free S (room free S) d) +
        (if d = d₀ then room free' S - room free S else 0) ≤ free' d - free d := by
    intro d _
    by_cases hd : d ∈ S
    · have hroom := room_le free hd
      have hroom' := room_le free' hd
      simp only [place, if_pos hd]
      split
      · rename_i he
        subst he
        omega
      · omega
    · have hne : d ≠ d₀ := fun he => hd (he ▸ hd₀)
      simp only [place, if_neg hd, if_neg hne, Nat.add_zero, le_refl]
  calc excess (place free' S (room free' S)) (place free S (room free S)) D +
        (room free' S - room free S)
      ≤ excess (place free' S (room free' S)) (place free S (room free S)) (S.toFinset ∪ D) +
          (room free' S - room free S) :=
        Nat.add_le_add_right (Finset.sum_le_sum_of_subset Finset.subset_union_right) _
    _ = ∑ d ∈ S.toFinset ∪ D,
          ((place free' S (room free' S) d - place free S (room free S) d) +
            if d = d₀ then room free' S - room free S else 0) := by
        rw [Finset.sum_add_distrib, Finset.sum_ite_eq' _ d₀, if_pos hmem, excess]
    _ ≤ excess free' free (S.toFinset ∪ D) := Finset.sum_le_sum hterm

/-- The greedy plans of two capacities: the jobs that the first has more are at most the excess
of its capacities, up to the factor of `Narrow`. -/
theorem size_greedy_le_add {w : ℕ} (hw : 1 ≤ w) (free' free : ρ → ℕ) {L : List (List ρ)}
    (hL : ∀ S ∈ L, S ≠ []) (hnarrow : Narrow w L) :
    size (greedy free' L) ≤ w * size (greedy free L) + excess free' free (resources L) := by
  induction L generalizing free' free with
  | nil => exact Nat.zero_le _
  | cons S L ih =>
    have hS := hL S (List.mem_cons_self ..)
    have htail := ih (place free' S (room free' S)) (place free S (room free S))
      (fun T hT => hL T (List.mem_cons_of_mem S hT)) hnarrow.2
    have hunion : resources (S :: L) = S.toFinset ∪ resources L := by
      simp [resources]
    simp only [greedy, size_cons, Nat.mul_add, hunion]
    rcases Nat.lt_or_ge (room free S) (room free' S) with hlt | hle
    · have hexcess := excess_place_of_lt (D := resources L) hS hlt
      have hone : room free S ≤ w * room free S := Nat.le_mul_of_pos_left _ hw
      omega
    · have hexcess := excess_place_of_le hS hnarrow.1 hle
      have hmono : excess free' free (resources L) ≤
          excess free' free (S.toFinset ∪ resources L) :=
        Finset.sum_le_sum_of_subset Finset.subset_union_right
      have hone : room free' S ≤ w * room free' S := Nat.le_mul_of_pos_left _ hw
      have hsplit : w * room free' S + w * (room free S - room free' S) = w * room free S := by
        rw [← Nat.mul_add, Nat.add_sub_cancel' hle]
      omega

/-- **With less capacity** the greedy plan has at most `w` times as many jobs, where an offer
shares at most `w` resources, beside any one, with later offers. -/
theorem size_greedy_le {w : ℕ} (hw : 1 ≤ w) {free' free : ρ → ℕ} (hle : ∀ d, free' d ≤ free d)
    {L : List (List ρ)} (hL : ∀ S ∈ L, S ≠ []) (hnarrow : Narrow w L) :
    size (greedy free' L) ≤ w * size (greedy free L) := by
  have hexcess : excess free' free (resources L) = 0 :=
    Finset.sum_eq_zero fun d _ => Nat.sub_eq_zero_of_le (hle d)
  have := size_greedy_le_add hw free' free hL hnarrow
  omega

/-- Offers of at most `m` resources are narrow. -/
theorem narrow_of_length {m : ℕ} {L : List (List ρ)} (h : ∀ S ∈ L, S.length ≤ m) :
    Narrow (m - 1) L := by
  induction L with
  | nil => trivial
  | cons S L ih =>
    refine ⟨fun d hd => ?_, ih fun T hT => h T (List.mem_cons_of_mem S hT)⟩
    have hsub : S.toFinset.erase d ∩ resources L ⊆ S.toFinset.erase d := Finset.inter_subset_left
    have hcard := Finset.card_le_card hsub
    rw [Finset.card_erase_of_mem (List.mem_toFinset.mpr hd)] at hcard
    have hlength := S.toFinset_card_le
    have := h S (List.mem_cons_self ..)
    omega

/-- Disjoint offers are narrow. -/
theorem narrow_of_disjoint {w : ℕ} {L : List (List ρ)} (h : L.Pairwise List.Disjoint) :
    Narrow w L := by
  induction L with
  | nil => trivial
  | cons S L ih =>
    obtain ⟨hhead, htail⟩ := List.pairwise_cons.mp h
    refine ⟨fun d _ => ?_, ih htail⟩
    have hempty : S.toFinset.erase d ∩ resources L = ∅ := by
      ext e
      simp only [Finset.mem_inter, Finset.mem_erase, List.mem_toFinset, mem_resources,
        Finset.notMem_empty, iff_false, not_and, not_exists]
      intro he T hT heT
      exact hhead T hT he.2 heT
    rw [hempty]
    exact Nat.zero_le w

/-- Narrowness is monotone in its bound. -/
theorem Narrow.mono {w w' : ℕ} (hle : w ≤ w') :
    ∀ {L : List (List ρ)}, Narrow w L → Narrow w' L
  | [], _ => trivial
  | _ :: _, h => ⟨fun d hd => (h.1 d hd).trans hle, h.2.mono hle⟩

end Packing
