import Mathlib.Algebra.Order.Group.Defs
import Mathlib.Algebra.Order.Monoid.Unbundled.MinMax
import Mathlib.Algebra.Order.BigOperators.Group.List
import Mathlib.Tactic.Abel

set_option relaxedAutoImplicit false
set_option autoImplicit false

/-!
# Waterfalls

An amount is poured over a list of tiers.  Every tier names an account and a target; it takes
what the account lacks to the target, as far as the amount reaches, and lets the rest fall to
the next tier.  Several tiers may fill the same account.

## Main definitions

* `Waterfall.Tier.share` — what a tier takes of an amount.
* `Waterfall.pour` — the balances after a pour, and what no tier took.
* `Waterfall.pourAll` — several amounts, each poured on the balances the previous one left.

## Main results

* `Waterfall.le_pour` — a pour never lowers a balance.
* `Waterfall.pour_add` — pouring a sum is pouring its parts one after the other.
* `Waterfall.pourAll_eq` — pouring a list is pouring its sum.
-/

namespace Waterfall

/-! ### Crediting -/

section Credit

variable {κ α : Type*} [DecidableEq κ] [AddCommGroup α]

/-- The balances with `x` more in one account. -/
def credit (b : κ → α) (k : κ) (x : α) : κ → α := Function.update b k (b k + x)

/-- The credited account has more. -/
@[simp] theorem credit_self (b : κ → α) (k : κ) (x : α) : credit b k x k = b k + x := by
  simp [credit]

/-- A credit leaves the other accounts alone. -/
theorem credit_of_ne (b : κ → α) {k j : κ} (x : α) (h : j ≠ k) : credit b k x j = b j := by
  simp [credit, h]

/-- A credit of nothing changes nothing. -/
@[simp] theorem credit_zero (b : κ → α) (k : κ) : credit b k 0 = b := by
  simp [credit]

/-- Two credits of one account are one. -/
theorem credit_credit (b : κ → α) (k : κ) (x y : α) :
    credit (credit b k x) k y = credit b k (x + y) := by
  simp [credit, add_assoc]

end Credit

/-! ### Tiers -/

/-- A tier fills an account up to a target. -/
structure Tier (κ α : Type*) where
  account : κ
  target : α

variable {κ α : Type*} [AddCommGroup α] [LinearOrder α]

/-- What a tier takes of the amount `q`: the gap of its account, as far as `q` reaches. -/
def Tier.share (t : Tier κ α) (b : κ → α) (q : α) : α := min q (max 0 (t.target - b t.account))

variable [DecidableEq κ]

/-- Pouring `q` over the tiers: the balances it leaves, and what no tier took. -/
def pour : List (Tier κ α) → (κ → α) → α → (κ → α) × α
  | [], b, q => (b, q)
  | t :: ts, b, q => pour ts (credit b t.account (t.share b q)) (q - t.share b q)

/-- Pouring the amounts of a list one after the other, with the sum of what no tier took. -/
def pourAll (ts : List (Tier κ α)) (b : κ → α) : List α → (κ → α) × α
  | [] => (b, 0)
  | q :: qs =>
    let first := pour ts b q
    let rest := pourAll ts first.1 qs
    (rest.1, first.2 + rest.2)

/-! ### One tier -/

section Tier

variable {κ α : Type*} [AddCommGroup α] [LinearOrder α]
variable {t : Tier κ α} {b : κ → α} {q : α}

/-- The share of a tier is nonnegative. -/
theorem Tier.share_nonneg (hq : 0 ≤ q) : 0 ≤ t.share b q := le_min hq (le_max_left _ _)

/-- A tier takes no more than there is. -/
theorem Tier.share_le : t.share b q ≤ q := min_le_left _ _

variable [IsOrderedAddMonoid α]

/-- A tier whose account has reached the target takes nothing. -/
theorem Tier.share_of_reached (h : t.target ≤ b t.account) (hq : 0 ≤ q) : t.share b q = 0 := by
  have hgap : t.target - b t.account ≤ 0 := sub_nonpos.mpr h
  rw [Tier.share, max_eq_left hgap, min_eq_right hq]

/-- A tier that leaves something to the next one has reached its target. -/
theorem Tier.reached_of_share_lt (h : t.share b q < q) : t.target ≤ b t.account + t.share b q := by
  have hgap : t.share b q = max 0 (t.target - b t.account) := by
    rcases min_choice q (max 0 (t.target - b t.account)) with hmin | hmin
    · exact absurd hmin (ne_of_lt h)
    · exact hmin
  rw [hgap]
  have hle := le_max_right 0 (t.target - b t.account)
  calc t.target = b t.account + (t.target - b t.account) := by abel
    _ ≤ b t.account + max 0 (t.target - b t.account) := by gcongr

/-- A tier never lifts its account above the target. -/
theorem Tier.le_target_of_share (h : 0 < t.share b q) : b t.account + t.share b q ≤ t.target := by
  have hpos : 0 < t.target - b t.account := by
    by_contra hneg
    have hmax : max 0 (t.target - b t.account) = 0 := max_eq_left (not_lt.mp hneg)
    have hle : t.share b q ≤ max 0 (t.target - b t.account) := min_le_right _ _
    rw [hmax] at hle
    exact absurd h (not_lt.mpr hle)
  have hle : t.share b q ≤ t.target - b t.account :=
    (min_le_right _ _).trans (max_le hpos.le le_rfl)
  calc b t.account + t.share b q ≤ b t.account + (t.target - b t.account) := by gcongr
    _ = t.target := by abel

end Tier

variable [IsOrderedAddMonoid α] {t : Tier κ α} {b : κ → α} {p q : α}

/-- A credit lowers no balance. -/
theorem le_credit (b : κ → α) (k j : κ) {x : α} (hx : 0 ≤ x) : b j ≤ credit b k x j := by
  by_cases h : j = k
  · subst h
    rw [credit_self]
    exact le_add_of_nonneg_right hx
  · rw [credit_of_ne b x h]

/-- A tier takes from a sum what it takes from the first part and then from the second. -/
theorem Tier.share_add (hp : 0 ≤ p) (hq : 0 ≤ q) :
    t.share b (p + q) =
      t.share b p + t.share (credit b t.account (t.share b p)) q := by
  by_cases h : t.share b p < p
  · -- The first part has filled the tier, so that both sides are its gap.
    have hreached := Tier.reached_of_share_lt h
    have hnext : t.share (credit b t.account (t.share b p)) q = 0 :=
      Tier.share_of_reached (by rwa [credit_self]) hq
    have hgap : max 0 (t.target - b t.account) < p := by
      rcases min_lt_iff.mp h with hlt | hlt
      · exact absurd hlt (lt_irrefl p)
      · exact hlt
    rw [hnext, add_zero, Tier.share, Tier.share, min_eq_right hgap.le,
      min_eq_right (hgap.le.trans (le_add_of_nonneg_right hq))]
  · -- The tier took the whole first part; what it still lacks is smaller by that part.
    have hall : t.share b p = p := le_antisymm Tier.share_le (not_lt.mp h)
    have hle : p ≤ max 0 (t.target - b t.account) := min_eq_left_iff.mp hall
    rw [hall, Tier.share, Tier.share, credit_self, ← min_add_add_left]
    congr 1
    by_cases hzero : t.target ≤ b t.account
    · have hmax : max 0 (t.target - b t.account) = 0 := max_eq_left (sub_nonpos.mpr hzero)
      have hp0 : p = 0 := le_antisymm (hmax ▸ hle) hp
      rw [hp0, add_zero, zero_add]
    · have hpos : 0 ≤ t.target - b t.account := sub_nonneg.mpr (not_le.mp hzero).le
      rw [max_eq_right hpos] at hle ⊢
      have hrest : 0 ≤ t.target - (b t.account + p) := by
        rw [← sub_sub]
        exact sub_nonneg.mpr hle
      rw [max_eq_right hrest]
      abel

/-! ### All tiers -/

variable {ts : List (Tier κ α)}

omit [IsOrderedAddMonoid α] in
/-- Pouring nothing changes nothing. -/
theorem pour_zero (ts : List (Tier κ α)) (b : κ → α) : pour ts b 0 = (b, 0) := by
  induction ts generalizing b with
  | nil => rfl
  | cons t ts ih =>
    have hshare : t.share b 0 = 0 := le_antisymm Tier.share_le (Tier.share_nonneg le_rfl)
    rw [pour, hshare, credit_zero, sub_zero, ih]

/-- A pour never lowers a balance. -/
theorem le_pour (hq : 0 ≤ q) (k : κ) : b k ≤ (pour ts b q).1 k := by
  induction ts generalizing b q with
  | nil => exact le_rfl
  | cons t ts ih =>
    have hrest : 0 ≤ q - t.share b q := sub_nonneg.mpr Tier.share_le
    exact (le_credit b t.account k (Tier.share_nonneg hq)).trans (ih hrest)

/-- Pouring a sum is pouring its first part and then its second on the balances that leaves. -/
theorem pour_add (hp : 0 ≤ p) (hq : 0 ≤ q) :
    pour ts b (p + q) =
      ((pour ts (pour ts b p).1 q).1, (pour ts b p).2 + (pour ts (pour ts b p).1 q).2) := by
  induction ts generalizing b p q with
  | nil => rfl
  | cons t ts ih =>
    have hsum := Tier.share_add (t := t) (b := b) hp hq
    set x := t.share b p with hx
    set y := t.share (credit b t.account x) q with hy
    have hxp : 0 ≤ p - x := sub_nonneg.mpr Tier.share_le
    have hyq : 0 ≤ q - y := sub_nonneg.mpr Tier.share_le
    by_cases h : x < p
    · -- The tier is full after the first part, and stays full below.
      have hfull := Tier.reached_of_share_lt (hx ▸ h)
      have hy0 : y = 0 := Tier.share_of_reached (by rwa [credit_self]) hq
      have hlater : t.target ≤ (pour ts (credit b t.account x) (p - x)).1 t.account :=
        hfull.trans (by simpa using le_pour (b := credit b t.account x) hxp t.account)
      have hz : t.share (pour ts (credit b t.account x) (p - x)).1 q = 0 :=
        Tier.share_of_reached hlater hq
      have hsplit : p + q - x = (p - x) + q := by abel
      simp only [pour, hsum, hy0, add_zero, hsplit, hz, credit_zero, sub_zero, ← hx]
      exact ih hxp hq
    · -- Nothing fell below the tier, so that the second part finds the lower tiers untouched.
      have hall : x = p := le_antisymm Tier.share_le (not_lt.mp h)
      have hrest : p + q - (x + y) = q - y := by
        rw [hall]
        abel
      have hnone : p - x = 0 := by rw [hall, sub_self]
      simp only [pour, hsum, hrest, ← hx, hnone, pour_zero, zero_add, ← credit_credit, ← hy]

/-- Pouring the amounts of a list one after the other is pouring their sum. -/
theorem pourAll_eq {qs : List α} (hqs : ∀ q ∈ qs, 0 ≤ q) :
    pourAll ts b qs = pour ts b qs.sum := by
  induction qs generalizing b with
  | nil => rw [pourAll, List.sum_nil, pour_zero]
  | cons q qs ih =>
    have hq : 0 ≤ q := hqs q (List.mem_cons_self ..)
    have hrest : ∀ x ∈ qs, 0 ≤ x := fun x hx => hqs x (List.mem_cons_of_mem _ hx)
    have hsum : 0 ≤ qs.sum := List.sum_nonneg hrest
    rw [List.sum_cons, pour_add hq hsum, pourAll, ih hrest]

end Waterfall
