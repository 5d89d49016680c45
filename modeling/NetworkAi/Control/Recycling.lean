import NetworkAi.Lib.Waterfall
import NetworkAi.Control.Cooperative

set_option relaxedAutoImplicit false
set_option autoImplicit false

/-!
# Recycling as a waterfall

`recycle` pours a charge over three tiers: the working balance up to the floor, the reserve
balance up to its target, and the working balance again up to its own target.  What no tier
takes is burned.

## Main definitions

* `NetworkAi.Fund`, `NetworkAi.tiers` — the two balances of a pool and the order they fill in.
* `NetworkAi.Recycled.Fills` — the priorities between the parts of a recycled charge.
* `NetworkAi.PoolFunds.settle` — the balances and the burn of a pool after one settlement.

## Main results

* `NetworkAi.recycle_fills` — every recycled charge keeps the priorities.
* `NetworkAi.recycle_split` — recycling a list of charges is recycling their sum.
-/

namespace NetworkAi

open Waterfall

/-! ### The tiers -/

/-- The balances of a pool that recycling fills. -/
inductive Fund
  | working
  | reserve
  deriving DecidableEq, Repr

/-- The tiers of `recycle`, in the order the source fills them. -/
def tiers (f wt rt : Int) : List (Tier Fund Int) :=
  [⟨.working, f⟩, ⟨.reserve, rt⟩, ⟨.working, wt⟩]

/-- The balances of a pool by fund. -/
def balances (w r : Int) : Fund → Int
  | .working => w
  | .reserve => r

variable {q w r f wt rt : Int}

/-- A credit of the working fund. -/
@[simp] theorem credit_working (x : Int) :
    credit (balances w r) .working x = balances (w + x) r := by
  funext k
  cases k <;> rfl

/-- A credit of the reserve. -/
@[simp] theorem credit_reserve (x : Int) :
    credit (balances w r) .reserve x = balances w (r + x) := by
  funext k
  cases k <;> rfl

/-- The gap below a target is what is missing to it. -/
theorem gap_eq (target balance : Int) : gap target balance = max 0 (target - balance) := by
  unfold gap
  split <;> omega

/-! ### The parts of a recycled charge -/

/-- The floor's part is the share of the first tier. -/
theorem floor_eq :
    (recycle q w r f wt rt).floor = (Tier.mk Fund.working f).share (balances w r) q := by
  show min q (gap f w) = _
  rw [gap_eq]
  rfl

/-- The reserve's part is the share of the second tier. -/
theorem reserve_eq :
    (recycle q w r f wt rt).reserve = (Tier.mk Fund.reserve rt).share
      (balances (w + (recycle q w r f wt rt).floor) r) (q - (recycle q w r f wt rt).floor) := by
  show min (q - (recycle q w r f wt rt).floor) (gap rt r) = _
  rw [gap_eq]
  rfl

/-- The working fund's part is the share of the third tier. -/
theorem working_eq :
    (recycle q w r f wt rt).working = (Tier.mk Fund.working wt).share
      (balances (w + (recycle q w r f wt rt).floor) (r + (recycle q w r f wt rt).reserve))
      (q - (recycle q w r f wt rt).floor - (recycle q w r f wt rt).reserve) := by
  show min (q - (recycle q w r f wt rt).floor - (recycle q w r f wt rt).reserve)
    (gap wt (w + (recycle q w r f wt rt).floor)) = _
  rw [gap_eq]
  rfl

/-- What is burned is what the other parts leave of the charge. -/
theorem recycle_sum :
    (recycle q w r f wt rt).floor + (recycle q w r f wt rt).reserve +
      (recycle q w r f wt rt).working + (recycle q w r f wt rt).burned = q := by
  have h : (recycle q w r f wt rt).burned = q - (recycle q w r f wt rt).floor -
      (recycle q w r f wt rt).reserve - (recycle q w r f wt rt).working := rfl
  omega

/-- The priorities of a recycled charge `q` on the balances `w` and `r`: every part waits until
the balances before it have reached their targets, and stops at its own. -/
structure Recycled.Fills (a : Recycled) (q w r f wt rt : Int) : Prop where
  floor_nonneg : 0 ≤ a.floor
  reserve_nonneg : 0 ≤ a.reserve
  working_nonneg : 0 ≤ a.working
  burned_nonneg : 0 ≤ a.burned
  sum : a.floor + a.reserve + a.working + a.burned = q
  reserve_after : 0 < a.reserve → f ≤ w + a.floor
  working_after : 0 < a.working → f ≤ w + a.floor ∧ rt ≤ r + a.reserve
  burned_after : 0 < a.burned → max f wt ≤ w + a.floor + a.working ∧ rt ≤ r + a.reserve
  floor_stops : 0 < a.floor → w + a.floor ≤ f
  reserve_stops : 0 < a.reserve → r + a.reserve ≤ rt
  working_stops : 0 < a.working → w + a.floor + a.working ≤ wt
  floor_reached : f ≤ w → a.floor = 0
  reserve_reached : rt ≤ r → a.reserve = 0
  working_reached : wt ≤ w + a.floor → a.working = 0

/-- The waterfall: the parts of a charge are not negative, sum to it, and keep the priorities.

**Proof sketch.** Each part is the share of a tier (`floor_eq`, `reserve_eq`, `working_eq`): what is
left of the charge, or the gap below the target, whichever is less. A share that is less than what
was left has reached its target, and one of a tier that was reached is zero. -/
theorem recycle_fills (hq : 0 ≤ q) : (recycle q w r f wt rt).Fills q w r f wt rt := by
  have hsum := @recycle_sum q w r f wt rt
  have hfloor := @floor_eq q w r f wt rt
  have hreserve := @reserve_eq q w r f wt rt
  have hworking := @working_eq q w r f wt rt
  generalize recycle q w r f wt rt = a at *
  have hf0 : 0 ≤ a.floor := hfloor ▸ Tier.share_nonneg hq
  have hfq : a.floor ≤ q := hfloor ▸ Tier.share_le
  have hr0 : 0 ≤ a.reserve := hreserve ▸ Tier.share_nonneg (by omega)
  have hrq : a.reserve ≤ q - a.floor := by
    rw [hreserve]
    exact Tier.share_le
  have hw0 : 0 ≤ a.working := hworking ▸ Tier.share_nonneg (by omega)
  have hwq : a.working ≤ q - a.floor - a.reserve := by
    rw [hworking]
    exact Tier.share_le
  -- A part that leaves something to the next one has lifted its balance to the target.
  have hfull : a.floor < q → f ≤ w + a.floor := by
    rw [hfloor]
    exact Tier.reached_of_share_lt
  have hrfull : a.reserve < q - a.floor → rt ≤ r + a.reserve := by
    intro h
    rw [hreserve] at h ⊢
    exact Tier.reached_of_share_lt h
  have hwfull : a.working < q - a.floor - a.reserve → wt ≤ w + a.floor + a.working := by
    intro h
    rw [hworking] at h ⊢
    exact Tier.reached_of_share_lt h
  refine
    { floor_nonneg := hf0, reserve_nonneg := hr0, working_nonneg := hw0
      burned_nonneg := by omega
      sum := hsum
      reserve_after := fun h => hfull (by omega)
      working_after := fun h => ⟨hfull (by omega), hrfull (by omega)⟩
      burned_after := fun h => ⟨?_, hrfull (by omega)⟩
      floor_stops := ?_, reserve_stops := ?_, working_stops := ?_
      floor_reached := ?_, reserve_reached := ?_, working_reached := ?_ }
  · have h1 := hfull (by omega)
    have h2 := hwfull (by omega)
    exact max_le (by omega) h2
  · rw [hfloor]
    exact Tier.le_target_of_share
  · intro h
    rw [hreserve] at h ⊢
    exact Tier.le_target_of_share h
  · intro h
    rw [hworking] at h ⊢
    exact Tier.le_target_of_share h
  · intro h
    rw [hfloor]
    exact Tier.share_of_reached h hq
  · intro h
    rw [hreserve]
    exact Tier.share_of_reached h (by omega)
  · intro h
    rw [hworking]
    exact Tier.share_of_reached h (by omega)

/-- A charge of 10 on the balances 2 and 0 fills the floor 5, the reserve target 4 and a part of
what the working target 8 leaves. -/
theorem recycle_fills_ten :
    recycle 10 2 0 5 8 4 = ⟨3, 4, 3, 0⟩ ∧ (recycle 10 2 0 5 8 4).Fills 10 2 0 5 8 4 :=
  ⟨by decide, recycle_fills (by decide)⟩

/-! ### Settlements one after another -/

/-- The balances of a pool, and what its settlements have burned. -/
structure PoolFunds where
  working : Int
  reserve : Int
  burned : Int
  deriving DecidableEq, Repr

/-- A settlement recycles its charge on the balances it finds. -/
def PoolFunds.settle (f wt rt : Int) (p : PoolFunds) (q : Int) : PoolFunds :=
  let a := recycle q p.working p.reserve f wt rt
  { working := p.working + a.floor + a.working
    reserve := p.reserve + a.reserve
    burned := p.burned + a.burned }

/-- `recycle` pours the charge over the tiers. -/
theorem pour_recycle :
    pour (tiers f wt rt) (balances w r) q =
      (balances (w + (recycle q w r f wt rt).floor + (recycle q w r f wt rt).working)
        (r + (recycle q w r f wt rt).reserve), (recycle q w r f wt rt).burned) := by
  have hfloor := @floor_eq q w r f wt rt
  have hreserve := @reserve_eq q w r f wt rt
  have hworking := @working_eq q w r f wt rt
  have hsum := @recycle_sum q w r f wt rt
  generalize recycle q w r f wt rt = a at *
  simp only [tiers, pour, ← hfloor, credit_working, ← hreserve, credit_reserve, ← hworking]
  congr 1
  omega

/-- The settlements of a list of charges pour them one after another. -/
theorem settle_all (f wt rt : Int) (p : PoolFunds) (charges : List Int) :
    charges.foldl (PoolFunds.settle f wt rt) p =
      let s := pourAll (tiers f wt rt) (balances p.working p.reserve) charges
      ⟨s.1 .working, s.1 .reserve, p.burned + s.2⟩ := by
  induction charges generalizing p with
  | nil => simp [pourAll, balances]
  | cons q charges ih =>
    rw [List.foldl_cons, ih]
    simp only [pourAll, pour_recycle, PoolFunds.settle, add_assoc]

/-- One settlement pours its charge. -/
theorem settle_eq (f wt rt : Int) (p : PoolFunds) (q : Int) :
    p.settle f wt rt q =
      let s := pour (tiers f wt rt) (balances p.working p.reserve) q
      ⟨s.1 .working, s.1 .reserve, p.burned + s.2⟩ := by
  rw [pour_recycle]
  rfl

/-- Recycling a list of charges, each on the balances the previous one left, is recycling their
sum, so that neither their order nor the division of the sum into charges matters.

**Proof sketch.** A settlement pours its charge into the tiers (`settle_eq`), and pouring charges
one after the other is pouring their sum (`pourAll_eq`). Two lists with one sum are then poured
alike. -/
theorem recycle_split (f wt rt : Int) (p : PoolFunds) (charges : List Int)
    (h : ∀ q ∈ charges, 0 ≤ q) :
    charges.foldl (PoolFunds.settle f wt rt) p = p.settle f wt rt charges.sum ∧
      ∀ charges' : List Int, (∀ q ∈ charges', 0 ≤ q) → charges'.sum = charges.sum →
        charges'.foldl (PoolFunds.settle f wt rt) p =
          charges.foldl (PoolFunds.settle f wt rt) p := by
  have hone : ∀ l : List Int, (∀ q ∈ l, 0 ≤ q) →
      l.foldl (PoolFunds.settle f wt rt) p = p.settle f wt rt l.sum := by
    intro l hl
    rw [settle_all, settle_eq, pourAll_eq hl]
  refine ⟨hone charges h, fun charges' h' hsum => ?_⟩
  rw [hone charges' h', hone charges h, hsum]

/-- Charges of 4, 1 and 5 leave a pool as one charge of 10 does. -/
theorem recycle_split_three :
    [4, 1, 5].foldl (PoolFunds.settle 5 8 4) ⟨2, 0, 7⟩ = ⟨8, 4, 7⟩ ∧
      [4, 1, 5].foldl (PoolFunds.settle 5 8 4) ⟨2, 0, 7⟩ =
        PoolFunds.settle 5 8 4 ⟨2, 0, 7⟩ [4, 1, 5].sum :=
  ⟨by decide, (recycle_split 5 8 4 ⟨2, 0, 7⟩ [4, 1, 5] (by decide)).1⟩

end NetworkAi
