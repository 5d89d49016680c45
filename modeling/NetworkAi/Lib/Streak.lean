import Mathlib.Data.List.Chain
import Mathlib.Order.Defs.LinearOrder
import Mathlib.Tactic.Common

set_option relaxedAutoImplicit false
set_option autoImplicit false

/-!
# Streaks of samples

A monitor samples a system from time to time and keeps two instants only: since when the system has
been well, and when it was last sampled. A streak goes on while the samples are good and follow one
another closely; a bad sample or a change ends it. The instant that the monitor keeps is the start
of an actual chain of samples.

## Main definitions

* `Streak.Sample`, `Streak.Event` — what happens to the monitor, with the readings of its clock.
* `Streak.Monitor.step`, `Streak.observe` — what the monitor keeps.
* `Streak.Unbroken` — samples that follow one another closely.
* `Streak.Breaks` — an event that a streak does not survive.

## Main results

* `Streak.observe_goods` — an unbroken chain of good samples is a streak.
* `Streak.Monitor.resume_sustained` — the streak at a sample is an unbroken chain of good samples.
* `Streak.Monitor.resume_fresh` — it starts after everything that breaks a streak.
-/

namespace Streak

/-- The readings of a clock by one sample: when it compares itself with the last one, when a streak
that it starts begins, and when it is recorded. -/
structure Sample where
  seen : Int
  start : Int
  written : Int
  deriving DecidableEq, Repr

/-- What happens to a monitor: a sample, good or bad, or a change of what it watches. -/
inductive Event where
  | sample (s : Sample) (good : Bool)
  | change (time : Int)
  deriving DecidableEq, Repr

/-- The time of an event. -/
def Event.time : Event → Int
  | .sample s _ => s.start
  | .change t => t

/-- What a monitor keeps: since when all has been well, and when it last sampled. -/
structure Monitor where
  since : Option Int
  last : Option Int
  deriving DecidableEq, Repr

/-- Since when all has been well, at a sample. -/
def Monitor.resume (gap : Int) (m : Monitor) (s : Sample) (good : Bool) : Option Int :=
  if good then
    if m.since.isSome ∧ s.seen - m.last.getD 0 ≤ gap then m.since else some s.start
  else none

/-- What the monitor keeps after an event. -/
def Monitor.step (gap : Int) (m : Monitor) : Event → Monitor
  | .sample s good => ⟨m.resume gap s good, some s.written⟩
  | .change _ => { m with since := none }

/-- What the monitor keeps after some events. -/
def observe (gap : Int) (es : List Event) : Monitor := es.foldl (Monitor.step gap) ⟨none, none⟩

/-- What a monitor keeps after one more event. -/
theorem observe_concat (gap : Int) (es : List Event) (e : Event) :
    observe gap (es ++ [e]) = (observe gap es).step gap e := by
  simp [observe]

/-- Every sample is at most `gap` after the one before it. -/
def Unbroken (gap : Int) (chain : List Sample) : Prop :=
  chain.IsChain fun a b => b.seen - a.written ≤ gap

/-- Good samples, as events. -/
def goods (chain : List Sample) : List Event := chain.map (.sample · true)

/-- A monitor records its last sample. -/
theorem observe_last (gap : Int) (before : List Event) {chain : List Sample} {a : Sample}
    (ha : chain.getLast? = some a) : (observe gap (before ++ goods chain)).last = some a.written := by
  obtain ⟨init, rfl⟩ := List.getLast?_eq_some_iff.1 ha
  rw [goods, List.map_append, ← List.append_assoc]
  exact congrArg Monitor.last (observe_concat gap _ (.sample a true))

/-- A chain goes on with a sample that follows its last one closely. -/
theorem unbroken_concat {gap : Int} {chain : List Sample} {s : Sample} :
    Unbroken gap (chain ++ [s]) ↔
      Unbroken gap chain ∧ ∀ a, chain.getLast? = some a → s.seen - a.written ≤ gap := by
  unfold Unbroken
  rw [List.isChain_append]
  simp

/-- **What the monitor keeps is the start of a chain**: the last events are good samples that
follow one another closely, and the first of them started at the instant that the monitor keeps. -/
theorem observe_since {gap : Int} {es : List Event} {t : Int}
    (h : (observe gap es).since = some t) : ∃ before first chain,
      es = before ++ goods (first :: chain) ∧ Unbroken gap (first :: chain) ∧ first.start = t := by
  induction es using List.reverseRecOn generalizing t with
  | nil => cases h
  | append_singleton es e ih =>
    rw [observe_concat] at h
    cases e with
    | change time => cases h
    | sample s good =>
      simp only [Monitor.step, Monitor.resume] at h
      split at h
      · rename_i hgood
        subst hgood
        split at h
        · -- the streak goes on
          rename_i hon
          obtain ⟨before, first, chain, rfl, hchain, hstart⟩ := ih h
          refine ⟨before, first, chain ++ [s], ?_, ?_, hstart⟩
          · rw [List.append_assoc, ← List.cons_append, goods, goods, List.map_append]
            rfl
          · rw [← List.cons_append, unbroken_concat]
            refine ⟨hchain, fun a ha => ?_⟩
            have hgap := hon.2
            rwa [observe_last gap before ha] at hgap
        · -- it starts anew
          simp only [Option.some.injEq] at h
          exact ⟨es, s, [], rfl, List.isChain_singleton s, h⟩
      · cases h

/-- A good sample that follows closely goes on with the streak. -/
theorem Monitor.resume_on {gap : Int} {m : Monitor} {s : Sample} {t w : Int}
    (hsince : m.since = some t) (hlast : m.last = some w) (hclose : s.seen - w ≤ gap) :
    m.resume gap s true = some t := by
  rw [resume, if_pos rfl, hsince, hlast, if_pos ⟨rfl, hclose⟩]

/-- **An unbroken chain of good samples is a streak**: the monitor keeps the start of its first
sample, if there was no streak before. -/
theorem observe_goods {gap : Int} {before : List Event} {first : Sample} {chain : List Sample}
    (hnone : (observe gap before).since = none) (h : Unbroken gap (first :: chain)) :
    (observe gap (before ++ goods (first :: chain))).since = some first.start := by
  induction chain using List.reverseRecOn with
  | nil =>
    show (observe gap (before ++ [.sample first true])).since = _
    rw [observe_concat, Monitor.step, Monitor.resume, if_pos rfl, hnone, if_neg (by simp)]
  | append_singleton chain s ih =>
    rw [← List.cons_append, unbroken_concat] at h
    obtain ⟨hchain, hclose⟩ := h
    obtain ⟨a, ha⟩ := Option.isSome_iff_exists.1
      (List.getLast?_isSome.2 (List.cons_ne_nil first chain))
    rw [← List.cons_append, goods, List.map_append, ← List.append_assoc]
    show (observe gap (before ++ goods (first :: chain) ++ [.sample s true])).since = _
    rw [observe_concat]
    exact Monitor.resume_on (ih hchain) (observe_last gap before ha) (hclose a ha)

/-- The next good sample goes on with that streak. -/
theorem resume_goods {gap : Int} {before : List Event} {first s : Sample} {chain : List Sample}
    (hnone : (observe gap before).since = none) (h : Unbroken gap (first :: chain ++ [s])) :
    (observe gap (before ++ goods (first :: chain))).resume gap s true = some first.start := by
  obtain ⟨hchain, hclose⟩ := unbroken_concat.1 h
  obtain ⟨a, ha⟩ := Option.isSome_iff_exists.1
    (List.getLast?_isSome.2 (List.cons_ne_nil first chain))
  exact Monitor.resume_on (observe_goods hnone hchain) (observe_last gap before ha) (hclose a ha)

/-- **The streak at a sample** is an unbroken chain of good samples that ends with it. -/
theorem Monitor.resume_sustained {gap : Int} {es : List Event} {s : Sample} {good : Bool} {t : Int}
    (h : (observe gap es).resume gap s good = some t) :
    good = true ∧ ∃ before chain, es = before ++ goods chain ∧ Unbroken gap (chain ++ [s]) ∧
      (chain ++ [s]).head?.map (·.start) = some t := by
  unfold Monitor.resume at h
  split at h
  · rename_i hgood
    refine ⟨hgood, ?_⟩
    split at h
    · rename_i hon
      obtain ⟨before, first, chain, rfl, hchain, hstart⟩ := observe_since h
      refine ⟨before, first :: chain, rfl, unbroken_concat.2 ⟨hchain, fun a ha => ?_⟩,
        congrArg some hstart⟩
      have hgap := hon.2
      rwa [observe_last gap before ha] at hgap
    · exact ⟨es, [], (List.append_nil es).symm, List.isChain_singleton s, h⟩
  · cases h

/-- An event that a streak does not survive: a change, a bad sample, or a sample long after the
one before it. -/
inductive Breaks (gap : Int) (before : List Event) : Event → Prop
  | change (t : Int) : Breaks gap before (.change t)
  | bad (s : Sample) : Breaks gap before (.sample s false)
  | late {s : Sample} {good : Bool} {w : Int} (hlast : (observe gap before).last = some w)
      (hgap : gap < s.seen - w) : Breaks gap before (.sample s good)

/-- What breaks a streak comes before its chain, or is its first sample. -/
theorem Breaks.before {gap : Int} {pre post before : List Event} {chain : List Sample} {e : Event}
    (he : Breaks gap pre e) (hes : before ++ goods chain = pre ++ e :: post)
    (hchain : Unbroken gap chain) :
    e ∈ before ∨ ∃ first ∈ chain.head?, e = .sample first true := by
  rcases List.append_eq_append_iff.1 hes with ⟨mid, hpre, hgoods⟩ | ⟨mid, hbefore, hpost⟩
  · -- the event is one of the chain
    obtain ⟨left, right, rfl, hleft, hright⟩ := List.map_eq_append_iff.1 hgoods
    obtain ⟨s, rest, rfl, rfl, -⟩ := List.map_eq_cons_iff.1 hright
    cases hlast : left.getLast? with
    | none =>
      rw [List.getLast?_eq_none_iff.1 hlast]
      exact .inr ⟨s, rfl, rfl⟩
    | some a =>
      -- and then it follows the one before it closely
      have hclose : s.seen - a.written ≤ gap := by
        have happ : Unbroken gap ((left ++ [s]) ++ rest) := by simpa using hchain
        exact (unbroken_concat.1 (List.isChain_append.1 happ).1).2 a hlast
      have hrecorded : (observe gap pre).last = some a.written := by
        rw [hpre, ← hleft]
        exact observe_last gap before hlast
      cases he with
      | late hw hgap =>
        rw [hrecorded, Option.some.injEq] at hw
        omega
  · cases mid with
    | nil =>
      -- the event is the first of the chain
      obtain ⟨s, rest, rfl, rfl, -⟩ := List.map_eq_cons_iff.1 hpost.symm
      exact .inr ⟨s, rfl, rfl⟩
    | cons e' mid =>
      simp only [List.cons_append, List.cons.injEq] at hpost
      rw [hbefore, hpost.1]
      exact .inl (by simp)

/-- **A streak is fresh**: along a clock that does not go back, it starts no earlier than anything
that breaks a streak. -/
theorem Monitor.resume_fresh {gap : Int} {pre post : List Event} {e : Event} {s : Sample}
    {good : Bool} {t : Int}
    (h : (observe gap (pre ++ e :: post)).resume gap s good = some t)
    (hclock : ((pre ++ e :: post) ++ [Event.sample s good]).Pairwise fun a b => a.time ≤ b.time)
    (he : Breaks gap pre e) : e.time ≤ t := by
  obtain ⟨-, before, chain, hes, hchain, hstart⟩ := Monitor.resume_sustained h
  rw [List.pairwise_append] at hclock
  obtain ⟨hpast, -, hnow⟩ := hclock
  cases chain with
  | nil =>
    simp only [List.nil_append, List.head?_cons, Option.map_some, Option.some.injEq] at hstart
    have hle := hnow e (by simp) (.sample s good) (by simp)
    exact hstart ▸ hle
  | cons first chain =>
    simp only [List.cons_append, List.head?_cons, Option.map_some, Option.some.injEq] at hstart
    have hlong : Unbroken gap (first :: chain) := (unbroken_concat.1 hchain).1
    rcases he.before hes.symm hlong with hbefore | ⟨first', hfirst, rfl⟩
    · rw [hes, List.pairwise_append] at hpast
      have hle := hpast.2.2 e hbefore (.sample first true) (by simp [goods])
      exact hstart ▸ hle
    · simp only [List.head?_cons, Option.mem_def, Option.some.injEq] at hfirst
      exact Int.le_of_eq (hfirst ▸ hstart)

end Streak
