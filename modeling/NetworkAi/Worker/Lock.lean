import NetworkAi.Lib.Machine
import NetworkAi.Lib.Roster

set_option relaxedAutoImplicit false
set_option autoImplicit false

/-!
# The lock of the contributor's worker

`startWorker` creates the file `worker.lock` exclusively. Where the file exists, it reads the process
in it, and takes a lock over whose process is dead: it removes the file and creates it anew. These
are separate steps, between which another call may do the same.

## Main definitions

* `NetworkAi.Worker.Workers` — the lock file and all calls of `startWorker`.
* `NetworkAi.Worker.Event`, `NetworkAi.Worker.Workers.step` — the steps at the file system, the end
  of processes, and the stop of a worker.
* `NetworkAi.Worker.Workers.Exclusive`, `NetworkAi.Worker.Event.Steals` — what the lock is for.
* `NetworkAi.Worker.Event.Keeps` — a takeover removes the file that it has read.

## Main results

* `NetworkAi.Worker.Sound.step` — what a step that keeps to this preserves.
* `NetworkAi.Worker.worker_exclusion` — without other removals at most one worker holds the lock.

## Implementation notes

A file is known by its inode, a number that is never used again, so that a write through a handle
does not reach a file that has taken its place. What cannot be parsed as a lock with a positive
process number has none; a file is empty until its content is written. A process may end at any time.
-/

namespace NetworkAi.Worker

open Roster

/-! ### The state -/

/-- A lock file, with the process in its content. -/
structure LockFile where
  inode : Nat
  pid : Option Nat
  deriving DecidableEq, Repr

/-- Where a call of `startWorker` is: it opens the lock, reads the file that is there, checks the
process in it, removes it, opens the lock again, has created it, runs its worker, has ended, or its
process has. -/
inductive Phase where
  | opening
  | reading
  | checking (file : LockFile)
  | unlinking (seen : Nat)
  | reopening
  | created (inode : Nat)
  | running (inode : Nat)
  | ended
  | gone
  deriving DecidableEq, Repr

/-- The file of a call that has passed the lock and has not released it. -/
def Phase.holds : Phase → Option Nat
  | .created inode | .running inode => some inode
  | _ => none

/-- A call, in its process. -/
structure Call where
  pid : Nat
  phase : Phase
  deriving DecidableEq, Repr

/-- The lock file, the number of the next file, the calls, and which other processes are alive. -/
structure Workers where
  lock : Option LockFile
  next : Nat
  calls : List Call
  outside : Nat → Bool

/-- `alive`. -/
def Workers.alive (s : Workers) (pid : Nat) : Bool :=
  s.outside pid || s.calls.any fun c => decide (c.pid = pid ∧ c.phase ≠ .gone)

/-! ### The steps -/

/-- A step of a call. -/
def Workers.on (s : Workers) (i : Nat) (p : Phase → Bool) (f : Call → Workers) : Workers :=
  act s.calls i (fun c => p c.phase) f s

/-- A call goes to another phase. -/
def Workers.goto (s : Workers) (i : Nat) (c : Call) (phase : Phase) : Workers :=
  { s with calls := s.calls.set i { c with phase } }

/-- `open(lock, "wx")`: a new file, or `EEXIST`, which leads to `other`. -/
def Workers.create (s : Workers) (i : Nat) (c : Call) (other : Phase) : Workers :=
  match s.lock with
  | none => { s.goto i c (.created s.next) with lock := some ⟨s.next, none⟩, next := s.next + 1 }
  | some _ => s.goto i c other

/-- `readFile(lock)`; a file that is gone ends the call. -/
def Workers.read (s : Workers) (i : Nat) (c : Call) : Workers :=
  match s.lock with
  | some file => s.goto i c (.checking file)
  | none => s.goto i c .ended

/-- The content is parsed and its process checked. -/
def Workers.check (s : Workers) (i : Nat) (c : Call) (file : LockFile) : Workers :=
  match file.pid with
  | some pid => if s.alive pid then s.goto i c .ended else s.goto i c (.unlinking file.inode)
  | none => s.goto i c .ended

/-- `unlink(lock)` of a takeover. -/
def Workers.unlink (s : Workers) (i : Nat) (c : Call) : Workers :=
  match s.lock with
  | some _ => { s.goto i c .reopening with lock := none }
  | none => s.goto i c .ended

/-- `handle.writeFile`, into the file that the call has created. -/
def Workers.write (s : Workers) (i : Nat) (c : Call) (inode : Nat) : Workers :=
  { s.goto i c (.running inode) with
    lock := s.lock.map fun file =>
      if file.inode = inode then { file with pid := some c.pid } else file }

/-- `unlink(lock)` of `stop`. -/
def Workers.release (s : Workers) (i : Nat) (c : Call) : Workers :=
  { s.goto i c .ended with lock := none }

/-- The steps of the calls, the start and the end of processes. -/
inductive Event where
  | launch (pid : Nat)
  | openLock (i : Nat)
  | readLock (i : Nat)
  | checkPid (i : Nat)
  | unlinkLock (i : Nat)
  | reopenLock (i : Nat)
  | writeLock (i : Nat)
  | stop (i : Nat)
  | exit (pid : Nat)
  | outside (pid : Nat) (alive : Bool)
  deriving DecidableEq, Repr

/-- One step; a step that is not possible changes nothing. -/
def Workers.step : Event → Workers → Workers
  | .launch pid, s => { s with calls := s.calls ++ [⟨pid, .opening⟩] }
  | .openLock i, s => s.on i (· = .opening) fun c => s.create i c .reading
  | .readLock i, s => s.on i (· = .reading) fun c => s.read i c
  | .checkPid i, s => s.on i (fun _ => true) fun c =>
      match c.phase with
      | .checking file => s.check i c file
      | _ => s
  | .unlinkLock i, s => s.on i (fun _ => true) fun c =>
      match c.phase with
      | .unlinking _ => s.unlink i c
      | _ => s
  | .reopenLock i, s => s.on i (· = .reopening) fun c => s.create i c .ended
  | .writeLock i, s => s.on i (fun _ => true) fun c =>
      match c.phase with
      | .created inode => s.write i c inode
      | _ => s
  | .stop i, s => s.on i (fun _ => true) fun c =>
      match c.phase with
      | .running _ => s.release i c
      | _ => s
  | .exit pid, s =>
    { s with calls := s.calls.map fun c => if c.pid = pid then { c with phase := .gone } else c }
  | .outside pid alive, s =>
    { s with outside := fun n => if n = pid then alive else s.outside n }

/-- The start: no call has been made, and the lock is absent or whatever an earlier process left; or
one worker runs and holds it. -/
inductive Workers.Initial (s : Workers) : Prop
  | idle (h : s.calls = []) (hnext : ∀ file, s.lock = some file → file.inode < s.next)
  | held {pid inode : Nat} (h : s.calls = [⟨pid, .running inode⟩])
      (hlock : s.lock = some ⟨inode, some pid⟩) (hnext : inode < s.next)

/-- The runs of the calls. -/
def workerSystem : Machine.System Workers Event where
  init := Workers.Initial
  step := Workers.step

/-! ### What the lock is for -/

/-- At most one call has passed the lock and has not released it. -/
def Workers.Exclusive (s : Workers) : Prop :=
  ∀ (i j : Nat) (c d : Call), s.calls[i]? = some c → s.calls[j]? = some d →
    c.phase.holds ≠ none → d.phase.holds ≠ none → i = j

/-- A step removes the lock file of another call, whose process is alive. -/
def Event.Steals (s : Workers) : Event → Prop
  | .unlinkLock i => ∃ (c d : Call) (j seen : Nat) (file : LockFile), s.calls[i]? = some c ∧
      c.phase = .unlinking seen ∧ s.lock = some file ∧ j ≠ i ∧ s.calls[j]? = some d ∧
      d.phase.holds = some file.inode
  | .stop i => ∃ (c d : Call) (j inode : Nat) (file : LockFile), s.calls[i]? = some c ∧
      c.phase = .running inode ∧ s.lock = some file ∧ j ≠ i ∧ s.calls[j]? = some d ∧
      d.phase.holds = some file.inode
  | _ => False

/-- A takeover removes the file that it has read, if there is one. -/
def Event.Keeps (s : Workers) : Event → Prop
  | .unlinkLock i => ∀ (c : Call) (seen : Nat), s.calls[i]? = some c →
      c.phase = .unlinking seen → ∀ file, s.lock = some file → file.inode = seen
  | _ => True

/-- All steps of a run keep to that. -/
def KeepsAlong : Workers → List Event → Prop
  | _, [] => True
  | s, ev :: evs => ev.Keeps s ∧ KeepsAlong (s.step ev) evs

/-! ### The invariant -/

/-- The file of every holder is in place, and of no other; its content is the process of the holder
once it is written; what a call has read is still so; and a file that is to be removed has no
holder. -/
structure Sound (s : Workers) : Prop where
  owned : ∀ c ∈ s.calls, ∀ n, c.phase.holds = some n → ∃ file, s.lock = some file ∧ file.inode = n
  single : ∀ (i j : Nat) (c d : Call) (n : Nat), s.calls[i]? = some c → s.calls[j]? = some d →
    c.phase.holds = some n → d.phase.holds = some n → i = j
  fresh : ∀ file, s.lock = some file → file.inode < s.next
  empty : ∀ c ∈ s.calls, ∀ file, s.lock = some file → c.phase = .created file.inode →
    file.pid = none
  signed : ∀ c ∈ s.calls, ∀ file, s.lock = some file → c.phase = .running file.inode →
    file.pid = some c.pid
  seen : ∀ c ∈ s.calls, ∀ f, c.phase = .checking f → f.inode < s.next ∧
    ∀ pid, f.pid = some pid → ∀ file, s.lock = some file → file.inode = f.inode →
      file.pid = some pid
  stale : ∀ c ∈ s.calls, ∀ n, c.phase = .unlinking n → n < s.next ∧
    ∀ d ∈ s.calls, d.phase.holds ≠ some n

variable {s : Workers} {i : Nat} {c : Call}

/-- A holder of the file in place is the only one. -/
theorem Sound.exclusive (h : Sound s) : s.Exclusive := by
  intro i j c d hi hj hc hd
  obtain ⟨n, hn⟩ := Option.ne_none_iff_exists'.1 hc
  obtain ⟨m, hm⟩ := Option.ne_none_iff_exists'.1 hd
  obtain ⟨file, hlock, rfl⟩ := h.owned c (mem_of_at hi) n hn
  obtain ⟨file', hlock', rfl⟩ := h.owned d (mem_of_at hj) m hm
  rw [hlock] at hlock'
  obtain rfl := Option.some.inj hlock'
  exact h.single i j c d _ hi hj hn hm

/-- Without a lock file nobody holds it. -/
theorem Sound.free (h : Sound s) (hlock : s.lock = none) : ∀ c ∈ s.calls, c.phase.holds = none := by
  intro c hc
  by_contra hholds
  obtain ⟨n, hn⟩ := Option.ne_none_iff_exists'.1 hholds
  obtain ⟨file, hfile, -⟩ := h.owned c hc n hn
  rw [hlock] at hfile
  cases hfile

/-- A call that holds nothing goes to a phase in which it holds nothing.

**Proof sketch.** One field of the invariant at a time, by whether the call is the one that moves.
It holds nothing before or after, so that the holders are the same; what it reads is the lock in
place, and what it is to remove has no holder, by the hypotheses. -/
theorem Sound.goto {phase : Phase} (h : Sound s) (hi : s.calls[i]? = some c)
    (hphase : phase.holds = none)
    (hseen : ∀ f, phase = .checking f → s.lock = some f)
    (hstale : ∀ n, phase = .unlinking n → n < s.next ∧ ∀ d ∈ s.calls, d.phase.holds ≠ some n) :
    Sound (s.goto i c phase) where
  owned := by
    intro x hx n hn
    rcases mem_set hx with rfl | hx
    · rw [show ({ c with phase } : Call).phase.holds = phase.holds from rfl, hphase] at hn
      cases hn
    · exact h.owned x hx n hn
  single := by
    intro j k x y n hj hk hx hy
    rcases at_set hi hj with ⟨rfl, rfl⟩ | ⟨-, hjx⟩
    · rw [show ({ c with phase } : Call).phase.holds = phase.holds from rfl, hphase] at hx
      cases hx
    · rcases at_set hi hk with ⟨rfl, rfl⟩ | ⟨-, hky⟩
      · rw [show ({ c with phase } : Call).phase.holds = phase.holds from rfl, hphase] at hy
        cases hy
      · exact h.single j k x y n hjx hky hx hy
  fresh := h.fresh
  empty := by
    intro x hx file hlock hcreated
    rcases mem_set hx with rfl | hx
    · have hsome : phase = .created file.inode := hcreated
      rw [hsome] at hphase
      cases hphase
    · exact h.empty x hx file hlock hcreated
  signed := by
    intro x hx file hlock hrunning
    rcases mem_set hx with rfl | hx
    · have hsome : phase = .running file.inode := hrunning
      rw [hsome] at hphase
      cases hphase
    · exact h.signed x hx file hlock hrunning
  seen := by
    intro x hx f hf
    rcases mem_set hx with rfl | hx
    · have hlock := hseen f hf
      refine ⟨h.fresh f hlock, fun pid hpid file hfile _ => ?_⟩
      have hfile' : s.lock = some file := hfile
      rw [hlock] at hfile'
      obtain rfl := Option.some.inj hfile'
      exact hpid
    · exact h.seen x hx f hf
  stale := by
    intro x hx n hn
    have hnone : ∀ m, (∀ d ∈ s.calls, d.phase.holds ≠ some m) →
        ∀ d ∈ (s.goto i c phase).calls, d.phase.holds ≠ some m := by
      intro m hall d hd
      rcases mem_set hd with rfl | hd
      · rw [show ({ c with phase } : Call).phase.holds = phase.holds from rfl, hphase]
        exact fun hm => by cases hm
      · exact hall d hd
    rcases mem_set hx with rfl | hx
    · obtain ⟨hlt, hall⟩ := hstale n hn
      exact ⟨hlt, hnone n hall⟩
    · obtain ⟨hlt, hall⟩ := h.stale x hx n hn
      exact ⟨hlt, hnone n hall⟩

/-- An exclusive creation, when there is no file: nobody holds the lock, and the file is new.

**Proof sketch.** Without a lock file nobody holds it, so the creator is the only holder. Its file
is new, and is none that a call has read or is to remove. -/
theorem Sound.created (h : Sound s) (hi : s.calls[i]? = some c) (hlock : s.lock = none) :
    Sound { s.goto i c (.created s.next) with
      lock := some ⟨s.next, none⟩, next := s.next + 1 } where
  owned := by
    intro x hx n hn
    rcases mem_set hx with rfl | hx
    · exact ⟨_, rfl, Option.some.inj hn⟩
    · rw [h.free hlock x hx] at hn
      cases hn
  single := by
    intro j k x y n hj hk hx hy
    rcases at_set hi hj with ⟨rfl, rfl⟩ | ⟨-, hjx⟩
    · rcases at_set hi hk with ⟨rfl, rfl⟩ | ⟨-, hky⟩
      · rfl
      · rw [h.free hlock y (mem_of_at hky)] at hy
        cases hy
    · rw [h.free hlock x (mem_of_at hjx)] at hx
      cases hx
  fresh := by
    intro file hfile
    obtain rfl := Option.some.inj hfile
    exact Nat.lt_succ_self _
  empty := by
    intro x hx file hfile _
    obtain rfl := Option.some.inj hfile
    rfl
  signed := by
    intro x hx file hfile hrunning
    rcases mem_set hx with rfl | hx
    · cases hrunning
    · have hnone := h.free hlock x hx
      rw [hrunning] at hnone
      cases hnone
  seen := by
    intro x hx f hf
    rcases mem_set hx with rfl | hx
    · cases hf
    · have hlt := (h.seen x hx f hf).1
      refine ⟨Nat.lt_succ_of_lt hlt, fun pid hpid file hfile hsame => ?_⟩
      obtain rfl := Option.some.inj hfile
      exact absurd (show s.next = f.inode from hsame) (Nat.ne_of_gt hlt)
  stale := by
    intro x hx n hn
    rcases mem_set hx with rfl | hx
    · cases hn
    · obtain ⟨hlt, hall⟩ := h.stale x hx n hn
      refine ⟨Nat.lt_succ_of_lt hlt, fun d hd hholds => ?_⟩
      rcases mem_set hd with rfl | hd
      · exact absurd (Option.some.inj hholds) (Nat.ne_of_gt hlt)
      · exact hall d hd hholds

/-- Creating a lock file where there is none keeps a state sound. -/
theorem Sound.create {other : Phase} (h : Sound s) (hi : s.calls[i]? = some c)
    (hother : other = .reading ∨ other = .ended) : Sound (s.create i c other) := by
  unfold Workers.create
  split
  · next hlock => exact h.created hi hlock
  · refine h.goto hi ?_ ?_ ?_ <;> rcases hother with rfl | rfl
    · rfl
    · rfl
    all_goals intro n hn; cases hn

/-- What a call has read and found dead has no holder. -/
theorem Sound.dead {file : LockFile} {pid : Nat} (h : Sound s) (hi : s.calls[i]? = some c)
    (hphase : c.phase = .checking file) (hpid : file.pid = some pid)
    (hdead : ¬ s.alive pid = true) : ∀ d ∈ s.calls, d.phase.holds ≠ some file.inode := by
  intro d hd hholds
  obtain ⟨now, hlock, hinode⟩ := h.owned d hd _ hholds
  have hcontent := (h.seen c (mem_of_at hi) file hphase).2 pid hpid now hlock hinode
  cases hdp : d.phase with
  | created n =>
    rw [hdp] at hholds
    obtain rfl := Option.some.inj hholds
    rw [h.empty d hd now hlock (by rw [hdp, hinode])] at hcontent
    cases hcontent
  | running n =>
    rw [hdp] at hholds
    obtain rfl := Option.some.inj hholds
    rw [h.signed d hd now hlock (by rw [hdp, hinode])] at hcontent
    have hsame : d.pid = pid := Option.some.inj hcontent
    refine hdead ?_
    rw [Workers.alive, Bool.or_eq_true, List.any_eq_true]
    refine .inr ⟨d, hd, decide_eq_true ⟨hsame, ?_⟩⟩
    rw [hdp]
    exact Phase.noConfusion
  | _ =>
    rw [hdp] at hholds
    cases hholds

/-- The file in place is removed when nobody else holds it, and its remover holds nothing. -/
theorem Sound.remove {phase : Phase} (h : Sound s) (hi : s.calls[i]? = some c)
    (hphase : phase = .reopening ∨ phase = .ended)
    (hfree : ∀ (j : Nat) (d : Call), j ≠ i → s.calls[j]? = some d → d.phase.holds = none) :
    Sound { s.goto i c phase with lock := none } := by
  have hnone : ∀ x ∈ (s.goto i c phase).calls, x.phase.holds = none := by
    intro x hx
    obtain ⟨j, hj⟩ := List.mem_iff_getElem?.1 hx
    rcases at_set hi hj with ⟨rfl, rfl⟩ | ⟨hne, hjx⟩
    · rcases hphase with rfl | rfl <;> rfl
    · exact hfree j x hne hjx
  refine ⟨?_, ?_, fun _ hl => (by cases hl), fun _ _ _ hl => (by cases hl),
    fun _ _ _ hl => (by cases hl), ?_, ?_⟩
  · intro x hx n hn
    rw [hnone x hx] at hn
    cases hn
  · intro j k x y n hj _ hx _
    rw [hnone x (mem_of_at hj)] at hx
    cases hx
  · intro x hx f hf
    rcases mem_set hx with rfl | hx
    · have hchecking : phase = .checking f := hf
      rcases hphase with rfl | rfl <;> cases hchecking
    · exact ⟨(h.seen x hx f hf).1, fun _ _ _ hl => (by cases hl)⟩
  · intro x hx n hn
    rcases mem_set hx with rfl | hx
    · have hunlinking : phase = .unlinking n := hn
      rcases hphase with rfl | rfl <;> cases hunlinking
    · refine ⟨(h.stale x hx n hn).1, fun d hd hholds => ?_⟩
      rw [hnone d hd] at hholds
      cases hholds

/-- The holder writes its process into its file.

**Proof sketch.** Only the writer holds the file in place, so that no other call can be told a
different content. Nobody has read a process in it, since it was empty until now. -/
theorem Sound.write {inode : Nat} (h : Sound s) (hi : s.calls[i]? = some c)
    (hphase : c.phase = .created inode) : Sound (s.write i c inode) := by
  have hholds : c.phase.holds = some inode := by rw [hphase]; rfl
  obtain ⟨file, hlock, rfl⟩ := h.owned c (mem_of_at hi) inode hholds
  have hempty := h.empty c (mem_of_at hi) file hlock hphase
  have hnew : (s.write i c file.inode).lock = some { file with pid := some c.pid } := by
    simp [Workers.write, hlock]
  have hother : ∀ (j : Nat) (d : Call), j ≠ i → s.calls[j]? = some d →
      d.phase.holds ≠ some file.inode := by
    intro j d hne hj hd
    exact hne (h.single j i d c file.inode hj hi hd hholds)
  refine ⟨?_, ?_, ?_, ?_, ?_, ?_, ?_⟩
  · intro x hx n hn
    rw [hnew]
    rcases mem_set hx with rfl | hx
    · exact ⟨_, rfl, Option.some.inj hn⟩
    · obtain ⟨file', hlock', rfl⟩ := h.owned x hx n hn
      rw [hlock] at hlock'
      obtain rfl := Option.some.inj hlock'
      exact ⟨_, rfl, rfl⟩
  · intro j k x y n hj hk hx hy
    rcases at_set hi hj with ⟨rfl, rfl⟩ | ⟨hjne, hjx⟩
    · rcases at_set hi hk with ⟨rfl, rfl⟩ | ⟨hkne, hky⟩
      · rfl
      · obtain rfl := Option.some.inj hx
        exact absurd hy (hother k y hkne hky)
    · rcases at_set hi hk with ⟨rfl, rfl⟩ | ⟨-, hky⟩
      · obtain rfl := Option.some.inj hy
        exact absurd hx (hother j x hjne hjx)
      · exact h.single j k x y n hjx hky hx hy
  · intro file' hfile'
    rw [hnew] at hfile'
    obtain rfl := Option.some.inj hfile'
    exact h.fresh file hlock
  · intro x hx file' hfile' hcreated
    rw [hnew] at hfile'
    obtain rfl := Option.some.inj hfile'
    obtain ⟨j, hj⟩ := List.mem_iff_getElem?.1 hx
    rcases at_set hi hj with ⟨rfl, rfl⟩ | ⟨hne, hjx⟩
    · cases hcreated
    · exact absurd (by rw [hcreated]; rfl) (hother j x hne hjx)
  · intro x hx file' hfile' hrunning
    rw [hnew] at hfile'
    obtain rfl := Option.some.inj hfile'
    obtain ⟨j, hj⟩ := List.mem_iff_getElem?.1 hx
    rcases at_set hi hj with ⟨rfl, rfl⟩ | ⟨hne, hjx⟩
    · rfl
    · exact absurd (by rw [hrunning]; rfl) (hother j x hne hjx)
  · intro x hx f hf
    rcases mem_set hx with rfl | hx
    · cases hf
    · obtain ⟨hlt, hsame⟩ := h.seen x hx f hf
      refine ⟨hlt, fun pid hpid file' hfile' hinode => ?_⟩
      rw [hnew] at hfile'
      obtain rfl := Option.some.inj hfile'
      -- The file was empty, so that nobody has read a process in it.
      rw [hsame pid hpid file hlock hinode] at hempty
      cases hempty
  · intro x hx n hn
    rcases mem_set hx with rfl | hx
    · cases hn
    · obtain ⟨hlt, hall⟩ := h.stale x hx n hn
      refine ⟨hlt, fun d hd hd' => ?_⟩
      rcases mem_set hd with rfl | hd
      · exact hall c (mem_of_at hi) (hholds.trans hd')
      · exact hall d hd hd'

/-- Processes end.

**Proof sketch.** The calls of the process are gone, hold nothing and are in no phase of the
invariant. The others are at their places with what they were. -/
theorem Sound.exit (h : Sound s) (pid : Nat) : Sound (s.step (.exit pid)) := by
  -- A call that is not gone is as it was.
  have hback : ∀ x ∈ (s.step (.exit pid)).calls, x.phase ≠ .gone → x ∈ s.calls := by
    intro x hx hne
    obtain ⟨y, hy, rfl⟩ := List.mem_map.1 hx
    by_cases hpid : y.pid = pid
    · rw [if_pos hpid] at hne
      exact absurd rfl hne
    · rw [if_neg hpid]
      exact hy
  have hat : ∀ (j : Nat) (x : Call), (s.step (.exit pid)).calls[j]? = some x → x.phase ≠ .gone →
      s.calls[j]? = some x := by
    intro j x hj hne
    have hmap : (s.calls.map fun c => if c.pid = pid then { c with phase := .gone } else c)[j]? =
        some x := hj
    rw [List.getElem?_map, Option.map_eq_some_iff] at hmap
    obtain ⟨y, hy, rfl⟩ := hmap
    by_cases hpid : y.pid = pid
    · rw [if_pos hpid] at hne
      exact absurd rfl hne
    · rw [if_neg hpid]
      exact hy
  have hgone : ∀ {x : Call} {n : Nat}, x.phase.holds = some n → x.phase ≠ .gone := by
    intro x n hx hphase
    rw [hphase] at hx
    cases hx
  refine ⟨?_, ?_, h.fresh, ?_, ?_, ?_, ?_⟩
  · intro x hx n hn
    exact h.owned x (hback x hx (hgone hn)) n hn
  · intro j k x y n hj hk hx hy
    exact h.single j k x y n (hat j x hj (hgone hx)) (hat k y hk (hgone hy)) hx hy
  · intro x hx file hlock hcreated
    exact h.empty x (hback x hx (by rw [hcreated]; exact Phase.noConfusion)) file hlock hcreated
  · intro x hx file hlock hrunning
    exact h.signed x (hback x hx (by rw [hrunning]; exact Phase.noConfusion)) file hlock hrunning
  · intro x hx f hf
    exact h.seen x (hback x hx (by rw [hf]; exact Phase.noConfusion)) f hf
  · intro x hx n hn
    obtain ⟨hlt, hall⟩ := h.stale x (hback x hx (by rw [hn]; exact Phase.noConfusion)) n hn
    exact ⟨hlt, fun d hd hholds => hall d (hback d hd (hgone hholds)) hholds⟩

/-- Launching a supervisor keeps a state sound.

**Proof sketch.** The new call is opening: it holds nothing, has read nothing and is to remove
nothing. The others are at their places with what they were. -/
theorem Sound.launch (h : Sound s) (pid : Nat) : Sound (s.step (.launch pid)) := by
  have hnew : ∀ x ∈ (s.step (.launch pid)).calls, x ∈ s.calls ∨ x = ⟨pid, .opening⟩ := by
    intro x hx
    rcases List.mem_append.1 hx with hx | hx
    · exact .inl hx
    · exact .inr (List.mem_singleton.1 hx)
  have hat : ∀ (j : Nat) (x : Call) (n : Nat), (s.step (.launch pid)).calls[j]? = some x →
      x.phase.holds = some n → s.calls[j]? = some x := by
    intro j x n hj hx
    have happend : (s.calls ++ [⟨pid, .opening⟩])[j]? = some x := hj
    rw [List.getElem?_append] at happend
    split at happend
    · exact happend
    · rw [List.mem_singleton.1 (List.mem_of_getElem? happend)] at hx
      cases hx
  refine ⟨?_, ?_, h.fresh, ?_, ?_, ?_, ?_⟩
  · intro x hx n hn
    rcases hnew x hx with hx | rfl
    · exact h.owned x hx n hn
    · cases hn
  · intro j k x y n hj hk hx hy
    exact h.single j k x y n (hat j x n hj hx) (hat k y n hk hy) hx hy
  · intro x hx file hlock hcreated
    rcases hnew x hx with hx | rfl
    · exact h.empty x hx file hlock hcreated
    · cases hcreated
  · intro x hx file hlock hrunning
    rcases hnew x hx with hx | rfl
    · exact h.signed x hx file hlock hrunning
    · cases hrunning
  · intro x hx f hf
    rcases hnew x hx with hx | rfl
    · exact h.seen x hx f hf
    · cases hf
  · intro x hx n hn
    rcases hnew x hx with hx | rfl
    · obtain ⟨hlt, hall⟩ := h.stale x hx n hn
      refine ⟨hlt, fun d hd hholds => ?_⟩
      rcases hnew d hd with hd | rfl
      · exact hall d hd hholds
      · cases hholds
    · cases hn

/-- The holder of the file in place is the only one. -/
theorem Sound.alone {n : Nat} (h : Sound s) (hi : s.calls[i]? = some c)
    (hc : c.phase.holds = some n) (j : Nat) (d : Call) (hne : j ≠ i) (hj : s.calls[j]? = some d) :
    d.phase.holds = none := by
  by_contra hd
  refine hne (h.exclusive j i d c hj hi hd ?_)
  rw [hc]
  exact fun hn => by cases hn

/-- **What a step that keeps to its file preserves.**

**Proof sketch.** One case for each event. A takeover removes a file that is stale or the one in
place, which it keeps to, and nobody holds it (`Sound.dead`); a stop removes the file of the call
that stops, of which it is the only holder. -/
theorem Sound.step {ev : Event} (h : Sound s) (hk : ev.Keeps s) : Sound (s.step ev) := by
  cases ev with
  | launch pid => exact h.launch pid
  | openLock i => exact act_cases h fun c hi _ => h.create hi (.inl rfl)
  | readLock i =>
    refine act_cases h fun c hi _ => ?_
    unfold Workers.read
    split
    · next file hlock =>
      refine h.goto hi rfl (fun f hf => ?_) (fun n hn => by cases hn)
      obtain rfl := Phase.checking.inj hf
      exact hlock
    · exact h.goto hi rfl (fun f hf => by cases hf) (fun n hn => by cases hn)
  | checkPid i =>
    refine act_cases h fun c hi _ => ?_
    split
    · next file hphase =>
      have hended : Sound (s.goto i c .ended) :=
        h.goto hi rfl (fun f hf => by cases hf) (fun n hn => by cases hn)
      unfold Workers.check
      split
      · next pid hpid =>
        split
        · exact hended
        · next hdead =>
          refine h.goto hi rfl (fun f hf => by cases hf) (fun n hn => ?_)
          obtain rfl := Phase.unlinking.inj hn
          exact ⟨(h.seen c (mem_of_at hi) file hphase).1, h.dead hi hphase hpid hdead⟩
      · exact hended
    · exact h
  | unlinkLock i =>
    refine act_cases h fun c hi _ => ?_
    split
    · next seen hphase =>
      unfold Workers.unlink
      split
      · next file hlock =>
        have hfile : file.inode = seen := hk c seen hi hphase file hlock
        refine h.remove hi (.inl rfl) fun j d _ hj => ?_
        by_contra hd
        obtain ⟨n, hn⟩ := Option.ne_none_iff_exists'.1 hd
        obtain ⟨file', hlock', rfl⟩ := h.owned d (mem_of_at hj) n hn
        rw [hlock] at hlock'
        obtain rfl := Option.some.inj hlock'
        rw [hfile] at hn
        exact (h.stale c (mem_of_at hi) seen hphase).2 d (mem_of_at hj) hn
      · exact h.goto hi rfl (fun f hf => by cases hf) (fun n hn => by cases hn)
    · exact h
  | reopenLock i => exact act_cases h fun c hi _ => h.create hi (.inr rfl)
  | writeLock i =>
    refine act_cases h fun c hi _ => ?_
    split
    · next inode hphase => exact h.write hi hphase
    · exact h
  | stop i =>
    refine act_cases h fun c hi _ => ?_
    split
    · next inode hphase =>
      have hholds : c.phase.holds = some inode := by rw [hphase]; rfl
      exact h.remove hi (.inr rfl) (h.alone hi hholds)
    · exact h
  | exit pid => exact h.exit pid
  | outside pid alive =>
    exact ⟨h.owned, h.single, h.fresh, h.empty, h.signed, h.seen, h.stale⟩

/-- A step that keeps to its file removes no file of another holder. -/
theorem Sound.noSteal {ev : Event} (h : Sound s) (hk : ev.Keeps s) : ¬ ev.Steals s := by
  intro hsteals
  cases ev with
  | unlinkLock i =>
    obtain ⟨c, d, j, seen, file, hi, hphase, hlock, -, hj, hd⟩ := hsteals
    rw [hk c seen hi hphase file hlock] at hd
    exact (h.stale c (mem_of_at hi) seen hphase).2 d (mem_of_at hj) hd
  | stop i =>
    obtain ⟨c, d, j, inode, file, hi, hphase, hlock, hne, hj, hd⟩ := hsteals
    have hholds : c.phase.holds = some inode := by rw [hphase]; rfl
    rw [h.alone hi hholds j d hne hj] at hd
    cases hd
  | _ => exact hsteals

/-- An initial state is sound. -/
theorem Workers.Initial.sound (h : s.Initial) : Sound s := by
  cases h with
  | idle hcalls hnext =>
    have hnone : ∀ c, c ∉ s.calls := by
      rw [hcalls]
      exact fun c => List.not_mem_nil
    exact ⟨fun c hc => absurd hc (hnone c), fun i j c d n hi => absurd (mem_of_at hi) (hnone c),
      hnext, fun c hc => absurd hc (hnone c), fun c hc => absurd hc (hnone c),
      fun c hc => absurd hc (hnone c), fun c hc => absurd hc (hnone c)⟩
  | @held pid inode hcalls hlock hnext =>
    have hone : ∀ c ∈ s.calls, c = ⟨pid, .running inode⟩ := by
      rw [hcalls]
      exact fun c hc => List.mem_singleton.1 hc
    refine ⟨?_, ?_, ?_, ?_, ?_, ?_, ?_⟩
    · intro c hc n hn
      rw [hone c hc] at hn
      exact ⟨_, hlock, Option.some.inj hn⟩
    · intro i j c d n hi hj _ _
      rw [hcalls] at hi hj
      have hi' := (List.getElem?_eq_some_iff.1 hi).1
      have hj' := (List.getElem?_eq_some_iff.1 hj).1
      simp only [List.length_singleton] at hi' hj'
      omega
    · intro file hfile
      rw [hlock] at hfile
      obtain rfl := Option.some.inj hfile
      exact hnext
    · intro c hc file _ hcreated
      rw [hone c hc] at hcreated
      cases hcreated
    · intro c hc file hfile _
      rw [hlock] at hfile
      obtain rfl := Option.some.inj hfile
      rw [hone c hc]
    · intro c hc f hf
      rw [hone c hc] at hf
      cases hf
    · intro c hc n hn
      rw [hone c hc] at hn
      cases hn

/-! ### Runs -/

/-- **Mutual exclusion where takeovers keep to their file.** In a run in which every takeover
removes the file that it has read, if there is one, at most one call at a time has passed the lock
and not released it, and no step removes the lock file of another call that holds it.

**Proof sketch.** By induction on the events. An initial state is sound, and a step that keeps to
its file leads to a sound state (`Sound.step`). A sound state has one holder (`Sound.exclusive`),
and no such step out of it steals a file (`Sound.noSteal`). -/
theorem worker_exclusion (h : s.Initial) (evs : List Event) (hk : KeepsAlong s evs) :
    (∀ before, before <+: evs → (workerSystem.run s before).Exclusive) ∧
      ∀ before ev, before ++ [ev] <+: evs → ¬ ev.Steals (workerSystem.run s before) := by
  have hsound := h.sound
  clear h
  induction evs generalizing s with
  | nil =>
    refine ⟨fun before hbefore => ?_, fun before ev hbefore => ?_⟩
    · rw [List.prefix_nil.1 hbefore]
      exact hsound.exclusive
    · have hnil := List.prefix_nil.1 hbefore
      exact absurd hnil (by simp)
  | cons e evs ih =>
    obtain ⟨hkeeps, hrest⟩ := hk
    obtain ⟨hall, hsteals⟩ := ih hrest (hsound.step hkeeps)
    refine ⟨fun before hbefore => ?_, fun before ev hbefore => ?_⟩
    · cases before with
      | nil => exact hsound.exclusive
      | cons x before =>
        obtain ⟨rfl, hlater⟩ := List.cons_prefix_cons.1 hbefore
        exact hall before hlater
    · cases before with
      | nil =>
        obtain ⟨rfl, -⟩ := List.cons_prefix_cons.1 hbefore
        exact hsound.noSteal hkeeps
      | cons x before =>
        rw [List.cons_append] at hbefore
        obtain ⟨rfl, hlater⟩ := List.cons_prefix_cons.1 hbefore
        exact hsteals before ev hlater

/-- The lock that a dead process has left. -/
def abandoned : Workers where
  lock := some ⟨0, some 7⟩
  next := 1
  calls := []
  outside := fun _ => false

/-- The abandoned lock is an initial state. -/
theorem abandoned_initial : abandoned.Initial := by
  refine .idle rfl fun file hfile => ?_
  obtain rfl := Option.some.inj hfile
  exact Nat.zero_lt_one

/-- One call takes it over, and another then finds it held. -/
def takeover : List Event :=
  [.launch 1, .openLock 0, .readLock 0, .checkPid 0, .unlinkLock 0, .reopenLock 0, .writeLock 0,
    .launch 2, .openLock 1, .readLock 1, .checkPid 1]

/-- A takeover of the abandoned lock is exclusive all along, and ends with one worker. -/
theorem worker_exclusion_takeover :
    ((∀ before, before <+: takeover → (workerSystem.run abandoned before).Exclusive) ∧
      ∀ before ev, before ++ [ev] <+: takeover →
        ¬ ev.Steals (workerSystem.run abandoned before)) ∧
      (workerSystem.run abandoned takeover).calls = [⟨1, .running 1⟩, ⟨2, .ended⟩] := by
  refine ⟨worker_exclusion abandoned_initial takeover ?_, by decide⟩
  refine ⟨trivial, trivial, trivial, trivial, ?_, trivial, trivial, trivial, trivial, trivial,
    trivial, trivial⟩
  intro c seen hi hphase file hlock
  obtain rfl := Option.some.inj hi
  obtain rfl := Phase.unlinking.inj hphase
  obtain rfl := Option.some.inj hlock
  rfl

/-- Two calls have both read it before either of them removes it. -/
def race : List Event :=
  [.launch 1, .launch 2, .openLock 0, .openLock 1, .readLock 0, .readLock 1, .checkPid 0,
    .checkPid 1, .unlinkLock 0, .reopenLock 0, .writeLock 0]

/-- The second of them removes the lock of the first, and both run. -/
theorem worker_race :
    ¬ ((∀ (s : Workers) (evs : List Event), s.Initial → (workerSystem.run s evs).Exclusive) ∨
      ∀ (s : Workers) (evs : List Event) (ev : Event), s.Initial →
        ¬ ev.Steals (workerSystem.run s evs)) := by
  rintro (hexclusive | hsteals)
  · have hboth := hexclusive abandoned (race ++ [.unlinkLock 1, .reopenLock 1, .writeLock 1])
      abandoned_initial 0 1 ⟨1, .running 1⟩ ⟨2, .running 2⟩ (by decide) (by decide) (by decide)
      (by decide)
    cases hboth
  · refine hsteals abandoned race (.unlinkLock 1) abandoned_initial ?_
    exact ⟨⟨2, .unlinking 0⟩, ⟨1, .running 1⟩, 0, 0, ⟨1, some 1⟩, by decide, by decide, by decide,
      by decide, by decide, by decide⟩

end NetworkAi.Worker
