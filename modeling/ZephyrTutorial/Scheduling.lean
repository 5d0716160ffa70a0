import Mathlib.Data.List.Nodup
import Mathlib.Logic.Function.Basic

/-! Fixed-priority scheduling. A smaller number is a higher priority, and a thread with a negative one is
cooperative. The thread that runs is replaced only when it blocks, or when it is neither cooperative nor
holds the scheduler lock; a thread that has blocked with the lock has it again when it goes on. -/

namespace ZephyrTutorial

universe u

/-- The first thread of the highest priority. -/
def leader {τ : Type u} (priority : τ → Int) : List τ → Option τ
  | [] => none
  | thread :: rest =>
    match leader priority rest with
    | none => some thread
    | some other => if priority other < priority thread then some other else some thread

private theorem leader_none {τ : Type u} {priority : τ → Int} {threads : List τ}
    (none : leader priority threads = none) : threads = [] := by
  cases threads with
  | nil => rfl
  | cons thread rest =>
    unfold leader at none
    split at none
    · cases none
    · split at none <;> cases none

private theorem leader_some {τ : Type u} {priority : τ → Int} {threads : List τ} {first : τ}
    (chosen : leader priority threads = some first) :
    first ∈ threads ∧ ∀ other ∈ threads, priority first ≤ priority other := by
  induction threads generalizing first with
  | nil => cases chosen
  | cons thread rest ih =>
    unfold leader at chosen
    split at chosen
    next last =>
      cases chosen
      rw [leader_none last]
      exact ⟨List.mem_cons_self, fun other member => by cases List.mem_singleton.mp member; exact Int.le_refl _⟩
    next other found =>
      obtain ⟨member, lowest⟩ := ih found
      split at chosen
      next lower =>
        cases chosen
        exact ⟨List.mem_cons_of_mem _ member, List.forall_mem_cons.mpr ⟨Int.le_of_lt lower, lowest⟩⟩
      next higher =>
        cases chosen
        refine ⟨List.mem_cons_self, List.forall_mem_cons.mpr ⟨Int.le_refl _, fun later found => ?_⟩⟩
        exact Int.le_trans (Int.not_lt.mp higher) (lowest later found)

structure Scheduler (τ : Type u) (priority : τ → Int) where
  current : Option τ
  /-- The others that could run, those of one priority in the order in which they will. -/
  ready : List τ
  locks : τ → Nat
  distinct : ready.Nodup
  apart : ∀ thread, current = some thread → thread ∉ ready
  busy : current = none → ready = []
  highest : ∀ thread, current = some thread → 0 ≤ priority thread → locks thread = 0 →
    ∀ other ∈ ready, priority thread ≤ priority other

namespace Scheduler
variable {τ : Type u} {priority : τ → Int}

def Runnable (sched : Scheduler τ priority) (thread : τ) : Prop := sched.current = some thread ∨ thread ∈ sched.ready

/-- The thread keeps the processor until it blocks. -/
def Kept (priority : τ → Int) (locks : τ → Nat) (thread : τ) : Prop := priority thread < 0 ∨ 0 < locks thread

instance (locks : τ → Nat) (thread : τ) : Decidable (Kept priority locks thread) :=
  inferInstanceAs (Decidable (_ ∨ _))

theorem all_distinct (sched : Scheduler τ priority) : (sched.current.toList ++ sched.ready).Nodup := by
  cases running : sched.current with
  | none => exact sched.distinct
  | some thread => exact List.nodup_cons.mpr ⟨sched.apart thread running, sched.distinct⟩

private theorem not_runnable {sched : Scheduler τ priority} {thread : τ} (blocked : ¬ sched.Runnable thread) :
    (sched.current.toList ++ (sched.ready ++ [thread])).Nodup := by
  rw [← List.append_assoc]
  refine List.nodup_append.mpr ⟨sched.all_distinct, List.nodup_singleton thread, ?_⟩
  rintro other member last found rfl
  obtain rfl := List.mem_singleton.mp found
  rcases List.mem_append.mp member with running | waiting
  · exact blocked (.inl (Option.mem_toList.mp running))
  · exact blocked (.inr waiting)

/-- A thread that has to give way gives way to nothing below its own priority. -/
theorem preemptible_le {sched : Scheduler τ priority} {thread other : τ} (running : sched.current = some thread)
    (free : ¬ Kept priority sched.locks thread) (runnable : sched.Runnable other) :
    priority thread ≤ priority other := by
  rcases runnable with same | waiting
  · cases running.symm.trans same
    exact Int.le_refl _
  · unfold Kept at free
    exact sched.highest thread running (by omega) (by omega) other waiting

variable [DecidableEq τ]

instance (sched : Scheduler τ priority) (thread : τ) : Decidable (sched.Runnable thread) :=
  inferInstanceAs (Decidable (_ ∨ _))

def dispatch (ready : List τ) (distinct : ready.Nodup) (locks : τ → Nat) : Scheduler τ priority :=
  match chosen : leader priority ready with
  | none => ⟨none, [], locks, List.nodup_nil, nofun, fun _ => rfl, nofun⟩
  | some thread =>
    ⟨some thread, ready.erase thread, locks, distinct.erase thread,
      fun _ same => by cases same; exact distinct.not_mem_erase, nofun,
      fun _ same _ _ other member => by
        cases same
        exact (leader_some chosen).2 other (List.mem_of_mem_erase member)⟩

/-- The thread in `current` is the next of its priority if it has to give way. -/
def settle (current : Option τ) (ready : List τ) (locks : τ → Nat) (distinct : (current.toList ++ ready).Nodup) :
    Scheduler τ priority :=
  match current, distinct with
  | none, distinct => dispatch ready (show ready.Nodup from distinct) locks
  | some thread, distinct =>
    if kept : Kept priority locks thread then
      ⟨some thread, ready, locks, distinct.of_cons, fun _ same => by cases same; exact (List.nodup_cons.mp distinct).1, nofun,
        fun _ same preemptible unlocked => by cases same; rcases kept with kept | kept <;> omega⟩
    else dispatch (thread :: ready) (show (thread :: ready).Nodup from distinct) locks

def start (threads : List τ) (distinct : threads.Nodup) : Scheduler τ priority := dispatch threads distinct fun _ => 0

/-- An interrupt lets the thread go on. -/
def wake (sched : Scheduler τ priority) (thread : τ) : Scheduler τ priority :=
  if runnable : sched.Runnable thread then sched
  else settle sched.current (sched.ready ++ [thread]) sched.locks (not_runnable runnable)

/-- The thread that runs sleeps or ends. -/
def block (sched : Scheduler τ priority) : Scheduler τ priority := dispatch sched.ready sched.distinct sched.locks

/-- The time slice of the thread that runs is over. -/
def slice (sched : Scheduler τ priority) : Scheduler τ priority :=
  match running : sched.current with
  | none => sched
  | some thread =>
    if Kept priority sched.locks thread then sched
    else dispatch (sched.ready ++ [thread])
      (List.nodup_append_comm.mp (by have all := sched.all_distinct; rwa [running] at all)) sched.locks

def lock (sched : Scheduler τ priority) (thread : τ) : Scheduler τ priority :=
  settle sched.current sched.ready (Function.update sched.locks thread (sched.locks thread + 1)) sched.all_distinct

def unlock (sched : Scheduler τ priority) (thread : τ) : Scheduler τ priority :=
  settle sched.current sched.ready (Function.update sched.locks thread (sched.locks thread - 1)) sched.all_distinct

section Operations
variable {ready : List τ} {current : Option τ} {locks : τ → Nat} {thread other : τ}

@[simp]
theorem dispatch_locks (distinct : ready.Nodup) : (dispatch ready distinct locks : Scheduler τ priority).locks = locks := by
  unfold dispatch
  split <;> rfl

@[simp]
theorem dispatch_runnable (distinct : ready.Nodup) :
    (dispatch ready distinct locks : Scheduler τ priority).Runnable thread ↔ thread ∈ ready := by
  unfold dispatch
  split
  next none =>
    rw [leader_none none]
    simp [Runnable]
  next first chosen =>
    have member := (leader_some chosen).1
    by_cases same : first = thread
    · subst same
      simp [Runnable, member]
    · simp [Runnable, same, List.mem_erase_of_ne (Ne.symm same)]

@[simp]
theorem settle_locks (distinct : (current.toList ++ ready).Nodup) :
    (settle current ready locks distinct : Scheduler τ priority).locks = locks := by
  cases current with
  | none => exact dispatch_locks (show ready.Nodup from distinct)
  | some thread =>
    unfold settle
    dsimp only
    split
    · rfl
    · exact dispatch_locks _

@[simp]
theorem settle_runnable (distinct : (current.toList ++ ready).Nodup) :
    (settle current ready locks distinct : Scheduler τ priority).Runnable other ↔
      current = some other ∨ other ∈ ready := by
  cases current with
  | none =>
    show (dispatch ready (show ready.Nodup from distinct) locks : Scheduler τ priority).Runnable other ↔ _
    rw [dispatch_runnable]
    simp
  | some thread =>
    unfold settle
    dsimp only
    split
    · exact Iff.rfl
    · rw [dispatch_runnable (show (thread :: ready).Nodup from distinct), List.mem_cons, Option.some_inj, eq_comm]

theorem settle_kept (distinct : ((some thread).toList ++ ready).Nodup) (kept : Kept priority locks thread) :
    (settle (some thread) ready locks distinct : Scheduler τ priority).current = some thread := by
  unfold settle
  dsimp only
  rw [dif_pos kept]

variable {sched : Scheduler τ priority}

@[simp]
theorem wake_locks : (sched.wake thread).locks = sched.locks := by
  unfold wake
  split
  · rfl
  · exact settle_locks _

theorem wake_runnable : (sched.wake thread).Runnable other ↔ sched.Runnable other ∨ other = thread := by
  unfold wake
  split
  next runnable =>
    refine ⟨.inl, fun either => either.elim id ?_⟩
    rintro rfl
    exact runnable
  next => rw [settle_runnable, List.mem_append, List.mem_singleton, Runnable, or_assoc]

theorem wake_kept (running : sched.current = some thread) (kept : Kept priority sched.locks thread) :
    (sched.wake other).current = some thread := by
  unfold wake
  split
  · exact running
  · simp only [running]
    exact settle_kept _ kept

@[simp]
theorem block_locks : sched.block.locks = sched.locks := dispatch_locks _

@[simp]
theorem block_runnable : sched.block.Runnable other ↔ other ∈ sched.ready := dispatch_runnable _

@[simp]
theorem slice_locks : sched.slice.locks = sched.locks := by
  unfold slice
  split
  · rfl
  · split
    · rfl
    · exact dispatch_locks _

@[simp]
theorem slice_runnable : sched.slice.Runnable other ↔ sched.Runnable other := by
  unfold slice
  split
  · rfl
  next thread running =>
    split
    · rfl
    · rw [dispatch_runnable, Runnable, running, List.mem_append, List.mem_singleton, Option.some_inj, or_comm, eq_comm]

theorem slice_kept (running : sched.current = some thread) (kept : Kept priority sched.locks thread) :
    sched.slice.current = some thread := by
  unfold slice
  split
  next none => exact running
  next other found =>
    cases running.symm.trans found
    rw [if_pos kept]
    exact running

end Operations

end Scheduler

end ZephyrTutorial
