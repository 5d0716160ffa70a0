import Mathlib.Logic.Function.Basic
import ZephyrTutorial.Machine
import ZephyrTutorial.Scheduling

/-! Threads that share one processor. Between any two calls an interrupt may wake a thread or end a time
slice. The history has the calls in the order in which they are made. -/

namespace ZephyrTutorial

universe u v w x

/-- What a call does to the thread that makes it. -/
inductive Effect
  | go | block | lock | unlock
  deriving DecidableEq, Repr

structure Threads (τ : Type u) (Place : Type v) (Call : Type w) (Answer : Type x) where
  priority : τ → Int
  /-- A thread that has returned has no next call. -/
  call : Place → Option Call
  effect : Call → Effect
  next : Place → Answer → Place
  /-- Threads that are subject to time slicing. -/
  sliced : τ → Bool

namespace Threads
variable {τ : Type u} {Place : Type v} {Call : Type w} {Answer : Type x}

structure State (app : Threads τ Place Call Answer) where
  sched : Scheduler τ app.priority
  place : τ → Place
  history : List (τ × Call)

inductive Event (τ : Type u) (Answer : Type x)
  | call (answer : Answer)
  | wake (thread : τ)
  | slice
  deriving DecidableEq

section Paths
variable (app : Threads τ Place Call Answer)

/-- The calls that a thread makes from one place to another, with some answers. -/
def Performs : Place → List Call → Place → Prop
  | place, [], final => final = place
  | place, call :: rest, final => app.call place = some call ∧ ∃ answer, Performs (app.next place answer) rest final

variable {app}

theorem Performs.append {start place : Place} {calls : List Call} {call : Call} (performs : app.Performs start calls place)
    (here : app.call place = some call) (answer : Answer) :
    app.Performs start (calls ++ [call]) (app.next place answer) := by
  induction calls generalizing start with
  | nil => cases performs; exact ⟨here, answer, rfl⟩
  | cons first calls ih =>
    obtain ⟨made, reply, rest⟩ := performs
    exact ⟨made, reply, ih rest⟩

theorem Performs.split {start final : Place} {first rest : List Call} (performs : app.Performs start (first ++ rest) final) :
    ∃ place, app.Performs start first place ∧ app.Performs place rest final := by
  induction first generalizing start with
  | nil => exact ⟨start, rfl, performs⟩
  | cons call first ih =>
    obtain ⟨made, answer, later⟩ := performs
    obtain ⟨place, before, after⟩ := ih later
    exact ⟨place, ⟨made, answer, before⟩, after⟩

variable (app) in
/-- From the place on a thread makes these calls and ends, whatever they return. -/
def Straight : Place → List Call → Prop
  | place, [] => app.call place = none
  | place, call :: rest => app.call place = some call ∧ ∀ answer, Straight (app.next place answer) rest

theorem Straight.begins {place final : Place} {script calls : List Call} (straight : app.Straight place script)
    (performs : app.Performs place calls final) : calls <+: script := by
  induction calls generalizing place script with
  | nil => exact List.nil_prefix
  | cons call calls ih =>
    obtain ⟨made, answer, rest⟩ := performs
    cases script with
    | nil => cases made.symm.trans straight
    | cons first script =>
      cases made.symm.trans straight.1
      exact List.cons_prefix_cons.mpr ⟨rfl, ih (straight.2 answer) rest⟩

end Paths

variable [DecidableEq τ]

def callsOf (history : List (τ × Call)) (thread : τ) : List Call :=
  history.filterMap fun entry => if thread = entry.1 then some entry.2 else none

section History
variable (app : Threads τ Place Call Answer)

def depthAfter (depth : Nat) (call : Call) : Nat :=
  match app.effect call with
  | .lock => depth + 1
  | .unlock => depth - 1
  | .go | .block => depth

/-- How often a thread has locked the scheduler and not unlocked it. -/
def depth (history : List (τ × Call)) (thread : τ) : Nat := (callsOf history thread).foldl app.depthAfter 0

/-- The last call of the thread has blocked it. -/
def Blocked (history : List (τ × Call)) (thread : τ) : Prop :=
  ∃ call, (callsOf history thread).getLast? = some call ∧ app.effect call = .block

/-- What the schedule owes to the other threads when one makes a call. -/
structure InTurn (before : List (τ × Call)) (entry : τ × Call) : Prop where
  /-- A thread that is cooperative or holds the lock goes on until it blocks. -/
  alone : ∀ thread call, before.getLast? = some (thread, call) → app.effect call ≠ .block →
    Scheduler.Kept app.priority (app.depth before) thread → entry.1 = thread
  /-- Another thread runs only while all of a higher priority are blocked. -/
  first : ¬ Scheduler.Kept app.priority (app.depth before) entry.1 →
    ∀ thread, app.priority thread < app.priority entry.1 → app.Blocked before thread

def Ordered (history : List (τ × Call)) : Prop :=
  ∀ before entry after, history = before ++ entry :: after → app.InTurn before entry

end History

variable {app : Threads τ Place Call Answer}

def schedule (sched : Scheduler τ app.priority) (thread : τ) : Effect → Scheduler τ app.priority
  | .go => sched
  | .block => sched.block
  | .lock => sched.lock thread
  | .unlock => sched.unlock thread

def step (app : Threads τ Place Call Answer) (event : Event τ Answer) (state : State app) : Option (State app) :=
  match event, state.sched.current with
  | .call answer, some thread =>
    (app.call (state.place thread)).map fun call =>
      { sched := schedule state.sched thread (app.effect call)
        place := Function.update state.place thread (app.next (state.place thread) answer)
        history := state.history ++ [(thread, call)] }
  | .wake thread, _ =>
    if ¬ state.sched.Runnable thread ∧ app.call (state.place thread) ≠ none then
      some { state with sched := state.sched.wake thread }
    else none
  | .slice, some thread => if app.sliced thread then some { state with sched := state.sched.slice } else none
  | _, none => none

def boot (app : Threads τ Place Call Answer) (threads : List τ) (distinct : threads.Nodup) (place : τ → Place) : State app :=
  ⟨.start threads distinct, place, []⟩

section Histories
variable {history : List (τ × Call)} {thread other : τ} {call : Call}

theorem callsOf_own : callsOf (history ++ [(thread, call)]) thread = callsOf history thread ++ [call] := by
  simp [callsOf]

theorem callsOf_other (different : other ≠ thread) : callsOf (history ++ [(thread, call)]) other = callsOf history other := by
  simp [callsOf, different]

theorem callsOf_append (first rest : List (τ × Call)) :
    callsOf (first ++ rest) thread = callsOf first thread ++ callsOf rest thread := List.filterMap_append

theorem mem_callsOf : call ∈ callsOf history thread ↔ (thread, call) ∈ history := by
  simp only [callsOf, List.mem_filterMap]
  constructor
  · rintro ⟨entry, member, same⟩
    split at same
    next own => cases same; rw [own]; exact member
    next => cases same
  · exact fun member => ⟨(thread, call), member, if_pos rfl⟩

/-- The depths after one more call, as the scheduler counts its locks. -/
theorem depth_append :
    app.depth (history ++ [(thread, call)]) = match app.effect call with
      | .lock => Function.update (app.depth history) thread (app.depth history thread + 1)
      | .unlock => Function.update (app.depth history) thread (app.depth history thread - 1)
      | .go | .block => app.depth history := by
  funext other
  by_cases same : other = thread
  · subst same
    rw [depth, callsOf_own, List.foldl_append, List.foldl_cons, List.foldl_nil, ← depth, depthAfter]
    cases app.effect call <;> simp
  · rw [depth, callsOf_other same, ← depth]
    cases app.effect call <;> simp [same]

theorem depth_eq_zero (lockless : ∀ call, app.effect call ≠ .lock) : app.depth history thread = 0 := by
  unfold depth
  induction callsOf history thread with
  | nil => rfl
  | cons call calls ih =>
    have same : app.depthAfter 0 call = 0 := by
      unfold depthAfter
      cases effect : app.effect call with
      | lock => exact absurd effect (lockless call)
      | go | block | unlock => rfl
    rw [List.foldl_cons, same]
    exact ih

theorem Blocked.append (blocked : app.Blocked history other) (different : other ≠ thread) :
    app.Blocked (history ++ [(thread, call)]) other := by
  rw [Blocked, callsOf_other different]
  exact blocked

private theorem blocked_last (blocks : app.effect call = .block) :
    app.Blocked (history ++ [(thread, call)]) thread := by
  refine ⟨call, ?_, blocks⟩
  rw [callsOf_own]
  exact List.getLast?_concat

theorem Ordered.append (ordered : app.Ordered history) {entry : τ × Call} (turn : app.InTurn history entry) :
    app.Ordered (history ++ [entry]) := by
  intro before later after split
  rcases List.eq_nil_or_concat after with rfl | ⟨more, last, rfl⟩
  · obtain ⟨rfl, same⟩ := List.append_inj' split rfl
    cases same
    exact turn
  · rw [List.concat_eq_append, ← List.cons_append, ← List.append_assoc] at split
    exact ordered before later more (List.append_inj' split rfl).1

end Histories

/-- What holds between the scheduler and the history, on each run. -/
structure Coherent (places : τ → Place) (state : State app) : Prop where
  locks : state.sched.locks = app.depth state.history
  blocked : ∀ thread, ¬ state.sched.Runnable thread → app.Blocked state.history thread
  performs : ∀ thread, app.Performs (places thread) (callsOf state.history thread) (state.place thread)
  alone : ∀ thread call, state.history.getLast? = some (thread, call) → app.effect call ≠ .block →
    Scheduler.Kept app.priority state.sched.locks thread → state.sched.current = some thread
  ordered : app.Ordered state.history

section Run
variable {state next : State app} {event : Event τ Answer} {places : τ → Place}

theorem inTurn (coherent : Coherent places state) {thread : τ} (call : Call) (running : state.sched.current = some thread) :
    app.InTurn state.history (thread, call) := by
  constructor
  · intro other last found blocks kept
    rw [← coherent.locks] at kept
    exact Option.some_inj.mp (running.symm.trans (coherent.alone other last found blocks kept))
  · intro free other higher
    rw [← coherent.locks] at free
    refine coherent.blocked other fun runnable => ?_
    exact Int.not_le.mpr higher (Scheduler.preemptible_le running free runnable)

private theorem schedule_locks {sched : Scheduler τ app.priority} {thread : τ} (effect : Effect) :
    (schedule sched thread effect).locks = match effect with
      | .lock => Function.update sched.locks thread (sched.locks thread + 1)
      | .unlock => Function.update sched.locks thread (sched.locks thread - 1)
      | .go | .block => sched.locks := by
  cases effect with
  | go => rfl
  | block => exact Scheduler.block_locks
  | lock => exact Scheduler.settle_locks _
  | unlock => exact Scheduler.settle_locks _

private theorem schedule_runnable {sched : Scheduler τ app.priority} {thread other : τ} (effect : Effect)
    (runnable : sched.Runnable other) (different : sched.current = some other → effect ≠ .block) :
    (schedule sched thread effect).Runnable other := by
  cases effect with
  | go => exact runnable
  | block =>
    refine Scheduler.block_runnable.mpr (runnable.resolve_left ?_)
    exact fun running => different running rfl
  | lock => exact (Scheduler.settle_runnable _).mpr runnable
  | unlock => exact (Scheduler.settle_runnable _).mpr runnable

private theorem schedule_kept {sched : Scheduler τ app.priority} {thread : τ} (effect : Effect)
    (running : sched.current = some thread) (goes : effect ≠ .block)
    (kept : Scheduler.Kept app.priority (schedule sched thread effect).locks thread) :
    (schedule sched thread effect).current = some thread := by
  rw [schedule_locks] at kept
  cases effect with
  | go => exact running
  | block => exact absurd rfl goes
  | lock =>
    simp only [schedule, Scheduler.lock, running]
    exact Scheduler.settle_kept _ kept
  | unlock =>
    simp only [schedule, Scheduler.unlock, running]
    exact Scheduler.settle_kept _ kept

/-- Everything that an event can do. -/
inductive Took (state : State app) : Event τ Answer → State app → Prop
  | call {answer : Answer} {thread : τ} {call : Call} (running : state.sched.current = some thread)
    (here : app.call (state.place thread) = some call) :
    Took state (.call answer)
      { sched := schedule state.sched thread (app.effect call)
        place := Function.update state.place thread (app.next (state.place thread) answer)
        history := state.history ++ [(thread, call)] }
  | wake {thread : τ} (asleep : ¬ state.sched.Runnable thread) (more : app.call (state.place thread) ≠ none) :
    Took state (.wake thread) { state with sched := state.sched.wake thread }
  | slice : Took state .slice { state with sched := state.sched.slice }

theorem step_took (taken : step app event state = some next) : Took state event next := by
  unfold step at taken
  split at taken
  next answer thread running =>
    obtain ⟨call, here, rfl⟩ := Option.map_eq_some_iff.mp taken
    exact .call running here
  next thread _ =>
    split at taken
    next asleep => cases taken; exact .wake asleep.1 asleep.2
    next => cases taken
  next thread _ =>
    split at taken
    · cases taken; exact .slice
    · cases taken
  next => cases taken

theorem coherent_step (coherent : Coherent places state) (taken : step app event state = some next) :
    Coherent places next := by
  cases step_took taken with
  | @call answer thread call running here =>
    have turn := inTurn coherent call running
    obtain ⟨locks, blocked, performs, alone, ordered⟩ := coherent
    constructor
    · show (schedule _ _ _).locks = app.depth (state.history ++ [(thread, call)])
      rw [schedule_locks, depth_append, locks]
    · intro other stops
      by_cases same : other = thread
      · subst same
        apply blocked_last
        by_contra goes
        exact stops (schedule_runnable _ (.inl running) fun _ => goes)
      · refine (blocked other fun runnable => ?_).append same
        refine stops (schedule_runnable _ runnable fun found => absurd ?_ same)
        exact Option.some_inj.mp (found.symm.trans running)
    · intro other
      dsimp only
      by_cases same : other = thread
      · subst same
        rw [callsOf_own, Function.update_self]
        exact (performs other).append here answer
      · rw [callsOf_other same, Function.update_of_ne same]
        exact performs other
    · intro other last found goes kept
      rw [List.getLast?_concat] at found
      cases found
      exact schedule_kept _ running goes kept
    · exact ordered.append turn
  | @wake thread asleep more =>
    obtain ⟨locks, blocked, performs, alone, ordered⟩ := coherent
    refine ⟨Scheduler.wake_locks.trans locks, fun other stops => ?_, performs, fun other last found goes kept => ?_,
      ordered⟩
    · exact blocked other fun runnable => stops (Scheduler.wake_runnable.mpr (.inl runnable))
    · rw [Scheduler.wake_locks] at kept
      exact Scheduler.wake_kept (alone other last found goes kept) kept
  | slice =>
    obtain ⟨locks, blocked, performs, alone, ordered⟩ := coherent
    refine ⟨Scheduler.slice_locks.trans locks, fun other stops => ?_, performs, fun other last found goes kept => ?_,
      ordered⟩
    · exact blocked other fun runnable => stops (Scheduler.slice_runnable.mpr runnable)
    · rw [Scheduler.slice_locks] at kept
      exact Scheduler.slice_kept (alone other last found goes kept) kept

theorem boot_coherent {threads : List τ} (distinct : threads.Nodup) (complete : ∀ thread, thread ∈ threads)
    (places : τ → Place) : Coherent places (boot app threads distinct places) := by
  refine ⟨Scheduler.dispatch_locks distinct, fun thread stops => ?_, fun _ => rfl, nofun, fun before entry after split => ?_⟩
  · exact absurd ((Scheduler.dispatch_runnable distinct).mpr (complete thread)) stops
  · cases before <;> cases split

/-- The calls of a thread up to some moment lead it to some place. -/
theorem Coherent.performed (coherent : Coherent places state) (thread : τ) {before after : List (τ × Call)}
    (split : state.history = before ++ after) : ∃ place, app.Performs (places thread) (callsOf before thread) place := by
  have performs := coherent.performs thread
  rw [split, callsOf_append] at performs
  obtain ⟨place, first, _⟩ := performs.split
  exact ⟨place, first⟩

/-- After a call that does not block, one that comes next is made by the same thread if this is kept. -/
theorem Coherent.following (coherent : Coherent places state) {before after : List (τ × Call)} {thread : τ} {call : Call}
    {entry : τ × Call} (split : state.history = before ++ (thread, call) :: entry :: after) (goes : app.effect call ≠ .block)
    (kept : Scheduler.Kept app.priority (app.depth (before ++ [(thread, call)])) thread) : entry.1 = thread := by
  have turn := coherent.ordered (before ++ [(thread, call)]) entry after (by rw [split, List.append_assoc]; rfl)
  exact turn.alone thread call List.getLast?_concat goes kept

/-- On each run, each call is made in turn. -/
theorem run_coherent {threads : List τ} {distinct : threads.Nodup} (complete : ∀ thread, thread ∈ threads)
    {schedule : List (Event τ Answer)}
    (ran : Machine.run (step app) schedule (boot app threads distinct places) = some state) : Coherent places state :=
  Machine.invariant (fun _ _ _ => coherent_step) (boot_coherent distinct complete places) ran

end Run

end Threads

end ZephyrTutorial
