import Mathlib.Tactic.Ring
import ZephyrTutorial.BavaCounter

/-! Mutual exclusion gives the thread inside the lock a stable view of the counter, so the
critical sections read as a sequential history in the order in which they were left. -/

namespace ZephyrTutorial.Proofs.BavaCounterLock
open ZephyrTutorial.BavaCounter Machine

universe u v

variable {τ : Type u} {π : Type v} {config : Config} {event : Event τ π} {state next : State τ π}

def critical : Thread π → Bool
  | .loading _ | .storing _ _ | .adding _ | .counting _ _ | .resetting | .unlocking _ => true
  | .idle | .locking _ | .returning _ => false

@[simp]
theorem critical_start (entered : Except Errno (Body π)) : critical (.start entered) = false := by
  cases entered <;> rfl

@[simp]
theorem critical_locked (body : Body π) : critical (.locked body) = true := by
  cases body <;> rfl

/-- The value that the next get is owed after a history. -/
def owed (config : Config) (served : List (τ × Answer π)) : Int :=
  config.startOffset.val + turn served * config.stepSize.val

private theorem owed_got (served : List (τ × Answer π)) (thread : τ) (val : π) (value : CInt) :
    owed config (served ++ [(thread, .got val value)]) = owed config served + config.stepSize.val := by
  simp only [owed, turn, List.foldl_append, List.foldl_cons, List.foldl_nil]
  push_cast
  ring

private theorem owed_reset (served : List (τ × Answer π)) (thread : τ) :
    owed config (served ++ [(thread, .reset)]) = config.startOffset.val := by
  simp [owed, turn]

private theorem owed_append {between : List (τ × Answer π)} (gets : ∀ entry ∈ between, entry.2 ≠ .reset)
    (served : List (τ × Answer π)) :
    owed config (served ++ between) = owed config served + between.length * config.stepSize.val := by
  induction between generalizing served with
  | nil => simp
  | cons entry between ih =>
    obtain ⟨thread, answer⟩ := entry
    cases answer with
    | got val value =>
      have later := ih (fun entry member => gets entry (List.mem_cons_of_mem _ member))
        (served ++ [(thread, .got val value)])
      rw [owed_got, List.append_assoc, List.singleton_append] at later
      rw [later, List.length_cons]
      push_cast
      ring
    | reset => exact absurd rfl (gets _ List.mem_cons_self)

/-- What a thread knows at its place about the value that is owed. -/
def Agrees (config : Config) (state : State τ π) : Thread π → Prop
  | .loading _ => state.counter.val = owed config state.served
  | .storing _ counter =>
    counter.val = owed config state.served ∧ state.counter.val = owed config state.served
  | .adding val =>
    (state.memory val).val = owed config state.served ∧ state.counter.val = owed config state.served
  | .counting val sum =>
    (state.memory val).val = owed config state.served ∧
      sum.val = owed config state.served + config.stepSize.val
  | .unlocking (.get val) =>
    (state.memory val).val = owed config state.served ∧
      state.counter.val = owed config state.served + config.stepSize.val
  | .unlocking .reset => state.counter = config.startOffset
  | .idle | .locking _ | .resetting | .returning _ => True

private theorem agrees_outside {place : Thread π} (outside : critical place = false) :
    Agrees config state place := by
  cases place <;> trivial

/-- The mutex is owned by the one thread that is in its critical section, once. -/
structure Exclusive (state : State τ π) : Prop where
  owner : ∀ thread, state.lock.owner = some thread ↔ critical (state.threads thread) = true
  once : state.lock.lockCount ≤ 1

theorem Exclusive.outside (exclusive : Exclusive state) {thread : τ}
    (inside : critical (state.threads thread) = true) (other : τ) (different : other ≠ thread) :
    critical (state.threads other) = false := by
  rw [← Bool.not_eq_true, ← exclusive.owner other, (exclusive.owner thread).mpr inside]
  intro same
  exact different (Option.some.inj same).symm

/-- While the mutex is free the counter is what is owed; its owner knows how far it is off. -/
structure Sequential (config : Config) (state : State τ π) : Prop where
  exclusive : Exclusive state
  free : state.lock.owner = none → state.counter.val = owed config state.served
  agrees : ∀ thread, Agrees config state (state.threads thread)
  values : ∀ before thread val value, before ++ [(thread, .got val value)] <+: state.served →
    value.val = owed config before

/-- Two gets with no reset in between are as many steps apart as there are gets from one to the other. -/
theorem Sequential.climbs {before between : List (τ × Answer π)} {first second : τ} {val other : π} {value later : CInt}
    (sequential : Sequential config state) (gets : ∀ entry ∈ between, entry.2 ≠ .reset)
    (start : before ++ (first, .got val value) :: between ++ [(second, .got other later)] <+: state.served) :
    later.val = value.val + (between.length + 1) * config.stepSize.val := by
  rw [List.append_cons before] at start
  have late := sequential.values _ second other later start
  rw [List.append_assoc] at start
  have early := sequential.values before first val value ((List.prefix_append _ _).trans start)
  rw [late, early, owed_append gets, owed_got]
  ring

theorem sequential_init (memory : π → CInt) : Sequential config (bavaCounterInit config memory : State τ π) where
  exclusive := ⟨fun thread => by simp [bavaCounterInit, Kernel.Mutex.init, critical], Nat.zero_le 1⟩
  free _ := by simp [bavaCounterInit, owed, turn]
  agrees _ := trivial
  values before thread val value start := by
    have empty := List.prefix_nil.mp start
    simp at empty

variable [DecidableEq τ]

@[simp]
theorem goto_threads (state : State τ π) (thread : τ) (place : Thread π) :
    (state.goto thread place).threads = Function.update state.threads thread place := rfl

/-- A thread that stays on its side of the lock leaves the mutex to its owner. -/
theorem Exclusive.stay (exclusive : Exclusive state) {thread : τ} {place : Thread π} (other : State τ π)
    (lock : other.lock = state.lock) (threads : other.threads = Function.update state.threads thread place)
    (side : critical place = critical (state.threads thread)) : Exclusive other := by
  refine ⟨fun current => ?_, lock ▸ exclusive.once⟩
  rw [lock, threads, exclusive.owner current]
  by_cases same : current = thread
  · rw [same, Function.update_self, side]
  · rw [Function.update_of_ne same]

/-- Who gets the lock has found it free, since no owner locks again. -/
private theorem Exclusive.vacant (exclusive : Exclusive state) {thread : τ} {body : Body π} {lock : Kernel.Mutex τ}
    (here : state.threads thread = .locking body) (free : state.lock.lock thread = some lock) :
    state.lock.owner = none := by
  apply (Kernel.Mutex.lock_eq_some free).1.resolve_right
  rw [exclusive.owner, here]
  exact Bool.false_ne_true

variable [DecidableEq π]

/-- Everything that one step can do, with the place of the thread before it. -/
inductive Taken (config : Config) (state : State τ π) : Event τ π → State τ π → Prop
  | call {thread dev call} (here : state.threads thread = .idle) :
    Taken config state (.call thread dev call) (state.goto thread (.start (call.enter dev)))
  | lock {thread body lock} (here : state.threads thread = .locking body)
    (free : state.lock.lock thread = some lock) :
    Taken config state (.run thread) ({ state with lock }.goto thread (.locked body))
  | load {thread val} (here : state.threads thread = .loading val) :
    Taken config state (.run thread) (state.goto thread (.storing val state.counter))
  | store {thread val counter} (here : state.threads thread = .storing val counter) :
    Taken config state (.run thread)
      ({ state with memory := Function.update state.memory val counter }.goto thread (.adding val))
  | add {thread val sum} (here : state.threads thread = .adding val)
    (range : state.counter.add config.stepSize = some sum) :
    Taken config state (.run thread) (state.goto thread (.counting val sum))
  | count {thread val sum} (here : state.threads thread = .counting val sum) :
    Taken config state (.run thread) ({ state with counter := sum }.goto thread (.unlocking (.get val)))
  | reset {thread} (here : state.threads thread = .resetting) :
    Taken config state (.run thread)
      ({ state with counter := config.startOffset }.goto thread (.unlocking .reset))
  | unlock {thread body} (here : state.threads thread = .unlocking body) :
    Taken config state (.run thread)
      ({ state with
        lock := state.lock.unlock thread
        served := state.served ++ [(thread, body.answer state.memory)] }.goto thread
          (.returning (.ok (body.answer state.memory))))
  | leave {thread ret} (here : state.threads thread = .returning ret) :
    Taken config state (.run thread)
      ({ state with returned := state.returned ++ [(thread, ret)] }.goto thread .idle)

theorem taken_of_step (taken : step config event state = some next) : Taken config state event next := by
  cases event with
  | call thread dev call =>
    simp only [step] at taken
    split at taken
    next here => cases taken; exact .call here
    next => cases taken
  | run thread =>
    simp only [step] at taken
    split at taken
    next => cases taken
    next body here =>
      obtain ⟨lock, free, rfl⟩ := Option.map_eq_some_iff.mp taken
      exact .lock here free
    next val here => cases taken; exact .load here
    next val counter here => cases taken; exact .store here
    next val here =>
      obtain ⟨sum, range, rfl⟩ := Option.map_eq_some_iff.mp taken
      exact .add here range
    next val sum here => cases taken; exact .count here
    next here => cases taken; exact .reset here
    next body here => cases taken; exact .unlock here
    next ret here => cases taken; exact .leave here

private theorem exclusive_step (exclusive : Exclusive state) (taken : Taken config state event next) :
    Exclusive next := by
  cases taken with
  | call here => exact exclusive.stay _ rfl rfl (by rw [here, critical_start]; rfl)
  | @lock thread body lock here free =>
    obtain ⟨-, owned, counted⟩ := Kernel.Mutex.lock_eq_some free
    have vacant := exclusive.vacant here free
    refine ⟨fun current => ?_, ?_⟩
    · show lock.owner = some current ↔ _
      rw [owned, goto_threads]
      by_cases same : current = thread
      · simp [same]
      · rw [Function.update_of_ne same, ← exclusive.owner current, vacant]
        simp [Ne.symm same]
    · show lock.lockCount ≤ 1
      rw [counted, state.lock.counted.mpr vacant]
  | load here => exact exclusive.stay _ rfl rfl (by simp [here, critical])
  | store here => exact exclusive.stay _ rfl rfl (by simp [here, critical])
  | add here range => exact exclusive.stay _ rfl rfl (by simp [here, critical])
  | count here => exact exclusive.stay _ rfl rfl (by simp [here, critical])
  | reset here => exact exclusive.stay _ rfl rfl (by simp [here, critical])
  | @unlock thread body here =>
    have inside : critical (state.threads thread) = true := by rw [here]; rfl
    have opened := Kernel.Mutex.unlock_last ((exclusive.owner thread).mpr inside) exclusive.once
    refine ⟨fun current => ?_, ?_⟩
    · show (state.lock.unlock thread).owner = some current ↔ _
      rw [opened, goto_threads]
      by_cases same : current = thread
      · simp [same, critical, Kernel.Mutex.init]
      · rw [Function.update_of_ne same, exclusive.outside inside current same]
        simp [Kernel.Mutex.init]
    · show (state.lock.unlock thread).lockCount ≤ 1
      rw [opened]
      exact Nat.zero_le 1
  | leave here => exact exclusive.stay _ rfl rfl (by simp [here, critical])

/-- A step inside the lock has to look after its own thread only. -/
theorem Sequential.inside (sequential : Sequential config state) (taken : Taken config state event next)
    (within : critical (state.threads event.thread) = true) {place : Thread π}
    (threads : next.threads = Function.update state.threads event.thread place)
    (lock : next.lock = state.lock) (served : next.served = state.served)
    (mine : Agrees config next place) : Sequential config next := by
  refine ⟨exclusive_step sequential.exclusive taken, ?_, ?_, served ▸ sequential.values⟩
  · intro vacant
    rw [lock, (sequential.exclusive.owner event.thread).mpr within] at vacant
    cases vacant
  · intro thread
    rw [threads]
    by_cases same : thread = event.thread
    · rw [same, Function.update_self]
      exact mine
    · rw [Function.update_of_ne same]
      exact agrees_outside (sequential.exclusive.outside within thread same)

/-- A step that ends outside the lock and touches none of the data keeps what is known. -/
theorem Sequential.outside (sequential : Sequential config state) (taken : Taken config state event next)
    {thread : τ} {place : Thread π} (threads : next.threads = Function.update state.threads thread place)
    (beyond : critical place = false) (lock : next.lock = state.lock)
    (counter : next.counter = state.counter) (memory : next.memory = state.memory)
    (served : next.served = state.served) : Sequential config next := by
  have same (place : Thread π) : Agrees config next place = Agrees config state place := by
    cases place with
    | unlocking body => cases body <;> simp [Agrees, counter, memory, served]
    | _ => simp [Agrees, counter, memory, served]
  refine ⟨exclusive_step sequential.exclusive taken, ?_, ?_, served ▸ sequential.values⟩
  · rw [lock, counter, served]
    exact sequential.free
  · intro current
    rw [threads, same]
    by_cases here : current = thread
    · rw [here, Function.update_self]
      exact agrees_outside beyond
    · rw [Function.update_of_ne here]
      exact sequential.agrees current

theorem sequential_step (sequential : Sequential config state) (taken : Taken config state event next) :
    Sequential config next := by
  have step := taken
  cases taken with
  | call here => exact sequential.outside step rfl (critical_start _) rfl rfl rfl rfl
  | @lock thread body lock here free =>
    have vacant := sequential.exclusive.vacant here free
    have exclusive := exclusive_step sequential.exclusive step
    refine ⟨exclusive, ?_, ?_, sequential.values⟩
    · intro released
      have owned := (Kernel.Mutex.lock_eq_some free).2.1
      exact absurd (owned.symm.trans released) nofun
    · intro current
      by_cases same : current = thread
      · rw [same, goto_threads, Function.update_self]
        cases body with
        | get val => exact sequential.free vacant
        | reset => trivial
      · apply agrees_outside
        apply exclusive.outside _ current same
        simp
  | @load thread val here =>
    have known := sequential.agrees thread
    rw [here] at known
    exact sequential.inside step (by simp [Event.thread, here, critical]) rfl rfl rfl ⟨known, known⟩
  | @store thread val counter here =>
    have known := sequential.agrees thread
    rw [here] at known
    refine sequential.inside step (by simp [Event.thread, here, critical]) rfl rfl rfl ⟨?_, known.2⟩
    show (Function.update state.memory val counter val).val = _
    rw [Function.update_self]
    exact known.1
  | @add thread val sum here range =>
    have known := sequential.agrees thread
    rw [here] at known
    refine sequential.inside step (by simp [Event.thread, here, critical]) rfl rfl rfl ⟨known.1, ?_⟩
    rw [CInt.add_eq_some.mp range, known.2]
    rfl
  | @count thread val sum here =>
    have known := sequential.agrees thread
    rw [here] at known
    exact sequential.inside step (by simp [Event.thread, here, critical]) rfl rfl rfl known
  | @reset thread here =>
    exact sequential.inside step (by simp [Event.thread, here, critical]) rfl rfl rfl rfl
  | @unlock thread body here =>
    have known := sequential.agrees thread
    rw [here] at known
    refine ⟨exclusive_step sequential.exclusive step, fun _ => ?_, ?_, ?_⟩
    · cases body with
      | get val => exact known.2.trans (owed_got _ _ _ _).symm
      | reset => exact (congrArg CInt.val known).trans (owed_reset _ _).symm
    · intro current
      apply agrees_outside
      by_cases same : current = thread
      · rw [same, goto_threads, Function.update_self]
        rfl
      · rw [goto_threads, Function.update_of_ne same]
        exact sequential.exclusive.outside (by rw [here]; rfl) current same
    · intro before other val value start
      obtain last | earlier := List.prefix_concat_iff.mp start
      · obtain ⟨rfl, same⟩ := List.append_inj' last rfl
        cases body with
        | get own => cases same; exact known.1
        | reset => cases same
      · exact sequential.values before other val value earlier
  | leave here => exact sequential.outside step rfl rfl rfl rfl rfl rfl

end ZephyrTutorial.Proofs.BavaCounterLock
