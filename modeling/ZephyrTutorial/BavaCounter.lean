import Mathlib.Data.List.Infix
import Mathlib.Logic.Function.Basic
import ZephyrTutorial.CInt
import ZephyrTutorial.Kernel
import ZephyrTutorial.Machine

/-! One instance of the counter driver and the threads that call it through the API of
`bava_counter.h`. `τ` names the threads and `π` the cells that `val` can point to. -/

namespace ZephyrTutorial.BavaCounter

universe u v

structure Config where
  startOffset : CInt
  stepSize : CInt

inductive Errno
  | einval | enodev | enosys
  deriving DecidableEq, Repr

inductive GetFunction
  | bavaGet
  deriving DecidableEq, Repr

inductive ResetFunction
  | bavaReset
  deriving DecidableEq, Repr

structure Api where
  get : Option GetFunction
  reset : Option ResetFunction
  deriving DecidableEq, Repr

def bavaApi : Api := ⟨some .bavaGet, some .bavaReset⟩

structure Device where
  ready : Bool
  api : Option Api
  deriving DecidableEq, Repr

inductive Body (π : Type v)
  | get (val : π)
  | reset
  deriving DecidableEq, Repr

inductive Call (π : Type v)
  | bavaCounterGet (val : Option π)
  | bavaCounterReset
  deriving DecidableEq, Repr

section Entry
variable {π : Type v}

/-- `bava_get` up to the lock. -/
def bavaGet : Option π → Except Errno (Body π)
  | none => .error .einval
  | some val => .ok (.get val)

/-- `bava_reset` up to the lock. -/
def bavaReset : Except Errno (Body π) := .ok .reset

def bavaCounterGet (dev : Device) (val : Option π) : Except Errno (Body π) :=
  if dev.ready then
    match dev.api.bind Api.get with
    | none => .error .enosys
    | some .bavaGet => bavaGet val
  else .error .enodev

def bavaCounterReset (dev : Device) : Except Errno (Body π) :=
  if dev.ready then
    match dev.api.bind Api.reset with
    | none => .error .enosys
    | some .bavaReset => bavaReset
  else .error .enodev

def Call.enter (dev : Device) : Call π → Except Errno (Body π)
  | .bavaCounterGet val => BavaCounter.bavaCounterGet dev val
  | .bavaCounterReset => BavaCounter.bavaCounterReset dev

end Entry

/-- What a successful call did: the value that its get left in `*val`, or a reset. -/
inductive Answer (π : Type v)
  | got (val : π) (value : CInt)
  | reset
  deriving DecidableEq

def Body.answer {π : Type v} (memory : π → CInt) : Body π → Answer π
  | .get val => .got val (memory val)
  | .reset => .reset

/-- Where a thread is. Each read and each write of shared memory is a step of its own. -/
inductive Thread (π : Type v)
  | idle
  | locking (body : Body π)
  | loading (val : π)
  | storing (val : π) (counter : CInt)
  | adding (val : π)
  | counting (val : π) (sum : CInt)
  | resetting
  | unlocking (body : Body π)
  | returning (ret : Except Errno (Answer π))

structure State (τ : Type u) (π : Type v) where
  counter : CInt
  lock : Kernel.Mutex τ
  memory : π → CInt
  threads : τ → Thread π
  /-- The critical sections in the order in which they were left. -/
  served : List (τ × Answer π)
  /-- The calls in the order in which they returned. -/
  returned : List (τ × Except Errno (Answer π))

inductive Event (τ : Type u) (π : Type v)
  | call (thread : τ) (dev : Device) (call : Call π)
  | run (thread : τ)

def Event.thread {τ : Type u} {π : Type v} : Event τ π → τ
  | .call thread _ _ => thread
  | .run thread => thread

/-- The state after `bava_counter_init`, before any call. -/
def bavaCounterInit {τ : Type u} {π : Type v} (config : Config) (memory : π → CInt) : State τ π where
  counter := config.startOffset
  lock := .init
  memory := memory
  threads := fun _ => .idle
  served := []
  returned := []

/-- A call goes for the lock, or straight to its return. -/
def Thread.start {π : Type v} : Except Errno (Body π) → Thread π
  | .ok body => .locking body
  | .error errno => .returning (.error errno)

def Thread.locked {π : Type v} : Body π → Thread π
  | .get val => .loading val
  | .reset => .resetting

section Step
variable {τ : Type u} {π : Type v} [DecidableEq τ]

def State.goto (state : State τ π) (thread : τ) (place : Thread π) : State τ π :=
  { state with threads := Function.update state.threads thread place }

/-- An addition that overflows is undefined, so it has no next state. -/
def step [DecidableEq π] (config : Config) (event : Event τ π) (state : State τ π) : Option (State τ π) :=
  match event with
  | .call thread dev call =>
    match state.threads thread with
    | .idle => some (state.goto thread (.start (call.enter dev)))
    | _ => none
  | .run thread =>
    match state.threads thread with
    | .idle => none
    | .locking body =>
      (state.lock.lock thread).map fun lock => { state with lock }.goto thread (.locked body)
    | .loading val => some (state.goto thread (.storing val state.counter))
    | .storing val counter =>
      some ({ state with memory := Function.update state.memory val counter }.goto thread (.adding val))
    | .adding val =>
      (state.counter.add config.stepSize).map fun sum => state.goto thread (.counting val sum)
    | .counting val sum => some ({ state with counter := sum }.goto thread (.unlocking (.get val)))
    | .resetting =>
      some ({ state with counter := config.startOffset }.goto thread (.unlocking .reset))
    | .unlocking body =>
      let answer := body.answer state.memory
      some ({ state with
        lock := state.lock.unlock thread
        served := state.served ++ [(thread, answer)] }.goto thread (.returning (.ok answer)))
    | .returning ret =>
      some ({ state with returned := state.returned ++ [(thread, ret)] }.goto thread .idle)

end Step

section Order
variable {τ : Type u} {π : Type v}

/-- The gets after the latest reset of a history, or after init. -/
def turn (served : List (τ × Answer π)) : Nat :=
  served.foldl (fun count entry => match entry.2 with | .got _ _ => count + 1 | .reset => 0) 0

def places [DecidableEq τ] (thread : τ) (served : List (τ × Answer π)) : List (Answer π) :=
  served.filterMap fun entry => if entry.1 = thread then some entry.2 else none

def completed [DecidableEq τ] (thread : τ) (returned : List (τ × Except Errno (Answer π))) : List (Answer π) :=
  returned.filterMap fun entry => if entry.1 = thread then entry.2.toOption else none

/-- A call that has left its critical section and has not returned. -/
def Thread.pending : Thread π → List (Answer π)
  | .returning (.ok answer) => [answer]
  | _ => []

/-- Each success has one place, taken before the call returns, and a failure has none. -/
def Matched [DecidableEq τ] (state : State τ π) : Prop :=
  ∀ thread, places thread state.served = completed thread state.returned ++ (state.threads thread).pending

structure Linearizable [DecidableEq τ] (config : Config) (state : State τ π) : Prop where
  values : ∀ before thread val value, before ++ [(thread, .got val value)] <+: state.served →
    value.val = config.startOffset.val + turn before * config.stepSize.val
  distinct : config.stepSize.val ≠ 0 → ∀ before first val value between second other later,
    before ++ (first, .got val value) :: between ++ [(second, .got other later)] <+: state.served →
    (∀ entry ∈ between, entry.2 ≠ .reset) → later ≠ value
  successor : ∀ before first val value second other later,
    before ++ [(first, .got val value), (second, .got other later)] <+: state.served →
    later.val = value.val + config.stepSize.val
  matched : Matched state

def Thread.failing : Thread π → Bool
  | .returning (.error _) => true
  | _ => false

structure Untouched (state next : State τ π) : Prop where
  counter : next.counter = state.counter
  lock : next.lock = state.lock
  memory : next.memory = state.memory
  served : next.served = state.served

def Thread.cell : Thread π → Option π
  | .locking (.get val) | .loading val | .storing val _ | .adding val | .counting val _
  | .unlocking (.get val) | .returning (.ok (.got val _)) => some val
  | .idle | .locking .reset | .resetting | .unlocking .reset | .returning (.ok .reset)
  | .returning (.error _) => none

/-- No two calls under way are given the same cell. -/
def Private (event : Event τ π) (state : State τ π) : Prop :=
  match event with
  | .call thread _ (.bavaCounterGet (some val)) =>
    ∀ other, other ≠ thread → (state.threads other).cell ≠ some val
  | _ => True

/-- A get that returns finds in its cell the value that it was served. -/
def Kept (state : State τ π) : Prop :=
  ∀ thread val value, state.threads thread = .returning (.ok (.got val value)) → state.memory val = value

end Order

end ZephyrTutorial.BavaCounter
