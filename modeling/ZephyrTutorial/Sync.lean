import ZephyrTutorial.Kernel
import ZephyrTutorial.Machine

/-! The synchronization application. `coop_entry` drives the LED inside a mutex section and
gives a semaphore at its end; `preempt1_entry` takes the semaphore and toggles the LED. A
ready thread may wait for any time before it runs, so the steps interleave freely. -/

namespace ZephyrTutorial.Sync

inductive ThreadId
  | coop | preempt1
  deriving DecidableEq, Repr

/-- The next call of `coop_entry`. -/
inductive Coop
  | kMutexLock
  | gpioPinSetDtOn
  /-- In the on-phase, before `gpio_pin_set_dt(&led, 0)`. -/
  | gpioPinSetDtOff
  | kSemGive
  | kMutexUnlock
  | kMsleep
  deriving DecidableEq, Repr

/-- The next call of `preempt1_entry`. -/
inductive Preempt1
  | kSemTake
  | gpioPinToggleDt
  deriving DecidableEq, Repr

structure State where
  coop : Coop
  preempt1 : Preempt1
  syncMutex : Kernel.Mutex ThreadId
  syncSem : Kernel.Sem 1
  led : Bool

/-- After `main` has configured the pin as an inactive output. -/
def boot : State where
  coop := .kMutexLock
  preempt1 := .kSemTake
  syncMutex := .init
  syncSem := .down
  led := false

/-- The thread makes its next call; a call that blocks has no next state. -/
def step (thread : ThreadId) (state : State) : Option State :=
  match thread with
  | .coop =>
    match state.coop with
    | .kMutexLock =>
      (state.syncMutex.lock .coop).map fun syncMutex => { state with syncMutex, coop := .gpioPinSetDtOn }
    | .gpioPinSetDtOn => some { state with led := true, coop := .gpioPinSetDtOff }
    | .gpioPinSetDtOff => some { state with led := false, coop := .kSemGive }
    | .kSemGive => some { state with syncSem := state.syncSem.give, coop := .kMutexUnlock }
    | .kMutexUnlock => some { state with syncMutex := state.syncMutex.unlock .coop, coop := .kMsleep }
    | .kMsleep => some { state with coop := .kMutexLock }
  | .preempt1 =>
    match state.preempt1 with
    | .kSemTake =>
      state.syncSem.take.map fun syncSem => { state with syncSem, preempt1 := .gpioPinToggleDt }
    | .gpioPinToggleDt => some { state with led := !state.led, preempt1 := .kSemTake }

/-- In the on-phase the LED is on. -/
def Lit (state : State) : Prop := state.coop = .gpioPinSetDtOff → state.led = true

/-- Nothing that was given is left: the semaphore is down and its taker waits for it again. -/
def Quiet (state : State) : Prop := state.syncSem.count = 0 ∧ state.preempt1 = .kSemTake

/-- The LED is not switched on before the last hand-over has been served to its end. -/
def Served (thread : ThreadId) (state : State) : Prop :=
  thread = .coop → state.coop = .gpioPinSetDtOn → Quiet state

end ZephyrTutorial.Sync
