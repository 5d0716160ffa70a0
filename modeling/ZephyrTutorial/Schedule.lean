import ZephyrTutorial.Threads

/-! The scheduler lock demo: two threads of one priority below `main`, of which one holds the scheduler
lock while it logs and toggles the LED, and keeps it over a sleep. -/

namespace ZephyrTutorial.Schedule

inductive ThreadId
  | main | thread1 | thread2
  deriving DecidableEq, Repr

inductive Call
  | logInf (text : String)
  | logErr (text : String)
  | gpioIsReadyDt | gpioPinConfigureDt | gpioPinToggleDt
  | kSchedLock | kSchedUnlock
  | kMsleep (ms : Nat)
  /-- The return, with the value that `main` returns. -/
  | ret (value : Option Int)
  deriving DecidableEq, Repr

/-- Before each call of `main`, `thread_a` and `thread_b`. -/
inductive Place
  | isReady | notReady | configure | failed
  | logA | sleepA
  | lock | logB | toggle | sleepB | exit | unlock
  | returning (value : Option Int)
  | returned
  deriving DecidableEq, Repr

def call : Place → Option Call
  | .isReady => some .gpioIsReadyDt
  | .notReady => some (.logErr "LED DEVICE NOT READY ")
  | .configure => some .gpioPinConfigureDt
  | .failed => some (.logErr "Failed to configure LED : %d")
  | .logA => some (.logInf "I AM THREAD A")
  | .sleepA => some (.kMsleep 1000)
  | .lock => some .kSchedLock
  | .logB => some (.logInf "i am THREAD b")
  | .toggle => some .gpioPinToggleDt
  | .sleepB => some (.kMsleep 2000)
  | .exit => some (.logInf "I AM EXIT")
  | .unlock => some .kSchedUnlock
  | .returning value => some (.ret value)
  | .returned => none

/-- With what the call at the place has returned. -/
def next : Place → Int → Place
  | .isReady, ready => if ready ≠ 0 then .configure else .notReady
  | .notReady, _ => .returning (some 1)
  | .configure, ret => if ret ≠ 0 then .failed else .returning (some 0)
  -- The error is logged and not returned.
  | .failed, _ => .returning (some 0)
  | .logA, _ => .sleepA
  | .sleepA, _ => .logA
  | .lock, _ => .logB
  | .logB, _ => .toggle
  | .toggle, _ => .sleepB
  | .sleepB, _ => .exit
  | .exit, _ => .unlock
  | .unlock, _ => .returning none
  | .returning _, _ | .returned, _ => .returned

def app : Threads ThreadId Place Call Int where
  priority
    | .main => 0
    | .thread1 | .thread2 => 3
  call
  effect
    | .kMsleep _ | .ret _ => .block
    | .kSchedLock => .lock
    | .kSchedUnlock => .unlock
    | _ => .go
  next
  sliced _ := true

def start : ThreadId → Place
  | .main => .isReady
  | .thread1 => .logA
  | .thread2 => .lock

def boot : app.State := app.boot [.main, .thread1, .thread2] (by decide) start

end ZephyrTutorial.Schedule
