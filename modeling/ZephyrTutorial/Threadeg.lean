import ZephyrTutorial.Threads

/-! The thread demo: `main` configures the LED, a preemptible thread below it toggles it, and a cooperative
thread above both sleeps twice. -/

namespace ZephyrTutorial.Threadeg

inductive ThreadId
  | main | coop | preempt
  deriving DecidableEq, Repr

inductive Call
  | logInf (text : String)
  | logErr (text : String)
  | gpioIsReadyDt | gpioPinConfigureDt | gpioPinToggleDt
  | kMsleep (ms : Nat)
  | ret
  deriving DecidableEq, Repr

/-- Before each call of `main`, `coop_thread` and `preempt_thread`. -/
inductive Place
  | hello | isReady | notReady | configure | failed
  | coopRunning | coopSleep | coopFinished | coopSleepAgain
  | preemptRunning | toggle | preemptSleep
  | returning | returned
  deriving DecidableEq, Repr

def call : Place → Option Call
  | .hello => some (.logInf "Hello world")
  | .isReady => some .gpioIsReadyDt
  | .notReady | .failed => some (.logErr "GPIO")
  | .configure => some .gpioPinConfigureDt
  | .coopRunning => some (.logInf "COOPERATIVE THREAD IS RUNNING.")
  | .coopSleep | .coopSleepAgain => some (.kMsleep 3000)
  | .coopFinished => some (.logInf "COOPERATIVE THREAD TASK FINISHED.")
  | .preemptRunning => some (.logInf "PREEMPTIVE THREAD IS RUNNING.")
  | .toggle => some .gpioPinToggleDt
  | .preemptSleep => some (.kMsleep 500)
  | .returning => some .ret
  | .returned => none

/-- With what the call at the place has returned. -/
def next : Place → Int → Place
  | .hello, _ => .isReady
  | .isReady, ready => if ready ≠ 0 then .configure else .notReady
  | .notReady, _ => .configure
  | .configure, ret => if ret < 0 then .failed else .returning
  | .failed, _ => .returning
  | .coopRunning, _ => .coopSleep
  | .coopSleep, _ => .coopFinished
  | .coopFinished, _ => .coopSleepAgain
  | .coopSleepAgain, _ => .returning
  | .preemptRunning, _ => .toggle
  | .toggle, _ => .preemptSleep
  | .preemptSleep, _ => .toggle
  | .returning, _ | .returned, _ => .returned

def app : Threads ThreadId Place Call Int where
  priority
    | .main => 0
    | .coop => -2
    | .preempt => 1
  call
  effect
    | .kMsleep _ | .ret => .block
    | _ => .go
  next
  sliced _ := true

def start : ThreadId → Place
  | .main => .hello
  | .coop => .coopRunning
  | .preempt => .preemptRunning

def boot : app.State := app.boot [.main, .coop, .preempt] (by decide) start

end ZephyrTutorial.Threadeg
