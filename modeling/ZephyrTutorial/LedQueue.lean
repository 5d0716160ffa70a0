import ZephyrTutorial.Kernel
import ZephyrTutorial.Machine

/-! Two applications whose `main` submits `led_on` and `led_off` in turns: `workqueue`, with a
handler for each item, and `customq`, with one handler that looks at the item's status. -/

namespace ZephyrTutorial.LedQueue

inductive Item
  | ledOn | ledOff
  deriving DecidableEq, Repr

/-- The level that a submission of the item asks for. -/
def Item.request : Item → Bool
  | .ledOn => true
  | .ledOff => false

def Item.other : Item → Item
  | .ledOn => .ledOff
  | .ledOff => .ledOn

/-- The level of the LED after `gpio_pin_set_dt(&led, value)`. -/
def gpioPinSetDt (value : Int) : Bool := value != 0

namespace Workqueue

def ledOnHandler : Bool := gpioPinSetDt 1

def ledOffHandler : Bool := gpioPinSetDt 0

/-- `K_WORK_DEFINE` -/
def handler : Item → Bool
  | .ledOn => ledOnHandler
  | .ledOff => ledOffHandler

end Workqueue

namespace Customq

structure LedState where
  status : UInt8
  deriving DecidableEq, Repr

def ledOn : LedState := ⟨1⟩

def ledOff : LedState := ⟨0⟩

/-- `CONTAINER_OF(work, led_state, work)` -/
def containerOf : Item → LedState
  | .ledOn => ledOn
  | .ledOff => ledOff

def eventHandler (work : Item) : Bool :=
  if (containerOf work).status = 1 then gpioPinSetDt 1 else gpioPinSetDt 0

end Customq

inductive App
  | workqueue | customq
  deriving DecidableEq, Repr

def App.handler : App → Item → Bool
  | .workqueue => Workqueue.handler
  | .customq => Customq.eventHandler

inductive Main
  | submitting (item : Item)
  | sleeping (item : Item)
  | returned
  deriving DecidableEq, Repr

/-- `main` up to its loop, with the results of the two GPIO calls. -/
def Main.start (gpioIsReady : Bool) (ret : Int) : Main :=
  if gpioIsReady then
    if ret < 0 then .returned else .submitting .ledOn
  else .returned

inductive Worker
  | idle
  | entering (work : Item)
  | leaving
  deriving DecidableEq, Repr

structure State where
  main : Main
  work : Kernel.WorkQueue Item
  worker : Worker
  level : Bool
  submitted : List Item

def boot (gpioIsReady : Bool) (ret : Int) : State where
  main := .start gpioIsReady ret
  work := .init
  worker := .idle
  level := false
  submitted := []

inductive Event
  | kWorkSubmit | wake
  | dequeue | handle | leave
  deriving DecidableEq, Repr

def step (app : App) (event : Event) (state : State) : Option State :=
  match event with
  | .kWorkSubmit =>
    match state.main with
    -- What the call returns is ignored.
    | .submitting item => some { state with
        main := .sleeping item
        work := state.work.submit item
        submitted := state.submitted ++ [item] }
    | _ => none
  | .wake =>
    match state.main with
    | .sleeping item => some { state with main := .submitting item.other }
    | _ => none
  | .dequeue =>
    match state.worker, state.work.take with
    | .idle, some (item, work) => some { state with work, worker := .entering item }
    | _, _ => none
  | .handle =>
    match state.worker with
    | .entering item => some { state with level := app.handler item, worker := .leaving }
    | _ => none
  | .leave =>
    match state.worker with
    | .leaving => some { state with worker := .idle }
    | _ => none

/-- With nothing queued and no handler running, the level is the one requested last. -/
def Settled (state : State) : Prop :=
  state.work.items = [] → state.worker = .idle →
    ∀ item, state.submitted.getLast? = some item → state.level = item.request

/-- A submission does not find its item queued. -/
def Fresh (event : Event) (state : State) : Prop :=
  match event, state.main with
  | .kWorkSubmit, .submitting item => item ∉ state.work.items
  | _, _ => True

end ZephyrTutorial.LedQueue
