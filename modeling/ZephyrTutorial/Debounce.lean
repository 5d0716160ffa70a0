import Mathlib.Algebra.Order.Ring.Cast
import Mathlib.Data.List.SplitBy
import ZephyrTutorial.Kernel
import ZephyrTutorial.Machine

/-! The button interrupt, its debouncing timeout, and the handler on the system work queue.
Each event has a time, and the time may be any ordered ring: milliseconds, ticks, or reals. -/

namespace ZephyrTutorial.Debounce

universe u

/-- The only item that this application gives to the system work queue. -/
inductive Item
  | workStruct
  deriving DecidableEq, Repr

/-- The thread of the work queue: outside the handler, before its read of the button, or after it. -/
inductive Worker
  | idle | entering | leaving
  deriving DecidableEq, Repr

inductive Action
  /-- An edge of the button, which enters `isr_handle`. -/
  | isrHandle
  /-- The pending timeout expires. -/
  | expire
  | dequeue
  /-- `work_handle` reads the button and toggles the LED. -/
  | workHandle
  | leave
  deriving DecidableEq, Repr

structure Event (T : Type u) where
  time : T
  action : Action
  deriving DecidableEq, Repr

structure State (T : Type u) where
  now : T
  /-- When the timeout of `work_struct` is due, if it has one. -/
  pending : Option T
  work : Kernel.WorkQueue Item
  worker : Worker
  led : Bool
  /-- The edges and the toggles so far. -/
  edges : List T
  toggles : List T

variable {T : Type u}

def boot (start : T) : State T := ⟨start, none, .init, .idle, false, [], []⟩

section Step
variable [Ring T] [LinearOrder T]

/-- No time passes beyond a pending timeout without its expiry. -/
def onTime (pending : Option T) (time : T) : Bool :=
  match pending with
  | none => true
  | some due => time ≤ due

/-- `k_work_reschedule(&work_struct, K_MSEC(500))`: the timeout starts anew, queued or not. -/
def kWorkReschedule (time : T) (state : State T) : State T := { state with pending := some (time + 500) }

def isrHandle (time : T) (state : State T) : State T :=
  kWorkReschedule time { state with edges := state.edges ++ [time] }

/-- Only the logical level 1 toggles the LED; errors are negative. -/
def workHandle (button : T → Int) (time : T) (state : State T) : State T :=
  let value := button time
  if value = 1 then { state with led := !state.led, toggles := state.toggles ++ [time] } else state

/-- Events come in the order of their times, and a timeout before the other events of its time. -/
def step (button : T → Int) (event : Event T) (state : State T) : Option (State T) :=
  if state.now ≤ event.time ∧ onTime state.pending event.time then
    let state := { state with now := event.time }
    match event.action with
    | .isrHandle => if state.pending = some event.time then none else some (isrHandle event.time state)
    | .expire =>
      if state.pending = some event.time then
        some { state with pending := none, work := state.work.submit .workStruct }
      else none
    | .dequeue =>
      match state.worker, state.work.take with
      | .idle, some (_, work) => some { state with work, worker := .entering }
      | _, _ => none
    | .workHandle =>
      if state.worker = .entering then
        some { workHandle button event.time state with worker := .leaving }
      else none
    | .leave => if state.worker = .leaving then some { state with worker := .idle } else none
  else none

/-- Two edges of one burst. -/
def near (edge next : T) : Bool := next < edge + 500

def bursts (edges : List T) : List (List T) := edges.splitBy near

/-- When the LED has to be toggled for a burst: 500 ms after its last edge if the button is
active then. -/
def answer (button : T → Int) (burst : List T) : Option T :=
  burst.getLast?.bind fun last => if button (last + 500) = 1 then some (last + 500) else none

/-- Nothing is queued and no handler runs. -/
def Settled (state : State T) : Prop := state.work.items = [] ∧ state.worker = .idle

/-- Zero latency: the handler runs at the time of the expiry, before anything else happens. -/
def Prompt (event : Event T) (state : State T) : Prop :=
  match event.action with
  | .isrHandle | .expire => Settled state
  | .dequeue | .workHandle | .leave => event.time = state.now

end Step

end ZephyrTutorial.Debounce
