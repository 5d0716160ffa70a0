import Mathlib.Algebra.Order.Ring.Int
import Mathlib.Order.Lattice
import ZephyrTutorial.Machine
import ZephyrTutorial.MessageQueue

/-! The message queue demo: a sender that gives up on a put after a second, and a receiver that waits
for ever. Events have times, from any ordered ring; a sleep or a timeout may end late, never early. -/

namespace ZephyrTutorial.Msgq

universe u

inductive ThreadId
  | threadGet | threadSend
  deriving DecidableEq, Repr

/-- `msg_data_t` -/
structure MsgData where
  id : UInt32
  count : UInt8
  deriving DecidableEq, Repr

inductive Log
  | received (id : UInt32) (count : UInt8)
  | sent (id : UInt32)
  | failed (id : UInt32)
  deriving DecidableEq, Repr

/-- `get_handler`: before the get, blocked in it, or with a message before the log. -/
inductive Receiver
  | getting
  | waiting
  | logging (msg : MsgData)
  deriving DecidableEq, Repr

/-- `send_handler`: before the put, blocked in it, after it with its result, or in the pause. -/
inductive Sender (T : Type u)
  | putting
  | waiting (due : T)
  | logging (success : Bool)
  | sleeping (due : T)
  | returned
  deriving DecidableEq, Repr

structure State (T : Type u) where
  now : T
  myMsgq : MessageQueue ThreadId MsgData 5
  receiver : Receiver
  sender : Sender T
  i : UInt32
  log : List Log
  /-- The last get, or the put into an empty buffer after it. -/
  served : T

inductive Action
  | kMsgqPut | timeout | logPut | wake
  | kMsgqGet | logGet
  deriving DecidableEq, Repr

structure Event (T : Type u) where
  time : T
  action : Action
  deriving DecidableEq, Repr

/-- `{ .id = i, .count = (uint8_t)(i % 256) }` -/
def msgData (i : UInt32) : MsgData := ⟨i, (i % 256).toUInt8⟩

variable {T : Type u}

def boot (start : T) : State T := ⟨start, .init, .getting, .putting, 0, [], start⟩

/-- Times are in milliseconds. -/
def kMsec [NatCast T] (ms : Nat) : T := ms

section Step
variable [Ring T] [LinearOrder T]

def kMsgqPut (time : T) (state : State T) : State T :=
  let (result, myMsgq) := state.myMsgq.put .threadSend (msgData state.i)
  match result with
  | .stored =>
    { state with
      myMsgq
      sender := .logging true
      served := if state.myMsgq.items = [] then time else state.served }
  | .handed _ => { state with myMsgq, sender := .logging true, receiver := .logging (msgData state.i) }
  | .waiting => { state with myMsgq, sender := .waiting (time + kMsec 1000) }

def kMsgqGet (time : T) (state : State T) : State T :=
  let (result, myMsgq) := state.myMsgq.get .threadGet
  match result with
  | .got msg released =>
    { state with
      myMsgq
      receiver := .logging msg
      sender := if released = some .threadSend then .logging true else state.sender
      served := time }
  | .waiting => { state with myMsgq, receiver := .waiting }

def step (event : Event T) (state : State T) : Option (State T) :=
  if state.now ≤ event.time then
    let state := { state with now := event.time }
    match event.action, state.sender, state.receiver with
    | .kMsgqPut, .putting, _ => some (kMsgqPut event.time state)
    | .timeout, .waiting due, _ =>
      if due ≤ event.time then
        some { state with myMsgq := state.myMsgq.cancel .threadSend, sender := .logging false }
      else none
    | .logPut, .logging success, _ =>
      some { state with
        log := state.log ++ [if success then .sent state.i else .failed state.i]
        sender := .sleeping (event.time + kMsec 500) }
    | .wake, .sleeping due, _ =>
      if due ≤ event.time then
        some { state with i := state.i + 1, sender := if state.i + 1 < 1000 then .putting else .returned }
      else none
    | .kMsgqGet, _, .getting => some (kMsgqGet event.time state)
    | .logGet, _, .logging msg =>
      some { state with log := state.log ++ [.received msg.id msg.count], receiver := .getting }
    | _, _, _ => none
  else none

end Step

def received (log : List Log) : List MsgData :=
  log.filterMap fun | .received id count => some ⟨id, count⟩ | _ => none

/-- The ids that the sender has reported on, with what it reported. -/
def reports (log : List Log) : List (UInt32 × Bool) :=
  log.filterMap fun | .sent id => some (id, true) | .failed id => some (id, false) | .received _ _ => none

/-- The message that the receiver has and has not logged yet. -/
def Receiver.hand : Receiver → List MsgData
  | .logging msg => [msg]
  | .getting | .waiting => []

/-- The result of a put that has not been logged yet. -/
def Sender.report (i : UInt32) : Sender T → List (UInt32 × Bool)
  | .logging success => [(i, success)]
  | .putting | .waiting _ | .sleeping _ | .returned => []

/-- How the puts so far have ended, in order. -/
def outcomes (state : State T) : List (UInt32 × Bool) := reports state.log ++ state.sender.report state.i

def accepted (outcomes : List (UInt32 × Bool)) : List MsgData :=
  outcomes.filterMap fun outcome => if outcome.2 then some (msgData outcome.1) else none

/-- The puts have been tried with the ids from 0 on, and what has been received, what the receiver
has in hand and what lies in the buffer are the messages of the successful ones, in order. -/
structure Delivered (state : State T) : Prop where
  attempts : ∃ count ≤ 1000, (outcomes state).map Prod.fst = (List.range count).map UInt32.ofNat
  order : received state.log ++ (state.receiver.hand ++ state.myMsgq.items) = accepted (outcomes state)

/-- No time passes to 1500 ms after the last get, or after the buffer has begun to fill, while a
message lies in the buffer. -/
def Served [Ring T] [LinearOrder T] (event : Event T) (state : State T) : Prop :=
  state.myMsgq.items ≠ [] → event.time < state.served + kMsec 1500

instance [Ring T] [LinearOrder T] (event : Event T) (state : State T) : Decidable (Served event state) :=
  inferInstanceAs (Decidable (state.myMsgq.items ≠ [] → event.time < state.served + kMsec 1500))

end ZephyrTutorial.Msgq
