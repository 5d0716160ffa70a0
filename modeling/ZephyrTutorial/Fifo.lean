import ZephyrTutorial.LinkedQueue
import ZephyrTutorial.Machine

/-! The fifo demo: a producer that cycles through the slots of `buffer_array`, and a consumer.
Each thread may be delayed at any statement, so a sleep is only a place where it can stay. -/

namespace ZephyrTutorial.Fifo

abbrev Slot := Fin 4

/-- The producer's loop, with `ptr` once it is set. -/
inductive Producer
  | picking
  | writing (ptr : Slot)
  | logging (ptr : Slot)
  | putting (ptr : Slot)
  | sleeping
  deriving DecidableEq, Repr

/-- The consumer's loop, with `rx_ptr` between the get and the log. -/
inductive Consumer
  | getting
  | logging (rxPtr : Slot)
  deriving DecidableEq, Repr

inductive Log
  | producerPushed (id : UInt32)
  | consumerReceived (id : UInt32)
  deriving DecidableEq, Repr

structure State where
  myFifo : LinkedQueue Slot
  ids : Slot → UInt32
  producer : Producer
  consumer : Consumer
  seq : UInt32
  log : List Log

def boot : State where
  myFifo := .empty
  ids := fun _ => 0
  producer := .picking
  consumer := .getting
  seq := 0
  log := []

/-- `seq % BUFFER` -/
def slotOf (seq : UInt32) : Slot :=
  ⟨(seq % 4).toNat, by rw [UInt32.toNat_mod]; exact Nat.mod_lt _ (by decide)⟩

inductive Event
  | pick | writeId | logPushed | kFifoPut | wake
  | kFifoGet | logReceived
  deriving DecidableEq, Repr

def step (event : Event) (state : State) : Option State :=
  match event with
  | .pick =>
    match state.producer with
    | .picking => some { state with producer := .writing (slotOf state.seq), seq := state.seq + 1 }
    | _ => none
  | .writeId =>
    match state.producer with
    | .writing ptr =>
      some { state with ids := Function.update state.ids ptr state.seq, producer := .logging ptr }
    | _ => none
  | .logPushed =>
    match state.producer with
    | .logging ptr =>
      some { state with log := state.log ++ [.producerPushed (state.ids ptr)], producer := .putting ptr }
    | _ => none
  | .kFifoPut =>
    match state.producer with
    | .putting ptr => some { state with myFifo := state.myFifo.append ptr, producer := .sleeping }
    | _ => none
  | .wake =>
    match state.producer with
    | .sleeping => some { state with producer := .picking }
    | _ => none
  | .kFifoGet =>
    match state.consumer, state.myFifo.get with
    | .getting, some (rxPtr, myFifo) => some { state with myFifo, consumer := .logging rxPtr }
    | _, _ => none
  | .logReceived =>
    match state.consumer with
    | .logging rxPtr =>
      some { state with log := state.log ++ [.consumerReceived (state.ids rxPtr)], consumer := .getting }
    | _ => none

/-- The item that the consumer has dequeued and not yet logged. -/
def Consumer.hand : Consumer → List Slot
  | .getting => []
  | .logging rxPtr => [rxPtr]

/-- The items that the producer may not touch, oldest first. -/
def outstanding (state : State) : List Slot := state.consumer.hand ++ state.myFifo.items

/-- The slot that the producer's step writes to: the id, or the link in a put. -/
def touched : Event → Producer → Option Slot
  | .writeId, .writing ptr | .kFifoPut, .putting ptr => some ptr
  | _, _ => none

def Safe (event : Event) (state : State) : Prop :=
  ∀ ptr ∈ touched event state.producer, ptr ∉ outstanding state

instance (event : Event) (state : State) : Decidable (Safe event state) :=
  inferInstanceAs (Decidable (∀ ptr ∈ touched event state.producer, ptr ∉ outstanding state))

def received (log : List Log) : List UInt32 :=
  log.filterMap fun | .consumerReceived id => some id | .producerPushed _ => none

/-- The id of the nth item, counted from 0. -/
def idOf (n : Nat) : UInt32 := UInt32.ofNat (n + 1)

structure Delivered (state : State) : Prop where
  once : state.myFifo.items.Nodup
  ids : received state.log = (List.range (received state.log).length).map idOf

/-- Fewer than four items are outstanding when the producer writes an id. -/
def HasSlot (event : Event) (state : State) : Prop :=
  match event, state.producer with
  | .writeId, .writing _ => (outstanding state).length < 4
  | _, _ => True

end ZephyrTutorial.Fifo
