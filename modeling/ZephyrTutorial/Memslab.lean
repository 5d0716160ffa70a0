import Mathlib.Data.List.FinRange
import ZephyrTutorial.Machine

/-! The memory slab demo: a producer that sends blocks of `var` through `my_fifo` and a
consumer that hands them back. The slab is its free list, and the fifo an ordered list of
pointers; the links that the kernel threads through the items are not modelled. -/

namespace ZephyrTutorial.Memslab

/-- The blocks of the slab, and `&rx`, a word on the consumer's stack. -/
inductive Address
  | block (index : Fin 10)
  | rxVariable
  deriving DecidableEq, Repr

def Address.isBlock : Address → Bool
  | .block _ => true
  | .rxVariable => false

def blocks : List Address := (List.finRange 10).map .block

/-- The producer's loop, with `ptr` while it points to an allocated block. -/
inductive Producer
  | allocating
  | writing (ptr : Address)
  | putting (ptr : Address)
  | logging (ptr : Address)
  | sleeping
  deriving DecidableEq, Repr

/-- The consumer's loop, with `rx` between the get and the end of the free. -/
inductive Consumer
  | getting
  | logging (rx : Address)
  | freeing (rx : Address)
  deriving DecidableEq, Repr

inductive Log
  | producerPushed (id : UInt32)
  | consumerGot (id : UInt32)
  deriving DecidableEq, Repr

structure State where
  freeList : List Address
  fifo : List Address
  producer : Producer
  consumer : Consumer
  seq : UInt32
  ids : Address → UInt32
  log : List Log

def boot : State where
  freeList := blocks
  fifo := []
  producer := .allocating
  consumer := .getting
  seq := 0
  ids := fun _ => 0
  log := []

inductive Event
  | kMemSlabAlloc | writeId | kFifoPut | logPushed | wake
  | kFifoGet | logGot | kMemSlabFree
  deriving DecidableEq, Repr

/-- Both blocking calls wait forever, so they are steps that their list has to enable. -/
def step (event : Event) (state : State) : Option State :=
  match event with
  | .kMemSlabAlloc =>
    match state.producer, state.freeList with
    | .allocating, ptr :: freeList => some { state with freeList, producer := .writing ptr }
    | _, _ => none
  | .writeId =>
    match state.producer with
    | .writing ptr =>
      some { state with ids := Function.update state.ids ptr state.seq, producer := .putting ptr }
    | _ => none
  | .kFifoPut =>
    match state.producer with
    | .putting ptr => some { state with fifo := state.fifo ++ [ptr], producer := .logging ptr }
    | _ => none
  | .logPushed =>
    match state.producer with
    | .logging ptr => some { state with
        log := state.log ++ [.producerPushed (state.ids ptr)]
        seq := state.seq + 1
        producer := .sleeping }
    | _ => none
  | .wake =>
    match state.producer with
    | .sleeping => some { state with producer := .allocating }
    | _ => none
  | .kFifoGet =>
    match state.consumer, state.fifo with
    | .getting, rx :: fifo => some { state with fifo, consumer := .logging rx }
    | _, _ => none
  | .logGot =>
    match state.consumer with
    | .logging rx => some { state with
        log := state.log ++ [.consumerGot (state.ids rx)]
        consumer := .freeing rx }
    | _ => none
  | .kMemSlabFree =>
    match state.consumer with
    -- The argument is `(void *)&rx`, not `rx`.
    | .freeing _ => some { state with freeList := .rxVariable :: state.freeList, consumer := .getting }
    | _ => none

/-- The producer owns a block from the alloc to the put. -/
def Producer.hand : Producer → List Address
  | .writing ptr | .putting ptr => [ptr]
  | .allocating | .logging _ | .sleeping => []

/-- The consumer owns a block from the get to the free. -/
def Consumer.hand : Consumer → List Address
  | .logging rx | .freeing rx => [rx]
  | .getting => []

def holdings (state : State) : List Address :=
  state.freeList ++ (state.producer.hand ++ (state.fifo ++ state.consumer.hand))

/-- Every block is in exactly one place, and nothing else is in circulation. -/
structure Conserved (state : State) : Prop where
  once : ∀ index, (holdings state).count (.block index) = 1
  freeBlocks : ∀ ptr ∈ state.freeList, ptr ∈ blocks
  fifoBlocks : ∀ ptr ∈ state.fifo, ptr ∈ blocks
  freeOnce : state.freeList.Nodup
  fifoOnce : state.fifo.Nodup
  allocated : ∀ next, step .kMemSlabAlloc state = some next → ∀ ptr ∈ next.producer.hand, ptr ∈ blocks
  waiting : state.producer = .allocating → state.freeList = [] →
    state.fifo ≠ [] ∨ state.consumer.hand ≠ []

end ZephyrTutorial.Memslab
