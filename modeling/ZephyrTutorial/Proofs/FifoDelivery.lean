import ZephyrTutorial.Fifo

/-! The slots of the items between the last logged id and the next put form a window of
the cycle. While the window is shorter than the array, its slots are distinct. -/

namespace ZephyrTutorial.Proofs.FifoDelivery
open ZephyrTutorial.Fifo Machine

def slot (n : Nat) : Slot := ⟨n % 4, Nat.mod_lt n (by decide)⟩

private theorem slot_ne {first second : Nat} (less : first < second) (near : second < first + 4) :
    slot first ≠ slot second := by
  intro same
  have same : first % 4 = second % 4 := congrArg Fin.val same
  omega

private theorem slotOf_ofNat (n : Nat) : slotOf (UInt32.ofNat n) = slot n := by
  apply Fin.ext
  simp only [slotOf, slot, UInt32.toNat_mod, UInt32.toNat_ofNat']
  show n % 2 ^ 32 % 4 = n % 4
  omega

def window (first last : Nat) : List Slot := (List.range' first (last - first)).map slot

private theorem mem_window {first last : Nat} {place : Slot} :
    place ∈ window first last ↔ ∃ n, first ≤ n ∧ n < last ∧ slot n = place := by
  simp only [window, List.mem_map, List.mem_range'_1]
  constructor
  · rintro ⟨n, bounds, rfl⟩
    exact ⟨n, bounds.1, by omega, rfl⟩
  · rintro ⟨n, start, stop, rfl⟩
    exact ⟨n, ⟨start, by omega⟩, rfl⟩

private theorem window_snoc {first last : Nat} (ordered : first ≤ last) :
    window first (last + 1) = window first last ++ [slot last] := by
  rw [window, Nat.succ_sub ordered, List.range'_concat, List.map_append]
  simp [window, Nat.add_sub_cancel' ordered]

private theorem window_cons {first last : Nat} (ordered : first < last) :
    window first last = slot first :: window (first + 1) last := by
  rw [window, show last - first = last - (first + 1) + 1 by omega, List.range'_succ]
  rfl

/-- The next slot is in the window exactly when the window is the whole cycle. -/
private theorem next_mem_window {first last : Nat} (bounded : last ≤ first + 4) :
    slot last ∈ window first last ↔ ¬ last < first + 4 := by
  rw [mem_window]
  constructor
  · rintro ⟨n, start, stop, same⟩ near
    exact slot_ne stop (by omega) same
  · intro full
    refine ⟨first, Nat.le_refl first, by omega, ?_⟩
    apply Fin.ext
    show first % 4 = last % 4
    omega

/-- The producer works on the item that comes next. Once it has written the id, there is room. -/
def Produces (put logged : Nat) (seq : UInt32) (ids : Slot → UInt32) : Producer → Prop
  | .picking | .sleeping => seq = UInt32.ofNat put
  | .writing ptr => ptr = slot put ∧ seq = UInt32.ofNat (put + 1)
  | .logging ptr | .putting ptr => ptr = slot put ∧ seq = UInt32.ofNat (put + 1) ∧
    put < logged + 4 ∧ ids ptr = idOf put

def Consumes (got logged : Nat) : Consumer → Prop
  | .getting => got = logged
  | .logging rxPtr => got = logged + 1 ∧ rxPtr = slot logged

theorem Produces.later {put logged : Nat} {seq : UInt32} {ids : Slot → UInt32} {producer : Producer}
    (produces : Produces put logged seq ids producer) : Produces put (logged + 1) seq ids producer := by
  cases producer with
  | picking => exact produces
  | writing ptr => exact produces
  | logging ptr => exact ⟨produces.1, produces.2.1, Nat.lt_succ_of_lt produces.2.2.1, produces.2.2.2⟩
  | putting ptr => exact ⟨produces.1, produces.2.1, Nat.lt_succ_of_lt produces.2.2.1, produces.2.2.2⟩
  | sleeping => exact produces

/-- After `put` puts, `got` gets and `logged` logged ids. -/
structure Ring (state : State) (put got logged : Nat) : Prop where
  producer : Produces put logged state.seq state.ids state.producer
  consumer : Consumes got logged state.consumer
  queued : state.myFifo.Represents (window got put)
  ordered : got ≤ put
  bounded : put ≤ logged + 4
  ids : ∀ n, logged ≤ n → n < put → state.ids (slot n) = idOf n
  inOrder : received state.log = (List.range logged).map idOf

private theorem Ring.outstanding_eq {state : State} {put got logged : Nat} (ring : Ring state put got logged) :
    outstanding state = window logged put := by
  have consumer := ring.consumer
  have ordered := ring.ordered
  rw [outstanding, ring.queued.items_eq]
  cases place : state.consumer with
  | getting =>
    rw [place] at consumer
    cases consumer
    rfl
  | logging rxPtr =>
    rw [place] at consumer
    obtain ⟨rfl, rfl⟩ := consumer
    rw [window_cons ordered]
    rfl

private theorem Ring.logged_le {state : State} {put got logged : Nat} (ring : Ring state put got logged) :
    logged ≤ got := by
  have consumer := ring.consumer
  cases place : state.consumer <;> rw [place] at consumer
  · exact consumer.ge
  · exact consumer.1 ▸ Nat.le_succ logged

theorem Ring.room {state : State} {put got logged : Nat} (ring : Ring state put got logged) :
    (outstanding state).length < 4 ↔ put < logged + 4 := by
  rw [ring.outstanding_eq, window, List.length_map, List.length_range']
  omega

private theorem received_append (log : List Log) (entry : Log) :
    received (log ++ [entry]) = received log ++ received [entry] := List.filterMap_append

/-- The next item goes to the end of the queue, since its slot is not in the window. -/
private theorem Ring.appended {state : State} {put got logged : Nat} (ring : Ring state put got logged)
    (near : put < logged + 4) : (state.myFifo.append (slot put)).Represents (window got (put + 1)) := by
  have behind := ring.logged_le
  rw [window_snoc ring.ordered]
  apply ring.queued.append
  rw [mem_window]
  rintro ⟨n, start, stop, same⟩
  exact slot_ne stop (by omega) same

/-- What the queue yields is the oldest item of the window. -/
private theorem Ring.fetched {state : State} {put got logged : Nat} (ring : Ring state put got logged) {rxPtr : Slot}
    {rest : LinkedQueue Slot} (stored : state.myFifo.get = some (rxPtr, rest)) :
    got < put ∧ rxPtr = slot got ∧ rest.Represents (window (got + 1) put) := by
  have queued := ring.queued
  rcases Nat.eq_or_lt_of_le ring.ordered with same | waiting
  · rw [same, window, Nat.sub_self] at queued
    exact absurd (queued.get_nil.symm.trans stored) nofun
  · rw [window_cons waiting] at queued
    obtain ⟨later, found, represents⟩ := queued.get
    cases stored.symm.trans found
    exact ⟨waiting, rfl, represents⟩

/-- Everything that a step can do. -/
inductive Took : Event → State → State → Prop
  | pick {state : State} (here : state.producer = .picking) :
    Took .pick state { state with producer := .writing (slotOf state.seq), seq := state.seq + 1 }
  | writeId {state : State} {ptr : Slot} (here : state.producer = .writing ptr) :
    Took .writeId state { state with ids := Function.update state.ids ptr state.seq, producer := .logging ptr }
  | logPushed {state : State} {ptr : Slot} (here : state.producer = .logging ptr) :
    Took .logPushed state
      { state with log := state.log ++ [.producerPushed (state.ids ptr)], producer := .putting ptr }
  | kFifoPut {state : State} {ptr : Slot} (here : state.producer = .putting ptr) :
    Took .kFifoPut state { state with myFifo := state.myFifo.append ptr, producer := .sleeping }
  | wake {state : State} (here : state.producer = .sleeping) :
    Took .wake state { state with producer := .picking }
  | kFifoGet {state : State} {rxPtr : Slot} {myFifo : LinkedQueue Slot} (here : state.consumer = .getting)
    (stored : state.myFifo.get = some (rxPtr, myFifo)) :
    Took .kFifoGet state { state with myFifo, consumer := .logging rxPtr }
  | logReceived {state : State} {rxPtr : Slot} (here : state.consumer = .logging rxPtr) :
    Took .logReceived state
      { state with log := state.log ++ [.consumerReceived (state.ids rxPtr)], consumer := .getting }

theorem step_took {event : Event} {state next : State} (taken : step event state = some next) :
    Took event state next := by
  unfold step at taken
  split at taken <;> split at taken <;> cases taken
  next here => exact .pick here
  next ptr here => exact .writeId here
  next ptr here => exact .logPushed here
  next ptr here => exact .kFifoPut here
  next here => exact .wake here
  next here stored => exact .kFifoGet here stored
  next rxPtr here => exact .logReceived here

private theorem ring_step {event : Event} {state next : State} {put got logged : Nat}
    (ring : Ring state put got logged) (room : HasSlot event state) (taken : step event state = some next) :
    ∃ put got logged, Ring next put got logged := by
  have producer := ring.producer
  have consumer := ring.consumer
  cases step_took taken with
  | pick here =>
    rw [here] at producer
    refine ⟨put, got, logged, ⟨?_, ?_⟩, consumer, ring.queued, ring.ordered, ring.bounded, ring.ids, ring.inOrder⟩
    · rw [producer, slotOf_ofNat]
    · show state.seq + 1 = _
      rw [producer, ← UInt32.ofNat_one, UInt32.ofNat_add]
  | writeId here =>
    rw [here] at producer
    simp only [HasSlot, here] at room
    obtain ⟨rfl, seq⟩ := producer
    have near : put < logged + 4 := ring.room.mp room
    refine ⟨put, got, logged, ⟨rfl, seq, near, ?_⟩, consumer, ring.queued, ring.ordered, ring.bounded, ?_,
      ring.inOrder⟩
    · exact (Function.update_self ..).trans seq
    · intro n start stop
      exact (Function.update_of_ne (slot_ne stop (by omega)) ..).trans (ring.ids n start stop)
  | logPushed here =>
    rw [here] at producer
    refine ⟨put, got, logged, producer, consumer, ring.queued, ring.ordered, ring.bounded, ring.ids, ?_⟩
    rw [received_append, ring.inOrder]
    exact List.append_nil _
  | kFifoPut here =>
    rw [here] at producer
    obtain ⟨rfl, seq, near, id⟩ := producer
    refine ⟨put + 1, got, logged, seq, consumer, ring.appended near, Nat.le_succ_of_le ring.ordered, near, ?_,
      ring.inOrder⟩
    intro n start stop
    obtain rfl | earlier := Nat.eq_or_lt_of_le (Nat.le_of_lt_succ stop)
    · exact id
    · exact ring.ids n start earlier
  | wake here =>
    rw [here] at producer
    exact ⟨put, got, logged, producer, consumer, ring.queued, ring.ordered, ring.bounded, ring.ids, ring.inOrder⟩
  | kFifoGet here stored =>
    rw [here] at consumer
    subst consumer
    obtain ⟨waiting, rfl, represents⟩ := ring.fetched stored
    exact ⟨put, got + 1, got, producer, ⟨rfl, rfl⟩, represents, waiting, ring.bounded, ring.ids, ring.inOrder⟩
  | logReceived here =>
    rw [here] at consumer
    obtain ⟨rfl, rfl⟩ := consumer
    have ordered := ring.ordered
    refine ⟨put, logged + 1, logged + 1, producer.later, rfl, ring.queued, ordered,
      Nat.le_succ_of_le ring.bounded, ?_, ?_⟩
    · exact fun n start stop => ring.ids n (Nat.le_of_succ_le start) stop
    · rw [received_append, ring.inOrder, ring.ids logged (Nat.le_refl _) ordered, List.range_succ, List.map_append]
      rfl

private theorem Ring.safe_iff {state : State} {put got logged : Nat} (ring : Ring state put got logged)
    (event : Event) : Safe event state ↔ HasSlot event state := by
  have producer := ring.producer
  have room := ring.room
  rw [ring.outstanding_eq] at room
  simp only [Safe, HasSlot, ring.outstanding_eq]
  cases place : state.producer with
  | writing ptr =>
    rw [place] at producer
    cases event with
    | writeId => simp [touched, producer.1, next_mem_window ring.bounded, room]
    | _ => simp [touched]
  | putting ptr =>
    rw [place] at producer
    cases event with
    | kFifoPut => simp [touched, producer.1, next_mem_window ring.bounded, producer.2.2.1]
    | _ => simp [touched]
  | _ => cases event <;> simp [touched]

theorem Ring.delivered {state : State} {put got logged : Nat} (ring : Ring state put got logged) :
    Delivered state := by
  have length : (received state.log).length = logged := by
    rw [ring.inOrder, List.length_map, List.length_range]
  refine ⟨?_, length.symm ▸ ring.inOrder⟩
  rw [ring.queued.items_eq]
  exact ring.queued.distinct

def Reached (state : State) : Prop := ∃ put got logged, Ring state put got logged

private theorem reached_boot : Reached boot :=
  ⟨0, 0, 0, rfl, rfl, LinkedQueue.represents_empty, Nat.le_refl 0, Nat.zero_le 4,
    fun n _ stop => absurd stop (Nat.not_lt_zero n), rfl⟩

private theorem reached_step (event : Event) (state next : State) (reached : Reached state)
    (room : HasSlot event state) (taken : step event state = some next) : Reached next := by
  obtain ⟨put, got, logged, ring⟩ := reached
  exact ring_step ring room taken

theorem reached_safe_iff {state : State} (reached : Reached state) (event : Event) :
    Safe event state ↔ HasSlot event state := by
  obtain ⟨put, got, logged, ring⟩ := reached
  exact ring.safe_iff event

private theorem along_safe_iff (schedule : List Event) :
    Along step Safe schedule boot ↔ Along step HasSlot schedule boot :=
  along_congr reached_step (fun event _ reached => reached_safe_iff reached event) reached_boot

/-- A run delivers every id in order and touches no outstanding slot exactly when there is
a free slot whenever the producer writes. -/
theorem delivered_iff (schedule : List Event) :
    (Along step Safe schedule boot ∧ ∀ first rest state, schedule = first ++ rest →
      run step first boot = some state → Delivered state) ↔ Along step HasSlot schedule boot := by
  rw [along_safe_iff]
  refine ⟨And.left, fun room => ⟨room, ?_⟩⟩
  rintro first rest state rfl ran
  obtain ⟨put, got, logged, ring⟩ := room.invariant_prefix reached_step reached_boot ran
  exact ring.delivered

def push : List Event := [.pick, .writeId, .logPushed, .kFifoPut, .wake]

/-- The consumer sleeps for five items: the fifth is written over the first, and the put cuts
the other three off. -/
theorem fifth_overwrites_first :
    ¬ Along step Safe (push ++ push ++ push ++ push ++ push) boot ∧
    ∃ state, run step (push ++ push ++ push ++ push ++ push ++ [.kFifoGet, .logReceived]) boot = some state ∧
      received state.log = [5] ∧ state.myFifo.items = [] ∧ ¬ Delivered state := by
  refine ⟨by decide, _, rfl, by decide, by decide, ?_⟩
  intro delivered
  exact absurd delivered.ids (by decide)

end ZephyrTutorial.Proofs.FifoDelivery
