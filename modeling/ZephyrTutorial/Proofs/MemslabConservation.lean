import Mathlib.Data.List.Perm.Basic
import ZephyrTutorial.Memslab

/-! Blocks move between four places. All steps but the free are permutations of what the
places hold; the free loses the block it was meant to give back, and for good. -/

namespace ZephyrTutorial.Proofs.MemslabConservation
open ZephyrTutorial.Memslab Machine

private theorem blocks_nodup : blocks.Nodup := by
  decide

private theorem mem_blocks (index : Fin 10) : .block index ∈ blocks :=
  List.mem_map.mpr ⟨index, List.mem_finRange index, rfl⟩

private theorem isBlock_of_mem {ptr : Address} (member : ptr ∈ blocks) : ptr.isBlock := by
  obtain ⟨index, _, rfl⟩ := List.mem_map.mp member
  rfl

/-- Everything that a step can do, with the pointer that it moves. -/
inductive Took : Event → State → State → Prop
  | alloc {state : State} {ptr : Address} {freeList : List Address} (here : state.producer = .allocating)
    (stored : state.freeList = ptr :: freeList) :
    Took .kMemSlabAlloc state { state with freeList, producer := .writing ptr }
  | write {state : State} {ptr : Address} (here : state.producer = .writing ptr) :
    Took .writeId state { state with ids := Function.update state.ids ptr state.seq, producer := .putting ptr }
  | put {state : State} {ptr : Address} (here : state.producer = .putting ptr) :
    Took .kFifoPut state { state with fifo := state.fifo ++ [ptr], producer := .logging ptr }
  | logPushed {state : State} {ptr : Address} (here : state.producer = .logging ptr) :
    Took .logPushed state { state with
      log := state.log ++ [.producerPushed (state.ids ptr)]
      seq := state.seq + 1
      producer := .sleeping }
  | wake {state : State} (here : state.producer = .sleeping) :
    Took .wake state { state with producer := .allocating }
  | get {state : State} {rx : Address} {fifo : List Address} (here : state.consumer = .getting)
    (stored : state.fifo = rx :: fifo) :
    Took .kFifoGet state { state with fifo, consumer := .logging rx }
  | logGot {state : State} {rx : Address} (here : state.consumer = .logging rx) :
    Took .logGot state { state with
      log := state.log ++ [.consumerGot (state.ids rx)]
      consumer := .freeing rx }
  | free {state : State} {rx : Address} (here : state.consumer = .freeing rx) :
    Took .kMemSlabFree state
      { state with freeList := .rxVariable :: state.freeList, consumer := .getting }

theorem step_took {event : Event} {state next : State} (taken : step event state = some next) :
    Took event state next := by
  unfold step at taken
  split at taken <;> split at taken <;> cases taken
  next ptr freeList here stored => exact .alloc here stored
  next ptr here => exact .write here
  next ptr here => exact .put here
  next ptr here => exact .logPushed here
  next here => exact .wake here
  next rx fifo here stored => exact .get here stored
  next rx here => exact .logGot here
  next rx here => exact .free here

private theorem step_moves {event : Event} {state next : State} (other : event ≠ .kMemSlabFree)
    (taken : step event state = some next) : (holdings next).Perm (holdings state) := by
  cases step_took taken with
  | alloc here stored =>
    simp only [holdings, here, stored, Producer.hand, List.nil_append, List.cons_append]
    exact List.perm_middle
  | write here => simp [holdings, here, Producer.hand]
  | put here =>
    simp only [holdings, here, Producer.hand, List.nil_append, List.append_assoc]
    exact List.Perm.append_left _ List.perm_middle
  | logPushed here => simp [holdings, here, Producer.hand]
  | wake here => simp [holdings, here, Producer.hand]
  | get here stored =>
    simp only [holdings, here, stored, Consumer.hand, List.append_nil]
    exact List.Perm.append_left _ (List.Perm.append_left _ List.perm_append_comm)
  | logGot here => simp [holdings, here, Consumer.hand]
  | free here => exact absurd rfl other

/-- The free takes the pointer out of the consumer's hand and puts another one in place. -/
private theorem free_replaces {state next : State} (taken : step .kMemSlabFree state = some next) :
    ∃ rx rest, (holdings state).Perm (rx :: rest) ∧ (holdings next).Perm (.rxVariable :: rest) := by
  cases step_took taken with
  | @free _ rx here =>
    refine ⟨rx, state.freeList ++ (state.producer.hand ++ state.fifo), ?_, ?_⟩
    · simp only [holdings, here, Consumer.hand, ← List.append_assoc]
      exact List.perm_append_comm
    · simp [holdings, Consumer.hand]

def circulating (state : State) : Nat := (holdings state).countP Address.isBlock

private theorem step_circulating (event : Event) (state next : State) (taken : step event state = some next) :
    circulating next ≤ circulating state := by
  by_cases freed : event = .kMemSlabFree
  · subst freed
    obtain ⟨rx, rest, before, after⟩ := free_replaces taken
    rw [circulating, circulating, before.countP_eq, after.countP_eq, List.countP_cons, List.countP_cons]
    simp [Address.isBlock]
  · exact Nat.le_of_eq ((step_moves freed taken).countP_eq _)

private theorem run_moves {schedule : List Event} (absent : .kMemSlabFree ∉ schedule) {state final : State}
    (ran : run step schedule state = some final) : (holdings final).Perm (holdings state) := by
  induction schedule generalizing state with
  | nil => cases ran; exact List.Perm.refl _
  | cons event rest ih =>
    simp only [List.mem_cons, not_or] at absent
    obtain ⟨next, taken, ran⟩ := run_cons.mp ran
    exact (ih absent.2 ran).trans (step_moves (Ne.symm absent.1) taken)

private theorem conserved_of_perm {state : State} (same : (holdings state).Perm blocks) : Conserved state := by
  have inside : ∀ ptr ∈ holdings state, ptr ∈ blocks := fun ptr => same.mem_iff.mp
  have distinct : (holdings state).Nodup := same.nodup_iff.mpr blocks_nodup
  have free : state.freeList.Sublist (holdings state) := List.sublist_append_left _ _
  have queued : state.fifo.Sublist (holdings state) :=
    ((List.sublist_append_left _ _).trans (List.sublist_append_right _ _)).trans
      (List.sublist_append_right _ _)
  refine ⟨?_, fun ptr member => inside ptr (free.subset member),
    fun ptr member => inside ptr (queued.subset member), free.nodup distinct, queued.nodup distinct, ?_, ?_⟩
  · intro index
    rw [same.count_eq]
    exact List.count_eq_one_of_mem blocks_nodup (mem_blocks index)
  · intro next taken ptr member
    apply inside ptr
    rw [← (step_moves (by decide) taken).mem_iff]
    simp [holdings, member]
  · intro allocating empty
    by_contra none
    simp only [not_or, ne_eq, not_not] at none
    have vanished : holdings state = [] := by
      simp [holdings, allocating, empty, none.1, none.2, Producer.hand]
    have length := same.length_eq
    rw [vanished] at length
    exact absurd length (by decide)

private theorem conserved_circulating {state : State} (conserved : Conserved state) :
    10 ≤ circulating state := by
  have contained : blocks.Subperm (holdings state) := by
    apply List.subperm_of_subset blocks_nodup
    intro ptr member
    obtain ⟨index, _, rfl⟩ := List.mem_map.mp member
    exact List.count_pos_iff.mp (by rw [conserved.once index]; decide)
  have ten : blocks.countP Address.isBlock = 10 := by decide
  exact ten ▸ contained.countP_le _

/-- In every state of every run, conservation holds exactly until the first free. -/
theorem conserved_iff (schedule : List Event) (state : State) (ran : run step schedule boot = some state) :
    Conserved state ↔ .kMemSlabFree ∉ schedule := by
  have booted : (holdings boot).Perm blocks := by simp [holdings, boot, Producer.hand, Consumer.hand]
  constructor
  · intro conserved freed
    obtain ⟨first, rest, rfl, absent⟩ := List.eq_append_cons_of_mem freed
    obtain ⟨middle, ranFirst, ranRest⟩ := run_split ran
    obtain ⟨after, taken, ranLater⟩ := run_cons.mp ranRest
    have whole : (holdings middle).Perm blocks := (run_moves absent ranFirst).trans booted
    obtain ⟨rx, others, before, now⟩ := free_replaces taken
    have given : rx.isBlock := isBlock_of_mem (whole.mem_iff.mp (before.mem_iff.mpr List.mem_cons_self))
    have ten : (rx :: others).countP Address.isBlock = 10 := by
      rw [← before.countP_eq, whole.countP_eq]
      decide
    have nine : circulating after ≤ 9 := by
      rw [circulating, now.countP_eq, List.countP_cons]
      rw [List.countP_cons, if_pos given] at ten
      simp [Address.isBlock]
      omega
    have last : circulating state ≤ 9 :=
      invariant (fun event before next bound taken => (step_circulating event before next taken).trans bound)
        nine ranLater
    have := conserved_circulating conserved
    omega
  · intro absent
    exact conserved_of_perm ((run_moves absent ran).trans booted)

theorem conserved_first_block : ∃ state, run step [.kMemSlabAlloc, .writeId, .kFifoPut, .kFifoGet] boot =
    some state ∧ Conserved state := by
  obtain ⟨state, ran⟩ : ∃ state, run step [.kMemSlabAlloc, .writeId, .kFifoPut, .kFifoGet] boot = some state :=
    ⟨_, rfl⟩
  exact ⟨state, ran, (conserved_iff _ state ran).mpr (by decide)⟩

/-- One block through the loop: it is lost, and the next alloc returns the address of `rx`. -/
theorem stack_address_allocated : ∃ state,
    run step [.kMemSlabAlloc, .writeId, .kFifoPut, .logPushed, .kFifoGet, .logGot, .kMemSlabFree, .wake,
      .kMemSlabAlloc] boot = some state ∧
    state.producer = .writing .rxVariable ∧ (holdings state).count (.block 0) = 0 ∧ ¬ Conserved state := by
  refine ⟨_, rfl, rfl, by decide, ?_⟩
  intro conserved
  exact absurd (conserved.once 0) (by decide)

end ZephyrTutorial.Proofs.MemslabConservation
