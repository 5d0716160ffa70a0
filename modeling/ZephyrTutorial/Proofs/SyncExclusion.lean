import ZephyrTutorial.Sync

/-! Who may touch the LED. Only one of its two writers ever takes the mutex, so the section
does not keep the other one out; the hand-over does, as long as it is served in time. -/

namespace ZephyrTutorial.Proofs.SyncExclusion
open ZephyrTutorial.Sync Machine Kernel

/-- Everything that a step can do, with the call that the thread was at. -/
inductive Took : ThreadId → State → State → Prop
  | lock {state : State} {syncMutex : Mutex ThreadId} (here : state.coop = .kMutexLock)
    (locked : state.syncMutex.lock .coop = some syncMutex) :
    Took .coop state { state with syncMutex, coop := .gpioPinSetDtOn }
  | switchOn {state : State} (here : state.coop = .gpioPinSetDtOn) :
    Took .coop state { state with led := true, coop := .gpioPinSetDtOff }
  | switchOff {state : State} (here : state.coop = .gpioPinSetDtOff) :
    Took .coop state { state with led := false, coop := .kSemGive }
  | give {state : State} (here : state.coop = .kSemGive) :
    Took .coop state { state with syncSem := state.syncSem.give, coop := .kMutexUnlock }
  | unlock {state : State} (here : state.coop = .kMutexUnlock) :
    Took .coop state { state with syncMutex := state.syncMutex.unlock .coop, coop := .kMsleep }
  | wake {state : State} (here : state.coop = .kMsleep) : Took .coop state { state with coop := .kMutexLock }
  | take {state : State} {syncSem : Sem 1} (here : state.preempt1 = .kSemTake)
    (counted : state.syncSem.count = syncSem.count + 1) :
    Took .preempt1 state { state with syncSem, preempt1 := .gpioPinToggleDt }
  | toggle {state : State} (here : state.preempt1 = .gpioPinToggleDt) :
    Took .preempt1 state { state with led := !state.led, preempt1 := .kSemTake }

theorem step_took {thread : ThreadId} {state next : State} (taken : step thread state = some next) :
    Took thread state next := by
  cases thread with
  | coop =>
    simp only [step] at taken
    split at taken
    next here =>
      obtain ⟨syncMutex, locked, rfl⟩ := Option.map_eq_some_iff.mp taken
      exact .lock here locked
    next here => cases taken; exact .switchOn here
    next here => cases taken; exact .switchOff here
    next here => cases taken; exact .give here
    next here => cases taken; exact .unlock here
    next here => cases taken; exact .wake here
  | preempt1 =>
    simp only [step] at taken
    split at taken
    next here =>
      obtain ⟨syncSem, counted, rfl⟩ := Option.map_eq_some_iff.mp taken
      exact .take here (Sem.take_eq_some.mp counted)
    next here => cases taken; exact .toggle here

/-- A quiet hand-over stays quiet for the whole on-phase, with the LED on. -/
def Undisturbed (state : State) : Prop := state.coop = .gpioPinSetDtOff → Quiet state ∧ state.led = true

private theorem undisturbed_step (thread : ThreadId) (state next : State) (kept : Undisturbed state)
    (served : Served thread state) (taken : step thread state = some next) : Undisturbed next := by
  cases step_took taken with
  | switchOn here => exact fun _ => ⟨served rfl here, rfl⟩
  | lock here locked => exact fun impossible => by cases impossible
  | switchOff here => exact fun impossible => by cases impossible
  | give here => exact fun impossible => by cases impossible
  | unlock here => exact fun impossible => by cases impossible
  | wake here => exact fun impossible => by cases impossible
  | take here counted =>
    intro shining
    have down := (kept shining).1.1
    rw [down] at counted
    cases counted
  | toggle here =>
    intro shining
    exact absurd (here.symm.trans (kept shining).1.2) nofun

/-- What is left of a hand-over when the LED goes on ends in a toggle of the lit LED. -/
private theorem late_toggle {state : State} (here : state.coop = .gpioPinSetDtOn) (busy : ¬ Quiet state) :
    ∃ drain final, (∀ thread ∈ drain, thread ≠ .coop) ∧ run step (.coop :: drain) state = some final ∧ ¬ Lit final := by
  cases place : state.preempt1 with
  | gpioPinToggleDt =>
    refine ⟨[.preempt1], { state with coop := .gpioPinSetDtOff, led := false, preempt1 := .kSemTake }, by decide, ?_, ?_⟩
    · simp [run, step, here, place]
    · exact fun lit => by cases lit rfl
  | kSemTake =>
    have bounded := state.syncSem.bounded
    have up : state.syncSem.count = 1 := by
      have given : state.syncSem.count ≠ 0 := fun down => busy ⟨down, place⟩
      omega
    obtain ⟨syncSem, took⟩ := state.syncSem.exists_take (by omega)
    refine ⟨[.preempt1, .preempt1],
      { state with coop := .gpioPinSetDtOff, led := false, preempt1 := .kSemTake, syncSem }, by decide, ?_, ?_⟩
    · simp [run, step, here, place, took]
    · exact fun lit => by cases lit rfl

private theorem served_tight : Tight step Served Undisturbed Lit (· ≠ .coop) where
  preserved := undisturbed_step
  enough _ kept shining := (kept shining).2
  free thread waits _ same := absurd same waits
  exposed thread state _ hasty := by
    simp only [Served, Classical.not_imp] at hasty
    obtain ⟨rfl, here, busy⟩ := hasty
    exact late_toggle here busy

/-- The LED is on in every on-phase of the run, and stays on however `preempt1_entry` goes on
from any state of it, exactly when no hand-over is left when the LED is switched on. -/
theorem lit_iff (schedule : List ThreadId) :
    (∀ first rest drain state, schedule = first ++ rest → .coop ∉ drain →
      run step (first ++ drain) boot = some state → Lit state) ↔
    Along step Served schedule boot := by
  have initial : Undisturbed boot := fun impossible => by cases impossible
  have rule := served_tight.iff_along initial schedule
  simpa only [ne_eq, List.forall_mem_ne'] using rule

/-- `preempt1_entry` takes the semaphore, and is held up until `coop_entry` has gone round. -/
def delayedToggle : List ThreadId :=
  [.coop, .coop, .coop, .coop, .preempt1, .coop, .coop, .coop, .coop, .preempt1]

/-- The LED goes dark inside the mutex section of the second round. -/
theorem toggled_in_section : ∃ state, run step delayedToggle boot = some state ∧
    state.coop = .gpioPinSetDtOff ∧ state.syncMutex.owner = some .coop ∧ ¬ Lit state := by
  refine ⟨_, rfl, rfl, rfl, ?_⟩
  exact fun lit => by cases lit rfl

end ZephyrTutorial.Proofs.SyncExclusion
