import Mathlib.Tactic.Linarith
import ZephyrTutorial.Proofs.BavaCounterLock

/-! What the clients see. Every success has one place in the order of the critical sections,
a get finds its value in its own cell, and a failing call leaves no trace. -/

namespace ZephyrTutorial.Proofs.BavaCounterLinear
open ZephyrTutorial.BavaCounter BavaCounterLock Machine

universe u v

variable {τ : Type u} {π : Type v} {config : Config} {event : Event τ π} {state next : State τ π}

private theorem pending_start (entered : Except Errno (Body π)) : (Thread.start entered).pending = [] := by
  cases entered <;> rfl

private theorem pending_locked (body : Body π) : (Thread.locked body).pending = [] := by
  cases body <;> rfl

private theorem cell_start {dev : Device} {call : Call π} {val : π}
    (given : (Thread.start (call.enter dev)).cell = some val) : call = .bavaCounterGet (some val) := by
  cases call with
  | bavaCounterGet pointer =>
    simp only [Call.enter, BavaCounter.bavaCounterGet] at given
    split at given
    next =>
      split at given
      next => cases given
      next =>
        cases pointer with
        | none => cases given
        | some cell => cases given; rfl
    next => cases given
  | bavaCounterReset =>
    simp only [Call.enter, BavaCounter.bavaCounterReset] at given
    split at given
    next => split at given <;> cases given
    next => cases given

/-- The calls under way have cells of their own. -/
def Apart (state : State τ π) : Prop :=
  ∀ thread other val, other ≠ thread → (state.threads thread).cell = some val →
    (state.threads other).cell ≠ some val

private theorem separate_init (config : Config) (memory : π → CInt) :
    Apart (bavaCounterInit config memory : State τ π) ∧ Kept (bavaCounterInit config memory : State τ π) := by
  refine ⟨fun thread other val different given => ?_, fun thread val value returning => ?_⟩
  · cases given
  · cases returning

variable [DecidableEq τ]

private theorem matched_stay (matched : Matched state) {thread : τ} {place : Thread π} (other : State τ π)
    (served : other.served = state.served) (returned : other.returned = state.returned)
    (threads : other.threads = Function.update state.threads thread place)
    (quiet : place.pending = (state.threads thread).pending) : Matched other := by
  intro current
  rw [served, returned, threads, matched current]
  by_cases same : current = thread
  · rw [same, Function.update_self, quiet]
  · rw [Function.update_of_ne same]

theorem Apart.move (apart : Apart state) {thread : τ} {place : Thread π} (after : State τ π)
    (threads : after.threads = Function.update state.threads thread place)
    (fresh : ∀ val, place.cell = some val → ∀ other, other ≠ thread → (state.threads other).cell ≠ some val) :
    Apart after := by
  intro first second val different given
  rw [threads] at given ⊢
  by_cases mine : first = thread
  · subst mine
    rw [Function.update_self] at given
    rw [Function.update_of_ne different]
    exact fresh val given second different
  · rw [Function.update_of_ne mine] at given
    by_cases yours : second = thread
    · subst yours
      rw [Function.update_self]
      intro taken
      exact fresh val taken first mine given
    · rw [Function.update_of_ne yours]
      exact apart first second val different given

/-- A thread that goes on with its call has the cell that it was given. -/
theorem Apart.stay (apart : Apart state) {thread : τ} {place : Thread π} (after : State τ π)
    (threads : after.threads = Function.update state.threads thread place)
    (same : place.cell = (state.threads thread).cell ∨ place.cell = none) : Apart after := by
  apply apart.move after threads
  intro val given other different
  cases same with
  | inl same => exact apart thread other val different (same ▸ given)
  | inr free => rw [free] at given; cases given

private theorem kept_stay (kept : Kept state) {thread : τ} {place : Thread π} (after : State τ π)
    (threads : after.threads = Function.update state.threads thread place)
    (memory : after.memory = state.memory) (quiet : place.pending = []) : Kept after := by
  intro current val value returning
  rw [threads] at returning
  rw [memory]
  by_cases same : current = thread
  · rw [same, Function.update_self] at returning
    rw [returning] at quiet
    cases quiet
  · rw [Function.update_of_ne same] at returning
    exact kept current val value returning

theorem linearizable_of_sequential (sequential : Sequential config state) (matched : Matched state) :
    Linearizable config state where
  values := sequential.values
  distinct := by
    intro moving before first val value between second other later start gets same
    have climbed := sequential.climbs gets start
    rw [same] at climbed
    have zero : (between.length + 1 : Int) * config.stepSize.val = 0 := by linarith
    obtain none | still := mul_eq_zero.mp zero
    · omega
    · exact moving still
  successor := by
    intro before first val value second other later start
    rw [List.append_cons before] at start
    have climbed := sequential.climbs (fun entry member => absurd member List.not_mem_nil) start
    rw [climbed]
    simp
  matched := matched

variable [DecidableEq π]

private theorem matched_step (matched : Matched state) (taken : Taken config state event next) : Matched next := by
  cases taken with
  | call here => exact matched_stay matched _ rfl rfl rfl (by rw [here, pending_start]; rfl)
  | lock here => exact matched_stay matched _ rfl rfl rfl (by rw [here, pending_locked]; rfl)
  | load here => exact matched_stay matched _ rfl rfl rfl (by rw [here]; rfl)
  | store here => exact matched_stay matched _ rfl rfl rfl (by rw [here]; rfl)
  | add here range => exact matched_stay matched _ rfl rfl rfl (by rw [here]; rfl)
  | count here => exact matched_stay matched _ rfl rfl rfl (by rw [here]; rfl)
  | reset here => exact matched_stay matched _ rfl rfl rfl (by rw [here]; rfl)
  | @unlock thread body here =>
    intro current
    have before := matched current
    simp only [State.goto, places, List.filterMap_append] at before ⊢
    by_cases same : current = thread
    · subst same
      rw [here] at before
      simp [before, Thread.pending]
    · simp [before, Ne.symm same, Function.update_of_ne same]
  | @leave thread ret here =>
    intro current
    have before := matched current
    simp only [State.goto, completed, List.filterMap_append] at before ⊢
    by_cases same : current = thread
    · subst same
      rw [here] at before
      cases ret <;> simp [before, Thread.pending, Except.toOption]
    · simp [before, Ne.symm same, Function.update_of_ne same]

private theorem apart_step (apart : Apart state) (guarded : Private event state)
    (taken : Taken config state event next) : Apart next := by
  cases taken with
  | call here =>
    apply apart.move _ rfl
    intro val given other different
    cases cell_start given
    exact guarded other different
  | @lock thread body lock here free =>
    apply apart.stay _ rfl
    cases body <;> exact .inl (by rw [here]; rfl)
  | load here => exact apart.stay _ rfl (.inl (by rw [here]; rfl))
  | store here => exact apart.stay _ rfl (.inl (by rw [here]; rfl))
  | add here range => exact apart.stay _ rfl (.inl (by rw [here]; rfl))
  | count here => exact apart.stay _ rfl (.inl (by rw [here]; rfl))
  | reset here => exact apart.stay _ rfl (.inr rfl)
  | @unlock thread body here =>
    apply apart.stay _ rfl
    cases body <;> exact .inl (by rw [here]; rfl)
  | leave here => exact apart.stay _ rfl (.inr rfl)

private theorem kept_step (kept : Kept state) (apart : Apart state) (taken : Taken config state event next) :
    Kept next := by
  cases taken with
  | call here => exact kept_stay kept _ rfl rfl (pending_start _)
  | lock here => exact kept_stay kept _ rfl rfl (pending_locked _)
  | load here => exact kept_stay kept _ rfl rfl rfl
  | @store thread cell counter here =>
    intro current val value returning
    by_cases same : current = thread
    · rw [same, goto_threads, Function.update_self] at returning
      cases returning
    · rw [goto_threads, Function.update_of_ne same] at returning
      have different : val ≠ cell := by
        rintro rfl
        apply apart thread current val same (by rw [here]; rfl)
        show (state.threads current).cell = _
        rw [show state.threads current = _ from returning]
        rfl
      show Function.update state.memory cell counter val = value
      rw [Function.update_of_ne different]
      exact kept current val value returning
  | add here range => exact kept_stay kept _ rfl rfl rfl
  | count here => exact kept_stay kept _ rfl rfl rfl
  | reset here => exact kept_stay kept _ rfl rfl rfl
  | @unlock thread body here =>
    intro current val value returning
    by_cases same : current = thread
    · rw [same, goto_threads, Function.update_self] at returning
      cases body with
      | get own => cases returning; rfl
      | reset => cases returning
    · rw [goto_threads, Function.update_of_ne same] at returning
      exact kept current val value returning
  | leave here => exact kept_stay kept _ rfl rfl rfl

/-- A call that fails takes two steps, and neither touches the data. -/
private theorem failing_untouched (taken : Taken config state event next)
    (failing : (state.threads event.thread).failing ∨ (next.threads event.thread).failing) :
    Untouched state next := by
  cases taken with
  | call here => exact ⟨rfl, rfl, rfl, rfl⟩
  | leave here => exact ⟨rfl, rfl, rfl, rfl⟩
  | @lock thread body lock here free => cases body <;> simp [Event.thread, here, Thread.failing, Thread.locked] at failing
  | load here => simp [Event.thread, here, Thread.failing] at failing
  | store here => simp [Event.thread, here, Thread.failing] at failing
  | add here range => simp [Event.thread, here, Thread.failing] at failing
  | count here => simp [Event.thread, here, Thread.failing] at failing
  | reset here => simp [Event.thread, here, Thread.failing] at failing
  | unlock here => simp [Event.thread, here, Thread.failing] at failing

/-- Every run is sequential in the order in which the critical sections are left. -/
theorem linearizable (config : Config) (memory : π → CInt) (schedule : List (Event τ π)) (state : State τ π)
    (ran : run (step config) schedule (bavaCounterInit config memory) = some state) :
    Linearizable config state ∧
      (∀ event next, step config event state = some next →
        (state.threads event.thread).failing ∨ (next.threads event.thread).failing → Untouched state next) ∧
      (Along (step config) Private schedule (bavaCounterInit config memory) → Kept state) := by
  refine ⟨?_, fun event next taken => failing_untouched (taken_of_step taken), ?_⟩
  · apply linearizable_of_sequential
    · exact invariant (fun event state next sequential taken =>
        sequential_step sequential (taken_of_step taken)) (sequential_init memory) ran
    · exact invariant (fun event state next matched taken => matched_step matched (taken_of_step taken))
        (fun thread => rfl) ran
  · intro guarded
    have preserved (event : Event τ π) (state next : State τ π) (held : Apart state ∧ Kept state)
        (guarded : Private event state) (taken : step config event state = some next) : Apart next ∧ Kept next :=
      ⟨apart_step held.1 guarded (taken_of_step taken), kept_step held.2 held.1 (taken_of_step taken)⟩
    exact (invariant_along preserved guarded (separate_init config memory) ran).2

/-- An instance that counts 5, 8, 11 and so on. -/
def fiveByThree : Config := ⟨⟨5, by decide, by decide⟩, ⟨3, by decide, by decide⟩⟩

def instanceDevice : Device := ⟨true, some bavaApi⟩

/-- One thread waits for the lock of the other, which then makes a call that fails. -/
def twoGets : List (Event Bool Bool) :=
  [.call false instanceDevice (.bavaCounterGet (some false)),
    .call true instanceDevice (.bavaCounterGet (some true)), .run true, .run true, .run true, .run true, .run true,
    .run true, .run true, .call true instanceDevice (.bavaCounterGet none), .run false, .run false, .run false,
    .run true, .run false, .run false, .run false, .run false]

theorem linearizable_two_gets : ∃ state,
    run (step fiveByThree) twoGets (bavaCounterInit fiveByThree fun _ => fiveByThree.startOffset) = some state ∧
    (state.memory true).val = 5 ∧ (state.memory false).val = 8 ∧ Linearizable fiveByThree state := by
  refine ⟨_, rfl, rfl, rfl, ?_⟩
  exact (linearizable fiveByThree (fun _ => fiveByThree.startOffset) twoGets _ rfl).1

end ZephyrTutorial.Proofs.BavaCounterLinear
