import Mathlib.Data.List.Infix
import ZephyrTutorial.Schedule

/-! The sections of `thread_b` in which it holds the scheduler lock, on both sides of its sleep. -/

namespace ZephyrTutorial.Proofs.ScheduleSections
open ZephyrTutorial.Schedule Threads Machine

variable {state : app.State} {calls : List Call}

/-- All calls of `thread_b`, in order. -/
def threadB : List Call :=
  [.kSchedLock, .logInf "i am THREAD b", .gpioPinToggleDt, .kMsleep 2000, .logInf "I AM EXIT", .kSchedUnlock,
    .ret none]

private theorem threadB_straight : app.Straight .lock threadB :=
  ⟨rfl, fun _ => ⟨rfl, fun _ => ⟨rfl, fun _ => ⟨rfl, fun _ => ⟨rfl, fun _ => ⟨rfl, fun _ => ⟨rfl, fun _ => rfl⟩⟩⟩⟩⟩⟩⟩

/-- The calls after which `thread_b` holds the lock and has not given way. -/
def holding : List Call := [.kSchedLock, .logInf "i am THREAD b", .gpioPinToggleDt, .logInf "I AM EXIT"]

/-- What holds of each way in which `thread_b` can have come to its last call. -/
private theorem threadB_last (P : List Call → Call → Prop) {first : List Call} {call : Call}
    (script : first ++ [call] <+: threadB)
    (each : ∀ calls ∈ threadB.inits, ∀ last, calls.getLast? = some last → P calls.dropLast last) : P first call := by
  have here := each _ ((List.mem_inits _ _).mpr script) call List.getLast?_concat
  rwa [List.dropLast_concat] at here

private theorem holding_kept {before : List (ThreadId × Call)} {call : Call}
    (script : callsOf before .thread2 ++ [call] <+: threadB) (held : call ∈ holding) :
    Scheduler.Kept app.priority (app.depth (before ++ [(.thread2, call)])) .thread2 := by
  right
  rw [depth, callsOf_own]
  revert held
  exact threadB_last (fun first call => call ∈ holding → 0 < (first ++ [call]).foldl app.depthAfter 0) script
    (by decide)

private theorem toggle_locked {before : List (ThreadId × Call)}
    (script : callsOf before .thread2 ++ [.gpioPinToggleDt] <+: threadB) : (.thread2, .kSchedLock) ∈ before :=
  mem_callsOf.mp (threadB_last (fun first call => call = .gpioPinToggleDt → .kSchedLock ∈ first) script
    (by decide) rfl)

private theorem lock_first {before : List (ThreadId × Call)}
    (script : callsOf before .thread2 ++ [.kSchedLock] <+: threadB) : callsOf before .thread2 = [] :=
  threadB_last (fun first call => call = .kSchedLock → first = []) script (by decide) rfl

/-- Among the calls of `main` there is one that has to come before it ends. -/
private theorem main_ends {place final : Place} (early : place = .isReady ∨ place = .notReady ∨ place = .configure)
    (performs : app.Performs place calls final) (blocks : ∃ call ∈ calls, app.effect call = .block) :
    .gpioPinConfigureDt ∈ calls ∨ .logErr "LED DEVICE NOT READY " ∈ calls := by
  induction calls generalizing place with
  | nil =>
    obtain ⟨call, member, _⟩ := blocks
    cases member
  | cons first calls ih =>
    obtain ⟨made, answer, rest⟩ := performs
    rcases early with rfl | rfl | rfl
    · cases made
      have later : ∃ call ∈ calls, app.effect call = .block := by
        obtain ⟨call, member, blocked⟩ := blocks
        rcases List.mem_cons.mp member with rfl | member
        · cases blocked
        · exact ⟨call, member, blocked⟩
      have early : app.next .isReady answer = .isReady ∨ app.next .isReady answer = .notReady ∨
          app.next .isReady answer = .configure := by
        show (if answer ≠ 0 then Place.configure else .notReady) = _ ∨
          (if answer ≠ 0 then Place.configure else .notReady) = _ ∨ (if answer ≠ 0 then Place.configure else .notReady) = _
        split <;> simp
      exact (ih early rest later).imp (List.mem_cons_of_mem _) (List.mem_cons_of_mem _)
    · cases made; exact .inr List.mem_cons_self
    · cases made; exact .inl List.mem_cons_self

/-- `main` returns without the configuration, and `thread_b` runs in two parts. -/
def unconfigured : List (Event ThreadId Int) :=
  [.call 0, .call 0, .call 0, .call 0, .slice, .call 0, .slice, .call 0, .call 0, .call 0, .wake .thread2, .call 0,
    .wake .thread1, .call 0, .slice, .call 0, .call 0]

end ZephyrTutorial.Proofs.ScheduleSections
