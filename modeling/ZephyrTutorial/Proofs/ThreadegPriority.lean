import ZephyrTutorial.Threadeg

/-! The priorities order the calls of the thread demo, although nothing in its code waits for anything. -/

namespace ZephyrTutorial.Proofs.ThreadegPriority
open ZephyrTutorial.Threadeg Threads Machine

variable {state : app.State} {calls : List Call}

/-- `main` has not come past the configuration. -/
def Early : Place → Prop
  | .hello | .isReady | .notReady | .configure => True
  | _ => False

/-- The first call that blocks `main` comes after the configuration. -/
private theorem configured {place final : Place} (early : Early place) (performs : app.Performs place calls final)
    (blocks : ∃ call ∈ calls, app.effect call = .block) : .gpioPinConfigureDt ∈ calls := by
  induction calls generalizing place with
  | nil =>
    obtain ⟨call, member, _⟩ := blocks
    cases member
  | cons first calls ih =>
    obtain ⟨made, answer, rest⟩ := performs
    have later (goes : app.effect first ≠ .block) : ∃ call ∈ calls, app.effect call = .block := by
      obtain ⟨call, member, blocked⟩ := blocks
      rcases List.mem_cons.mp member with rfl | member
      · exact absurd blocked goes
      · exact ⟨call, member, blocked⟩
    cases place with
    | hello => cases made; exact List.mem_cons_of_mem _ (ih (by exact trivial) rest (later nofun))
    | isReady =>
      cases made
      refine List.mem_cons_of_mem _ (ih ?_ rest (later nofun))
      show Early (if answer ≠ 0 then .configure else .notReady)
      split <;> trivial
    | notReady => cases made; exact List.mem_cons_of_mem _ (ih (by exact trivial) rest (later nofun))
    | configure => cases made; exact List.mem_cons_self
    | _ => exact early.elim

private theorem free (history : List (ThreadId × Call)) (thread : ThreadId) : app.depth history thread = 0 := by
  apply depth_eq_zero
  intro call
  cases call <;> nofun

end ZephyrTutorial.Proofs.ThreadegPriority
