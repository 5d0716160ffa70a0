import Mathlib.Data.Option.Basic

/-! Partial step functions driven by a schedule. Every interleaving of the parties
is one list of events, so a statement about all schedules covers all runs. -/

namespace ZephyrTutorial.Machine

universe u v

variable {σ : Type u} {ε : Type v} {step : ε → σ → Option σ}

/-- Execute a schedule. The result is `none` when some event was not enabled. -/
def run (step : ε → σ → Option σ) : List ε → σ → Option σ
  | [], state => some state
  | event :: rest, state => (step event state).bind (run step rest)

/-- Every step that the schedule really takes starts in a state that meets the guard. -/
def Along (step : ε → σ → Option σ) (guard : ε → σ → Prop) : List ε → σ → Prop
  | [], _ => True
  | event :: rest, state =>
    guard event state ∧ ∀ next, step event state = some next → Along step guard rest next

instance decidableAlong {guard : ε → σ → Prop} [∀ event state, Decidable (guard event state)] :
    (schedule : List ε) → (state : σ) → Decidable (Along step guard schedule state)
  | [], _ => isTrue trivial
  | event :: rest, state =>
    have : ∀ next, Decidable (Along step guard rest next) := decidableAlong rest
    inferInstanceAs (Decidable (guard event state ∧ ∀ next ∈ step event state, Along step guard rest next))

@[simp]
theorem run_nil (state : σ) : run step [] state = some state := rfl

theorem run_cons {event : ε} {rest : List ε} {state final : σ} :
    run step (event :: rest) state = some final ↔
      ∃ next, step event state = some next ∧ run step rest next = some final :=
  Option.bind_eq_some_iff

theorem run_append (first rest : List ε) (state : σ) :
    run step (first ++ rest) state = (run step first state).bind (run step rest) := by
  induction first generalizing state with
  | nil => rfl
  | cons event first ih =>
    simp only [List.cons_append, run]
    cases taken : step event state with
    | none => rfl
    | some next => exact ih next

theorem run_trans {first rest : List ε} {state middle final : σ}
    (before : run step first state = some middle) (after : run step rest middle = some final) :
    run step (first ++ rest) state = some final := by
  rw [run_append, before]
  exact after

theorem run_split {first rest : List ε} {state final : σ}
    (ran : run step (first ++ rest) state = some final) :
    ∃ middle, run step first state = some middle ∧ run step rest middle = some final := by
  rw [run_append] at ran
  exact Option.bind_eq_some_iff.mp ran

/-- An invariant may assume the guard of the step that it has to survive. -/
theorem invariant_along {guard : ε → σ → Prop} {holds : σ → Prop}
    (preserved : ∀ event state next, holds state → guard event state →
      step event state = some next → holds next)
    {schedule : List ε} {state final : σ} (guarded : Along step guard schedule state)
    (initial : holds state) (ran : run step schedule state = some final) : holds final := by
  induction schedule generalizing state with
  | nil => cases ran; exact initial
  | cons event rest ih =>
    obtain ⟨next, taken, ran⟩ := run_cons.mp ran
    exact ih (guarded.2 next taken) (preserved event state next initial guarded.1 taken) ran

/-- A guard that no event of the schedule can break. -/
theorem along_of_forall {guard : ε → σ → Prop} {schedule : List ε}
    (free : ∀ event ∈ schedule, ∀ state, guard event state) (state : σ) : Along step guard schedule state := by
  induction schedule generalizing state with
  | nil => trivial
  | cons event rest ih =>
    have later := ih fun other member => free other (List.mem_cons_of_mem _ member)
    exact ⟨free event List.mem_cons_self state, fun next _ => later next⟩

/-- Where a run ends can be found out by running it. -/
theorem exists_run {holds : σ → Prop} [DecidablePred holds] {schedule : List ε} {state : σ}
    (evaluated : ((run step schedule state).any fun final => decide (holds final)) = true) :
    ∃ final, run step schedule state = some final ∧ holds final := by
  obtain ⟨final, ran, reached⟩ := (Option.any_eq_true _ _).mp evaluated
  exact ⟨final, ran, of_decide_eq_true reached⟩

/-- What every step preserves holds in every state that any schedule reaches. -/
theorem invariant {holds : σ → Prop}
    (preserved : ∀ event state next, holds state → step event state = some next → holds next)
    {schedule : List ε} {state final : σ} (initial : holds state)
    (ran : run step schedule state = some final) : holds final :=
  invariant_along (fun event state next kept _ => preserved event state next kept)
    (along_of_forall (fun _ _ _ => trivial) state) initial ran

theorem Along.strengthen {guard other : ε → σ → Prop} {holds : σ → Prop}
    (preserved : ∀ event state next, holds state → guard event state →
      step event state = some next → holds next)
    (implied : ∀ event state, holds state → guard event state → other event state)
    {schedule : List ε} {state : σ} (guarded : Along step guard schedule state)
    (initial : holds state) : Along step other schedule state := by
  induction schedule generalizing state with
  | nil => trivial
  | cons event rest ih =>
    refine ⟨implied event state initial guarded.1, ?_⟩
    intro next taken
    exact ih (guarded.2 next taken) (preserved event state next initial guarded.1 taken)

/-- Guards that agree wherever the invariant holds are met along the same schedules. -/
theorem along_congr {guard other : ε → σ → Prop} {holds : σ → Prop}
    (preserved : ∀ event state next, holds state → guard event state →
      step event state = some next → holds next)
    (same : ∀ event state, holds state → (other event state ↔ guard event state))
    {schedule : List ε} {state : σ} (initial : holds state) :
    Along step other schedule state ↔ Along step guard schedule state := by
  constructor
  · intro met
    apply met.strengthen _ _ initial
    · intro event state next kept met taken
      exact preserved event state next kept ((same event state kept).mp met) taken
    · exact fun event state kept => (same event state kept).mp
  · intro met
    exact met.strengthen preserved (fun event state kept => (same event state kept).mpr) initial

theorem Along.split {guard : ε → σ → Prop} {first rest : List ε} {state middle : σ}
    (guarded : Along step guard (first ++ rest) state)
    (ran : run step first state = some middle) :
    Along step guard first state ∧ Along step guard rest middle := by
  induction first generalizing state with
  | nil => cases ran; exact ⟨trivial, guarded⟩
  | cons event first ih =>
    obtain ⟨next, taken, ran⟩ := run_cons.mp ran
    refine ⟨⟨guarded.1, ?_⟩, (ih (guarded.2 next taken) ran).2⟩
    intro other same
    cases taken.symm.trans same
    exact (ih (guarded.2 next taken) ran).1

/-- What guarded steps preserve holds after every part of a guarded schedule that runs. -/
theorem Along.invariant_prefix {guard : ε → σ → Prop} {holds : σ → Prop}
    (preserved : ∀ event state next, holds state → guard event state →
      step event state = some next → holds next)
    {first rest : List ε} {state middle : σ} (guarded : Along step guard (first ++ rest) state)
    (initial : holds state) (ran : run step first state = some middle) : holds middle :=
  invariant_along preserved (guarded.split ran).1 initial ran

/-- A guard that holds at the end of every guarded run is met along the whole schedule. -/
theorem Along.of_prefixes {guard : ε → σ → Prop} {schedule : List ε} {state : σ}
    (last : ∀ first event rest middle, schedule = first ++ event :: rest → Along step guard first state →
      run step first state = some middle → guard event middle) : Along step guard schedule state := by
  induction schedule generalizing state with
  | nil => trivial
  | cons event schedule ih =>
    have now : guard event state := last [] event schedule state rfl trivial rfl
    refine ⟨now, fun next taken => ih ?_⟩
    rintro first later rest middle rfl guarded ran
    apply last (event :: first) later rest middle rfl
    · refine ⟨now, fun other same => ?_⟩
      cases taken.symm.trans same
      exact guarded
    · exact run_cons.mpr ⟨next, taken, ran⟩

theorem Along.append {guard : ε → σ → Prop} {first rest : List ε} {state : σ}
    (early : Along step guard first state)
    (late : ∀ middle, run step first state = some middle → Along step guard rest middle) :
    Along step guard (first ++ rest) state := by
  induction first generalizing state with
  | nil => exact late state rfl
  | cons event first ih =>
    refine ⟨early.1, fun next taken => ih (early.2 next taken) ?_⟩
    intro middle ran
    exact late middle (run_cons.mpr ⟨next, taken, ran⟩)

/-- A guard is tight for a property if it keeps an invariant that gives the property, and if after
any step against it quiet events lead to a state without the property. -/
structure Tight (step : ε → σ → Option σ) (guard : ε → σ → Prop) (kept holds : σ → Prop) (quiet : ε → Prop) :
    Prop where
  preserved : ∀ event state next, kept state → guard event state → step event state = some next → kept next
  enough : ∀ state, kept state → holds state
  free : ∀ event, quiet event → ∀ state, guard event state
  exposed : ∀ event state, kept state → ¬ guard event state → ∃ drain final, (∀ other ∈ drain, quiet other) ∧
    run step (event :: drain) state = some final ∧ ¬ holds final

/-- A tight guard is met along a schedule exactly when the property holds after every part of it,
and after whatever quiet events follow that part. -/
theorem Tight.iff_along {guard : ε → σ → Prop} {kept holds : σ → Prop} {quiet : ε → Prop}
    (tight : Tight step guard kept holds quiet) {start : σ} (initial : kept start) (schedule : List ε) :
    (∀ first rest drain final, schedule = first ++ rest → (∀ event ∈ drain, quiet event) →
      run step (first ++ drain) start = some final → holds final) ↔ Along step guard schedule start := by
  constructor
  · intro always
    apply Along.of_prefixes
    rintro first event rest middle rfl guarded ran
    have now := invariant_along tight.preserved guarded initial ran
    by_contra broken
    obtain ⟨drain, final, silent, drained, wrong⟩ := tight.exposed event middle now broken
    apply wrong
    apply always (first ++ [event]) rest drain final (by simp) silent
    rw [List.append_assoc]
    exact run_trans ran drained
  · rintro guarded first rest drain final rfl silent ran
    obtain ⟨middle, ranFirst, -⟩ := run_split ran
    have late (middle : σ) : Along step guard drain middle :=
      along_of_forall (fun event member => tight.free event (silent event member)) middle
    have whole := (guarded.split ranFirst).1.append fun middle _ => late middle
    exact tight.enough final (invariant_along tight.preserved whole initial ran)

/-- Without quiet events the step against the guard has to do the harm itself. -/
theorem Tight.iff_along_of_prompt {guard : ε → σ → Prop} {kept holds : σ → Prop}
    (tight : Tight step guard kept holds fun _ => False) {start : σ} (initial : kept start) (schedule : List ε) :
    (∀ first rest final, schedule = first ++ rest → run step first start = some final → holds final) ↔
      Along step guard schedule start := by
  rw [← tight.iff_along initial schedule]
  constructor
  · intro always first rest drain final shape silent ran
    have none : drain = [] := List.eq_nil_iff_forall_not_mem.mpr silent
    rw [none, List.append_nil] at ran
    exact always first rest final shape ran
  · intro always first rest final shape ran
    exact always first rest [] final shape nofun (by rwa [List.append_nil])

/-- When each step is a run of a coarser machine, of any length, so is each run. -/
theorem run_view {τ : Type u} {κ : Type v} {coarse : κ → τ → Option τ} {view : σ → τ} {shown : ε → List κ}
    (simulated : ∀ event state next, step event state = some next →
      run coarse (shown event) (view state) = some (view next))
    {schedule : List ε} {state final : σ} (ran : run step schedule state = some final) :
    run coarse (schedule.flatMap shown) (view state) = some (view final) := by
  induction schedule generalizing state with
  | nil => cases ran; rfl
  | cons event rest ih =>
    obtain ⟨next, taken, ran⟩ := run_cons.mp ran
    rw [List.flatMap_cons]
    exact run_trans (simulated event state next taken) (ih ran)

section Exhaustion
variable {own : ε → Prop} {measure : σ → Nat}

/-- A party whose steps all lower a measure takes no more of them than the measure allows. -/
theorem length_le_measure
    (lower : ∀ event state next, own event → step event state = some next → measure next < measure state)
    {schedule : List ε} (owned : ∀ event ∈ schedule, own event) {state final : σ}
    (ran : run step schedule state = some final) : measure final + schedule.length ≤ measure state := by
  induction schedule generalizing state with
  | nil => cases ran; exact Nat.le_refl _
  | cons event rest ih =>
    obtain ⟨next, taken, ran⟩ := run_cons.mp ran
    have less := lower event state next (owned event List.mem_cons_self) taken
    have later := ih (fun other member => owned other (List.mem_cons_of_mem _ member)) ran
    rw [List.length_cons]
    omega

/-- Other parties may go on in between, as long as they do not raise the measure. -/
theorem filter_le_measure [DecidablePred own] {other : ε → Prop}
    (lower : ∀ event state next, own event → step event state = some next → measure next < measure state)
    (quiet : ∀ event state next, other event → step event state = some next → measure next ≤ measure state)
    {schedule : List ε} (parties : ∀ event ∈ schedule, own event ∨ other event) {state final : σ}
    (ran : run step schedule state = some final) :
    measure final + (schedule.filter (own ·)).length ≤ measure state := by
  induction schedule generalizing state with
  | nil => cases ran; exact Nat.le_refl _
  | cons event rest ih =>
    obtain ⟨next, taken, ran⟩ := run_cons.mp ran
    obtain ⟨party, rest⟩ := List.forall_mem_cons.mp parties
    have later := ih rest ran
    by_cases owned : own event
    · have less := lower event state next owned taken
      rw [List.filter_cons_of_pos (by simpa using owned), List.length_cons]
      omega
    · have kept := quiet event state next (party.resolve_left owned) taken
      rw [List.filter_cons_of_neg (by simpa using owned)]
      omega

/-- Left alone, it comes to a state in which it has no step left. -/
theorem exists_exhausted
    (lower : ∀ event state next, own event → step event state = some next → measure next < measure state)
    (state : σ) : ∃ schedule final, (∀ event ∈ schedule, own event) ∧ run step schedule state = some final ∧
      ∀ event, own event → step event final = none := by
  generalize bound : measure state = fuel
  induction fuel using Nat.strongRecOn generalizing state with
  | ind fuel ih =>
    by_cases stuck : ∀ event, own event → step event state = none
    · exact ⟨[], state, nofun, rfl, stuck⟩
    · obtain ⟨event, able⟩ := not_forall.mp stuck
      obtain ⟨owned, enabled⟩ := Classical.not_imp.mp able
      obtain ⟨next, taken⟩ := Option.ne_none_iff_exists'.mp enabled
      have less := lower event state next owned taken
      obtain ⟨schedule, final, rest, ran, exhausted⟩ := ih (measure next) (bound ▸ less) next rfl
      refine ⟨event :: schedule, final, ?_, run_cons.mpr ⟨next, taken, ran⟩, exhausted⟩
      exact List.forall_mem_cons.mpr ⟨owned, rest⟩

end Exhaustion

end ZephyrTutorial.Machine
