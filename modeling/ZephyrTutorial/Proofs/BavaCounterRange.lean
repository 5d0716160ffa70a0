import ZephyrTutorial.Proofs.BavaCounterLock

/-! How far the counter can count. An addition has to fit below the largest `int`, which bounds
the gets between two resets; inside the bound the values that they return increase. -/

namespace ZephyrTutorial.Proofs.BavaCounterRange
open ZephyrTutorial.BavaCounter BavaCounterLock Machine

universe u v

variable {τ : Type u} {π : Type v} {config : Config} {event : Event τ π} {state : State τ π}

/-- The event runs a thread that is about to add the step. -/
def Adds (event : Event τ π) (state : State τ π) : Prop :=
  ∃ thread val, event = .run thread ∧ state.threads thread = .adding val

def AdditionInRange (config : Config) (event : Event τ π) (state : State τ π) : Prop :=
  Adds event state → CInt.InRange (state.counter.val + config.stepSize.val)

/-- The gets that one turn, from a reset or from init to the next reset, has room for. -/
def capacity (config : Config) : Int := (2147483647 - config.startOffset.val) / config.stepSize.val

def WithinCapacity (config : Config) (event : Event τ π) (state : State τ π) : Prop :=
  Adds event state → turn state.served < capacity config

/-- Of two gets with no reset in between the later one returns the larger value. -/
def Increasing (state : State τ π) : Prop :=
  ∀ before first val value between second other later,
    before ++ (first, .got val value) :: between ++ [(second, .got other later)] <+: state.served →
    (∀ entry ∈ between, entry.2 ≠ .reset) → value.val < later.val

private theorem increasing_of_sequential (stepPositive : 0 < config.stepSize.val)
    (sequential : Sequential config state) : Increasing state := by
  intro before first val value between second other later start gets
  have climbed := sequential.climbs gets start
  have passed : 0 ≤ (between.length : Int) * config.stepSize.val :=
    Int.mul_nonneg (Int.natCast_nonneg _) stepPositive.le
  rw [add_mul, one_mul] at climbed
  omega

/-- A sum above the start never leaves the range on the lower side. -/
theorem in_range_iff_room (stepPositive : 0 < config.stepSize.val) (served : List (τ × Answer π)) :
    CInt.InRange (owed config served + config.stepSize.val) ↔ turn served < capacity config := by
  have lowest := config.startOffset.lower
  have climbed : 0 ≤ (turn served : Int) * config.stepSize.val :=
    Int.mul_nonneg (Int.natCast_nonneg _) stepPositive.le
  have room : (turn served : Int) < capacity config ↔
      ((turn served : Int) + 1) * config.stepSize.val ≤ 2147483647 - config.startOffset.val := by
    rw [← Int.add_one_le_iff, capacity, Int.le_ediv_iff_mul_le stepPositive]
  rw [room, add_mul, one_mul]
  unfold CInt.InRange owed
  omega

/-- The thread that adds is the one in its critical section, so it finds what is owed. -/
private theorem addition_iff (stepPositive : 0 < config.stepSize.val) (sequential : Sequential config state) :
    AdditionInRange config event state ↔ WithinCapacity config event state := by
  apply forall_congr'
  rintro ⟨thread, val, rfl, here⟩
  have known := sequential.agrees thread
  rw [here] at known
  rw [known.2]
  exact in_range_iff_room stepPositive state.served

variable [DecidableEq τ] [DecidableEq π]

structure InRangeRun (config : Config) (memory : π → CInt) (schedule : List (Event τ π)) : Prop where
  additions : Along (step config) (AdditionInRange config) schedule (bavaCounterInit config memory)
  increasing : ∀ first rest state, schedule = first ++ rest →
    run (step config) first (bavaCounterInit config memory) = some state → Increasing state

private theorem sequential_next (event : Event τ π) (state next : State τ π) (sequential : Sequential config state)
    (taken : step config event state = some next) : Sequential config next :=
  sequential_step sequential (taken_of_step taken)

/-- Whatever the threads do, no addition overflows exactly as long as no turn has more gets
than it has room for. -/
theorem in_range_iff (config : Config) (memory : π → CInt) (schedule : List (Event τ π))
    (stepPositive : 0 < config.stepSize.val) :
    InRangeRun config memory schedule ↔
      Along (step config) (WithinCapacity config) schedule (bavaCounterInit config memory) := by
  have initial : Sequential config (bavaCounterInit config memory : State τ π) := sequential_init memory
  have same : Along (step config) (AdditionInRange config) schedule (bavaCounterInit config memory) ↔
      Along (step config) (WithinCapacity config) schedule (bavaCounterInit config memory) :=
    along_congr (fun event state next sequential _ => sequential_next event state next sequential)
      (fun _ _ => addition_iff stepPositive) initial
  constructor
  · intro safe
    exact same.mp safe.additions
  · intro within
    refine ⟨same.mpr within, fun first rest state _ ran => ?_⟩
    exact increasing_of_sequential stepPositive (invariant sequential_next initial ran)

/-- Counts by one from the largest `int`. -/
def exhausted : Config := ⟨⟨2147483647, by decide, by decide⟩, ⟨1, by decide, by decide⟩⟩

def oneGet : List (Event Unit Unit) :=
  [.call () ⟨true, some bavaApi⟩ (.bavaCounterGet (some ())), .run (), .run (), .run (), .run ()]

theorem in_range_iff_one_get : 0 < exhausted.stepSize.val ∧
    (InRangeRun exhausted (fun _ => exhausted.startOffset) oneGet ↔
      Along (step exhausted) (WithinCapacity exhausted) oneGet
        (bavaCounterInit exhausted fun _ => exhausted.startOffset)) :=
  ⟨by decide, in_range_iff exhausted (fun _ => exhausted.startOffset) oneGet (by decide)⟩

/-- The first get already overflows. -/
theorem first_get_overflows :
    ¬ ∀ (config : Config) (memory : Unit → CInt) (schedule : List (Event Unit Unit)),
      0 < config.stepSize.val → InRangeRun config memory schedule := by
  intro always
  have safe := (always exhausted (fun _ => exhausted.startOffset) oneGet (by decide)).additions
  have adding := (((safe.2 _ rfl).2 _ rfl).2 _ rfl).2 _ rfl
  have range := adding.1 ⟨(), (), rfl, rfl⟩
  revert range
  decide

end ZephyrTutorial.Proofs.BavaCounterRange
