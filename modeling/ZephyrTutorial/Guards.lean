import ZephyrTutorial.Kernel

/-! A mutex that guards the places between its lock and its unlock: its owner is the one thread at such
a place. -/

namespace ZephyrTutorial.Kernel.Mutex

universe u

variable {τ : Type u} {mutex after : Mutex τ} {inside later : τ → Prop} {thread : τ}

structure Guards (mutex : Mutex τ) (inside : τ → Prop) : Prop where
  owner : ∀ thread, mutex.owner = some thread ↔ inside thread
  once : mutex.lockCount ≤ 1

namespace Guards

theorem init (outside : ∀ thread, ¬ inside thread) : (init : Mutex τ).Guards inside :=
  ⟨fun thread => ⟨nofun, fun within => absurd within (outside thread)⟩, Nat.zero_le 1⟩

theorem alone (guards : mutex.Guards inside) (here : inside thread) {other : τ} (there : inside other) :
    other = thread := by
  have owned := (guards.owner thread).mpr here
  exact (Option.some_inj.mp (owned.symm.trans ((guards.owner other).mpr there))).symm

theorem stay (guards : mutex.Guards inside) (same : ∀ thread, later thread ↔ inside thread) : mutex.Guards later :=
  ⟨fun thread => (guards.owner thread).trans (same thread).symm, guards.once⟩

variable [DecidableEq τ]

/-- Only a free mutex lets a thread in that is outside. -/
theorem lock (guards : mutex.Guards inside) (outside : ¬ inside thread) (taken : mutex.lock thread = some after)
    (now : later thread) (others : ∀ other, other ≠ thread → (later other ↔ inside other)) : after.Guards later := by
  obtain ⟨free, owner, count⟩ := lock_eq_some taken
  have vacant : mutex.owner = none := free.resolve_right fun owned => outside ((guards.owner thread).mp owned)
  refine ⟨fun other => ?_, ?_⟩
  · rw [owner]
    constructor
    · intro same
      cases same
      exact now
    · intro within
      by_contra different
      have outer : other ≠ thread := fun same => different (by rw [same])
      have owned := (guards.owner other).mpr ((others other outer).mp within)
      rw [vacant] at owned
      cases owned
  · exact Nat.le_of_eq (by rw [count, mutex.counted.mpr vacant])

theorem unlock (guards : mutex.Guards inside) (here : inside thread) (now : ¬ later thread)
    (others : ∀ other, other ≠ thread → (later other ↔ inside other)) : (mutex.unlock thread).Guards later := by
  rw [unlock_last ((guards.owner thread).mpr here) guards.once]
  apply init
  intro other within
  by_cases same : other = thread
  · rw [same] at within
    exact now within
  · exact same (guards.alone here ((others other same).mp within))

end Guards

end ZephyrTutorial.Kernel.Mutex
