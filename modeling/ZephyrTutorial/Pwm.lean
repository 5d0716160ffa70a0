import Mathlib.Data.List.Range

/-! The PWM application: `main` drives the LED with a pulse width that grows by a
twentieth of the period. All widths are 32-bit nanoseconds and wrap around. -/

namespace ZephyrTutorial.Pwm

structure PwmDtSpec where
  period : UInt32
  deriving DecidableEq

def ENODEV : Int := 19

def STEP (pwm : PwmDtSpec) : UInt32 := pwm.period / 20

/-- The update of `pulse_width` after a pulse that was set. -/
def advance (pwm : PwmDtSpec) (pulse_width : UInt32) : UInt32 :=
  let pulse_width := pulse_width + STEP pwm
  if pulse_width > pwm.period then 0 else pulse_width

/-- The pulse widths given to the driver, and what `main` returned unless it still loops. -/
structure Trace where
  pulses : List UInt32
  returned : Option Int
  deriving DecidableEq

/-- The loop of `main` over the results of `pwm_set_pulse_dt`, one for each iteration. -/
def loop (pwm : PwmDtSpec) : List Int → UInt32 → Trace
  | [], _ => ⟨[], none⟩
  | ret :: rest, pulse_width =>
    if ret < 0 then ⟨[pulse_width], some ret⟩
    else
      let later := loop pwm rest (advance pwm pulse_width)
      ⟨pulse_width :: later.pulses, later.returned⟩

def main (pwm : PwmDtSpec) (ready : Bool) (results : List Int) : Trace :=
  if ready then loop pwm results 0 else ⟨[], some (-ENODEV)⟩

/-- The width that iteration `index` sets when all before it succeeded. -/
def pulse (pwm : PwmDtSpec) (index : Nat) : UInt32 := (advance pwm)^[index] 0

private theorem advance_le (pwm : PwmDtSpec) (pulse_width : UInt32) : advance pwm pulse_width ≤ pwm.period := by
  simp only [advance]
  split
  · exact UInt32.le_iff_toNat_le.mpr (Nat.zero_le _)
  next inside => exact UInt32.not_lt.mp inside

/-- The comparison caps every width, also where the sum before it has wrapped. -/
theorem pulse_le (pwm : PwmDtSpec) (index : Nat) : pulse pwm index ≤ pwm.period := by
  cases index with
  | zero => exact UInt32.le_iff_toNat_le.mpr (Nat.zero_le _)
  | succ index =>
    rw [pulse, Function.iterate_succ_apply']
    exact advance_le pwm _

/-- As long as the driver succeeds the loop sets one pulse after the other. -/
private theorem loop_append (pwm : PwmDtSpec) {before : List Int} (rest : List Int) (index : Nat)
    (succeeds : ∀ ret ∈ before, 0 ≤ ret) :
    loop pwm (before ++ rest) (pulse pwm index) =
      ⟨(List.range before.length).map (fun offset => pulse pwm (index + offset)) ++
          (loop pwm rest (pulse pwm (index + before.length))).pulses,
        (loop pwm rest (pulse pwm (index + before.length))).returned⟩ := by
  induction before generalizing index with
  | nil => rfl
  | cons ret before ih =>
    have this : ¬ ret < 0 := Int.not_lt.mpr (succeeds ret List.mem_cons_self)
    have advanced : advance pwm (pulse pwm index) = pulse pwm (index + 1) :=
      (Function.iterate_succ_apply' (advance pwm) index 0).symm
    have moved : ∀ offset, index + 1 + offset = index + (offset + 1) := fun offset => by omega
    have later := ih (index + 1) (fun ret member => succeeds ret (List.mem_cons_of_mem _ member))
    rw [List.length_cons, List.range_succ_eq_map]
    simp only [List.cons_append, loop, if_neg this, advanced, later, moved, List.map_cons, List.map_map,
      Nat.add_zero, Function.comp_def]

theorem main_succeeds {pwm : PwmDtSpec} {results : List Int} (succeeds : ∀ ret ∈ results, 0 ≤ ret) :
    main pwm true results = ⟨(List.range results.length).map (pulse pwm), none⟩ := by
  have ran := loop_append pwm [] 0 succeeds
  simp only [List.append_nil, Nat.zero_add, loop] at ran
  exact ran

/-- The first failure ends the loop: its result is returned and no further pulse is set. -/
theorem main_fails {pwm : PwmDtSpec} {before after : List Int} {ret : Int}
    (succeeds : ∀ ret ∈ before, 0 ≤ ret) (failed : ret < 0) :
    main pwm true (before ++ ret :: after) =
      ⟨(List.range (before.length + 1)).map (pulse pwm), some ret⟩ := by
  have ran := loop_append pwm (ret :: after) 0 succeeds
  simp only [Nat.zero_add, loop, if_pos failed] at ran
  rw [List.range_succ, List.map_append]
  exact ran

end ZephyrTutorial.Pwm
