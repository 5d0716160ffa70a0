import Mathlib.Algebra.Ring.Nat
import ZephyrTutorial.Pwm
import ZephyrTutorial.Ramp

/-! The duty cycle climbs in twentieths and starts over. The wrapping sum follows the
counter over the naturals until a period is so large that the last sum of a climb wraps. -/

namespace ZephyrTutorial.Proofs.PwmRamp
open ZephyrTutorial.Pwm

def step (pwm : PwmDtSpec) : Nat := (STEP pwm).toNat

def top (pwm : PwmDtSpec) : Nat := pwm.period.toNat

/-- The pulses of one climb, from dark to full brightness. -/
def ramp (pwm : PwmDtSpec) : List Nat := Ramp.climb (step pwm) (top pwm)

structure Sawtooth (pwm : PwmDtSpec) : Prop where
  bounded : ∀ results, (∀ ret ∈ results, 0 ≤ ret) →
    ∀ pulse ∈ (main pwm true results).pulses, pulse ≤ pwm.period
  driven : ∀ results, (∀ ret ∈ results, 0 ≤ ret) → (main pwm true results).pulses.length = results.length
  repeated : ∀ results, (∀ ret ∈ results, 0 ≤ ret) →
    ∃ rounds, (main pwm true results).pulses.map UInt32.toNat <+: (List.replicate rounds (ramp pwm)).flatten
  starts : (ramp pwm).head? = some 0
  ends : ∃ last, (ramp pwm).getLast? = some last ∧ last ≤ top pwm ∧ top pwm < last + step pwm

private theorem step_eq (pwm : PwmDtSpec) : step pwm = top pwm / 20 := by
  simp [step, STEP, top]

private theorem step_pos {pwm : PwmDtSpec} (covers : 20 ≤ top pwm) : 0 < step pwm := by
  rw [step_eq]
  omega

private theorem twenty_steps {pwm : PwmDtSpec} (large : 400 ≤ top pwm) : top pwm / step pwm = 20 := by
  rw [step_eq]
  apply Nat.div_eq_of_lt_le <;> omega

/-- The last sum of a climb, the one that has to be seen above the period. -/
def lastSum (pwm : PwmDtSpec) : Nat := top pwm / step pwm * step pwm + step pwm

private theorem lastSum_fits {pwm : PwmDtSpec} (small : top pwm < 4090445060) : lastSum pwm < 2 ^ 32 := by
  unfold lastSum
  rcases Nat.lt_or_ge (top pwm) 400 with few | large
  · have under := Nat.div_mul_le_self (top pwm) (step pwm)
    have short := step_eq pwm
    omega
  · rw [twenty_steps large, step_eq]
    omega

private theorem pulse_succ (pwm : PwmDtSpec) (index : Nat) : pulse pwm (index + 1) = advance pwm (pulse pwm index) :=
  Function.iterate_succ_apply' (advance pwm) index 0

/-- A sum that does not wrap is treated as the counter over the naturals treats it. -/
private theorem advance_next {pwm : PwmDtSpec} {pulse_width : UInt32}
    (fits : pulse_width.toNat + step pwm < 2 ^ 32) :
    (advance pwm pulse_width).toNat = Ramp.next (step pwm) (top pwm) pulse_width.toNat := by
  have sum : (pulse_width + STEP pwm).toNat = pulse_width.toNat + step pwm := by
    rw [UInt32.toNat_add]
    exact Nat.mod_eq_of_lt fits
  have compared : pulse_width + STEP pwm > pwm.period ↔ top pwm < pulse_width.toNat + step pwm := by
    rw [gt_iff_lt, UInt32.lt_iff_toNat_lt, sum, top]
  unfold Ramp.next
  by_cases above : top pwm < pulse_width.toNat + step pwm
  · simp only [advance, if_pos (compared.mpr above), if_pos above, UInt32.toNat_zero]
  · simp only [advance, if_neg (fun exceeds => above (compared.mp exceeds)), if_neg above, sum]

theorem pulse_level {pwm : PwmDtSpec} (covers : 20 ≤ top pwm) (fits : lastSum pwm < 2 ^ 32) (index : Nat) :
    (pulse pwm index).toNat = Ramp.level (step pwm) (top pwm) index := by
  induction index with
  | zero => simp [pulse, Ramp.level]
  | succ index ih =>
    have below : (pulse pwm index).toNat ≤ top pwm / step pwm * step pwm := by
      rw [ih]
      exact Ramp.level_le _ _ index
    rw [pulse_succ, advance_next (by unfold lastSum at fits; omega), ih]
    exact Ramp.next_level (step_pos covers) index

private theorem succeeds_replicate (count : Nat) : ∀ ret ∈ List.replicate count (0 : Int), 0 ≤ ret := by
  intro ret member
  exact Int.le_of_eq (List.eq_of_mem_replicate member).symm

/-- In a sawtooth every pulse has the width that its index gives. -/
private theorem Sawtooth.pulse_level {pwm : PwmDtSpec} (sawtooth : Sawtooth pwm) (index : Nat) :
    (pulse pwm index).toNat = Ramp.level (step pwm) (top pwm) index := by
  have succeeds := succeeds_replicate (index + 1)
  obtain ⟨rounds, repeated⟩ := sawtooth.repeated _ succeeds
  apply Ramp.prefix_level repeated
  rw [main_succeeds succeeds]
  simp

/-- Nineteen updates never reach the wrap, the twentieth sum is the last width of the climb. -/
private theorem twentieth_pulse (pwm : PwmDtSpec) (large : 400 ≤ top pwm) (index : Nat) (within : index ≤ 20) :
    (pulse pwm index).toNat = index * step pwm := by
  have twenty := twenty_steps large
  have under := Nat.div_mul_le_self (top pwm) (step pwm)
  have bound : top pwm < 2 ^ 32 := pwm.period.toNat_lt
  rw [twenty] at under
  induction index with
  | zero => simp [pulse]
  | succ index ih =>
    have reached := ih (by omega)
    have room : (index + 1) * step pwm ≤ 20 * step pwm := Nat.mul_le_mul_right _ within
    rw [Nat.succ_mul] at room ⊢
    rw [pulse_succ, advance_next (by omega), reached, Ramp.next, if_neg (by omega)]

/-- Once the last sum wraps it lies below the period again, so the climb is not started over. -/
private theorem wrapped_pulse {pwm : PwmDtSpec} (wraps : 4090445060 ≤ top pwm) : pulse pwm 21 ≠ 0 := by
  have bound : top pwm < 2 ^ 32 := pwm.period.toNat_lt
  have last := twentieth_pulse pwm (by omega) 20 le_rfl
  have size := step_eq pwm
  have sum : (pulse pwm 20 + STEP pwm).toNat = 21 * step pwm - 2 ^ 32 := by
    have stepped : (STEP pwm).toNat = step pwm := rfl
    rw [UInt32.toNat_add, last, stepped]
    omega
  have below : ¬ pulse pwm 20 + STEP pwm > pwm.period := by
    have same : pwm.period.toNat = top pwm := rfl
    rw [gt_iff_lt, UInt32.lt_iff_toNat_lt, sum, same]
    omega
  intro dark
  rw [pulse_succ] at dark
  simp only [advance, if_neg below] at dark
  rw [dark, UInt32.toNat_zero] at sum
  omega

private theorem not_sawtooth {pwm : PwmDtSpec} (wraps : 4090445060 ≤ top pwm) : ¬ Sawtooth pwm := by
  intro sawtooth
  have restarted := sawtooth.pulse_level 21
  have twenty : top pwm / step pwm = 20 := twenty_steps (by omega)
  simp only [Ramp.level, twenty, Nat.mod_self, Nat.zero_mul] at restarted
  exact wrapped_pulse wraps (UInt32.toNat_inj.mp restarted)

private theorem sawtooth_of_small {pwm : PwmDtSpec} (covers : 20 ≤ top pwm) (small : top pwm < 4090445060) :
    Sawtooth pwm where
  bounded results succeeds pulse member := by
    rw [main_succeeds succeeds] at member
    obtain ⟨index, _, rfl⟩ := List.mem_map.mp member
    exact pulse_le pwm index
  driven results succeeds := by
    rw [main_succeeds succeeds, List.length_map, List.length_range]
  repeated results succeeds := by
    obtain ⟨rounds, covered⟩ := Ramp.levels_prefix (step pwm) (top pwm) results.length
    refine ⟨rounds, ?_⟩
    have levels : (List.range results.length).map (UInt32.toNat ∘ pulse pwm) =
        (List.range results.length).map (Ramp.level (step pwm) (top pwm)) := by
      apply List.map_congr_left
      intro index _
      exact PwmRamp.pulse_level covers (lastSum_fits small) index
    rw [main_succeeds succeeds, List.map_map, levels]
    exact covered
  starts := Ramp.climb_starts
  ends := ⟨_, Ramp.climb_ends, Nat.div_mul_le_self _ _, Ramp.climb_reaches _ (step_pos covers)⟩

/-- The widths are the repeated ramp exactly for the periods whose 21st step does not wrap. -/
theorem sawtooth_iff (pwm : PwmDtSpec) (periodCoversSteps : 20 ≤ pwm.period.toNat) :
    Sawtooth pwm ↔ pwm.period.toNat < 4090445060 := by
  constructor
  · intro sawtooth
    by_contra large
    exact not_sawtooth (Nat.not_lt.mp large) sawtooth
  · intro small
    exact sawtooth_of_small periodCoversSteps small

theorem sawtooth_iff_twenty_milliseconds :
    20 ≤ (20000000 : UInt32).toNat ∧
      (Sawtooth ⟨20000000⟩ ↔ (20000000 : UInt32).toNat < 4090445060) :=
  ⟨by decide, sawtooth_iff ⟨20000000⟩ (by decide)⟩

/-- With the longest period the 22nd pulse is not dark. -/
theorem longest_period_never_restarts :
    ¬ ∀ pwm : PwmDtSpec, 20 ≤ pwm.period.toNat → Sawtooth pwm := by
  intro always
  have restarted := (always ⟨4294967295⟩ (by decide)).pulse_level 21
  revert restarted
  decide +kernel

end ZephyrTutorial.Proofs.PwmRamp
