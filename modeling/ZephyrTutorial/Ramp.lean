import Mathlib.Data.List.Range

/-! A counter that climbs by a fixed step and starts over once it is above its top. -/

namespace ZephyrTutorial.Ramp

def next (step top value : Nat) : Nat :=
  if top < value + step then 0 else value + step

/-- One climb. It ends at the largest multiple of the step that the top allows. -/
def climb (step top : Nat) : List Nat := (List.range (top / step + 1)).map (· * step)

def level (step top index : Nat) : Nat := index % (top / step + 1) * step

variable {step top : Nat}

theorem level_le (step top index : Nat) : level step top index ≤ top / step * step := by
  have below : index % (top / step + 1) ≤ top / step :=
    Nat.lt_succ_iff.mp (Nat.mod_lt index (Nat.succ_pos _))
  exact Nat.mul_le_mul_right step below

theorem climb_starts : (climb step top).head? = some 0 := by
  simp [climb, List.range_succ_eq_map]

theorem climb_ends : (climb step top).getLast? = some (top / step * step) := by
  simp [climb, List.range_succ]

/-- A climb stops less than one step below the top. -/
theorem climb_reaches (top : Nat) (positive : 0 < step) : top < top / step * step + step := by
  have split := Nat.div_add_mod' top step
  have small := Nat.mod_lt top positive
  omega

theorem next_level (positive : 0 < step) (index : Nat) :
    next step top (level step top index) = level step top (index + 1) := by
  have below : index % (top / step + 1) < top / step + 1 := Nat.mod_lt index (Nat.succ_pos _)
  have reaches := climb_reaches top positive
  have under := Nat.div_mul_le_self top step
  have after : (index + 1) % (top / step + 1) =
      if index % (top / step + 1) = top / step then 0 else index % (top / step + 1) + 1 := by
    rw [Nat.add_mod_eq_ite]
    rcases Nat.eq_zero_or_pos (top / step) with flat | climbs
    · simp [flat, Nat.mod_one]
    · rw [Nat.mod_eq_of_lt (Nat.succ_lt_succ climbs)]
      split <;> split <;> omega
  unfold next level
  rw [after]
  by_cases last : index % (top / step + 1) = top / step
  · rw [if_pos last, last, if_pos reaches, Nat.zero_mul]
  · have room : index % (top / step + 1) + 1 ≤ top / step := by omega
    have inside := (Nat.mul_le_mul_right step room).trans under
    rw [Nat.succ_mul] at inside
    rw [if_neg last, if_neg (Nat.not_lt.mpr inside), Nat.succ_mul]

private theorem levels_rounds (rounds : Nat) :
    (List.range (rounds * (top / step + 1))).map (level step top) =
      (List.replicate rounds (climb step top)).flatten := by
  induction rounds with
  | zero => simp
  | succ rounds ih =>
    rw [Nat.succ_mul, List.range_add, List.map_append, ih, List.replicate_succ', List.flatten_append,
      List.flatten_singleton, climb, List.map_map]
    congr 1
    apply List.map_congr_left
    intro index inside
    simp only [Function.comp_apply, level, Nat.mul_add_mod_self_right,
      Nat.mod_eq_of_lt (List.mem_range.mp inside)]

theorem levels_prefix (step top count : Nat) :
    ∃ rounds, (List.range count).map (level step top) <+: (List.replicate rounds (climb step top)).flatten := by
  refine ⟨count, ?_⟩
  have enough : count ≤ count * (top / step + 1) := Nat.le_mul_of_pos_right count (Nat.succ_pos _)
  rw [← levels_rounds, ← Nat.add_sub_cancel' enough, List.range_add, List.map_append]
  exact List.prefix_append _ _

/-- Whatever repeats the climb has the level of its index at each index. -/
theorem prefix_level {values : List Nat} {rounds index value : Nat}
    (repeated : values <+: (List.replicate rounds (climb step top)).flatten)
    (found : values[index]? = some value) : value = level step top index := by
  obtain ⟨rest, whole⟩ := repeated
  have inside : index < values.length := (List.getElem?_eq_some_iff.mp found).1
  have same := congrArg (fun levels : List Nat => levels[index]?) (whole.trans (levels_rounds rounds).symm)
  simp only [List.getElem?_append_left inside, found, List.getElem?_map] at same
  obtain ⟨position, reached, equal⟩ := Option.map_eq_some_iff.mp same.symm
  obtain ⟨_, rfl⟩ := List.getElem?_eq_some_iff.mp reached
  rw [← equal, List.getElem_range]

end ZephyrTutorial.Ramp
