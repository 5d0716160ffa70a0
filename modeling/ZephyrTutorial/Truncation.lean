import Mathlib.Algebra.Order.Floor.Ring
import Mathlib.Tactic.Linarith

/-! Conversion of a number to an integer toward zero, over any ordered field with a floor. -/

namespace ZephyrTutorial.Truncation

universe u

variable {α : Type u} [Field α] [LinearOrder α] [FloorRing α]

def trunc (value : α) : Int := if 0 ≤ value then ⌊value⌋ else ⌈value⌉

theorem trunc_of_nonneg {value : α} (nonneg : 0 ≤ value) : trunc value = ⌊value⌋ := if_pos nonneg

variable [IsStrictOrderedRing α]

private theorem trunc_of_nonpos {value : α} (nonpos : value ≤ 0) : trunc value = ⌈value⌉ := by
  unfold trunc
  split
  next nonneg => rw [le_antisymm nonpos nonneg, Int.floor_zero, Int.ceil_zero]
  next => rfl

@[simp]
theorem trunc_intCast (value : Int) : trunc (value : α) = value := by
  simp [trunc]

theorem trunc_mono {small large : α} (ordered : small ≤ large) : trunc small ≤ trunc large := by
  rcases le_total 0 small with nonneg | nonpos
  · rw [trunc_of_nonneg nonneg, trunc_of_nonneg (nonneg.trans ordered)]
    exact Int.floor_mono ordered
  · rw [trunc_of_nonpos nonpos]
    rcases le_total 0 large with above | below
    · rw [trunc_of_nonneg above]
      exact (Int.ceil_le.mpr (by simpa using nonpos)).trans (Int.floor_nonneg.mpr above)
    · rw [trunc_of_nonpos below]
      exact Int.ceil_mono ordered

theorem abs_trunc_sub_lt (value : α) : |(trunc value : α) - value| < 1 := by
  apply abs_sub_lt_iff.mpr
  rcases le_total 0 value with nonneg | nonpos
  · rw [trunc_of_nonneg nonneg]
    have below := Int.floor_le value
    have above := Int.lt_floor_add_one value
    constructor <;> linarith
  · rw [trunc_of_nonpos nonpos]
    have above := Int.le_ceil value
    have below := Int.ceil_lt_add_one value
    constructor <;> linarith

/-- On the upper side an integer bounds what is kept as soon as the number is below the next one. -/
theorem trunc_le_iff (value : α) {bound : Int} (nonneg : 0 ≤ bound) : trunc value ≤ bound ↔ value < bound + 1 := by
  rcases le_total 0 value with positive | negative
  · rw [trunc_of_nonneg positive, ← Int.lt_add_one_iff, Int.floor_lt, Int.cast_add, Int.cast_one]
  · have lifted : (0 : α) ≤ bound := Int.cast_nonneg nonneg
    have kept : trunc value ≤ 0 := by
      rw [trunc_of_nonpos negative]
      exact Int.ceil_le.mpr (by simpa using negative)
    exact iff_of_true (kept.trans nonneg) (by linarith)

theorem le_trunc_iff (value : α) {bound : Int} (positive : 0 < bound) : bound ≤ trunc value ↔ (bound : α) ≤ value := by
  have before := trunc_le_iff value (Int.le_sub_one_of_lt positive)
  rw [Int.le_sub_one_iff, Int.cast_sub, Int.cast_one, sub_add_cancel] at before
  rw [← not_lt, before, not_lt]

private theorem trunc_neg (value : α) : trunc (-value) = -trunc value := by
  rcases le_total 0 value with nonneg | nonpos
  · rw [trunc_of_nonneg nonneg, trunc_of_nonpos (neg_nonpos.mpr nonneg), Int.ceil_neg]
  · rw [trunc_of_nonpos nonpos, trunc_of_nonneg (neg_nonneg.mpr nonpos), Int.floor_neg]

theorem ge_trunc_iff (value : α) {bound : Int} (nonpos : bound ≤ 0) : bound ≤ trunc value ↔ (bound : α) - 1 < value := by
  have mirrored := trunc_le_iff (-value) (neg_nonneg.mpr nonpos)
  rw [trunc_neg, neg_le_neg_iff, Int.cast_neg] at mirrored
  rw [mirrored]
  constructor <;> intro bounded <;> linarith

theorem trunc_le_neg_iff (value : α) {bound : Int} (negative : bound < 0) :
    trunc value ≤ bound ↔ value ≤ bound := by
  have mirrored := le_trunc_iff (-value) (neg_pos.mpr negative)
  rw [trunc_neg, neg_le_neg_iff, Int.cast_neg, neg_le_neg_iff] at mirrored
  exact mirrored

/-- A shift by an integer is kept unless it carries a fraction across zero. -/
def Aligned (value : α) (shift : Int) : Prop :=
  (∃ whole : Int, value = whole) ∨ (0 ≤ value ∧ 0 ≤ value + shift) ∨ (value ≤ 0 ∧ value + shift ≤ 0)

private theorem whole_of_floor_eq_ceil {value : α} (same : ⌊value⌋ = ⌈value⌉) : ∃ whole : Int, value = whole :=
  ⟨⌊value⌋, le_antisymm ((Int.le_ceil value).trans (Int.cast_le.mpr same.ge)) (Int.floor_le value)⟩

theorem trunc_add_int_iff {value : α} {shift : Int} :
    trunc (value + shift) = trunc value + shift ↔ Aligned value shift := by
  constructor
  · intro moved
    rcases le_total 0 value with nonneg | nonpos <;> rcases le_total 0 (value + shift) with above | below
    · exact .inr (.inl ⟨nonneg, above⟩)
    · rw [trunc_of_nonneg nonneg, trunc_of_nonpos below, Int.ceil_add_intCast, add_left_inj] at moved
      exact .inl (whole_of_floor_eq_ceil moved.symm)
    · rw [trunc_of_nonpos nonpos, trunc_of_nonneg above, Int.floor_add_intCast, add_left_inj] at moved
      exact .inl (whole_of_floor_eq_ceil moved)
    · exact .inr (.inr ⟨nonpos, below⟩)
  · rintro (⟨whole, rfl⟩ | ⟨nonneg, above⟩ | ⟨nonpos, below⟩)
    · rw [← Int.cast_add, trunc_intCast, trunc_intCast]
    · rw [trunc_of_nonneg nonneg, trunc_of_nonneg above, Int.floor_add_intCast]
    · rw [trunc_of_nonpos nonpos, trunc_of_nonpos below, Int.ceil_add_intCast]

/-- A shift changes what is kept by the shift and at most one more. -/
theorem trunc_add_int_close (value : α) (shift : Int) :
    trunc value + shift - 1 ≤ trunc (value + shift) ∧ trunc (value + shift) ≤ trunc value + shift + 1 := by
  have moved := abs_sub_lt_iff.mp (abs_trunc_sub_lt (value + shift))
  have kept := abs_sub_lt_iff.mp (abs_trunc_sub_lt value)
  have upper : (trunc (value + shift) : α) < ((trunc value + shift + 2 : Int) : α) := by
    push_cast
    linarith
  have lower : ((trunc value + shift - 2 : Int) : α) < (trunc (value + shift) : α) := by
    push_cast
    linarith
  have := Int.cast_lt.mp upper
  have := Int.cast_lt.mp lower
  omega

end ZephyrTutorial.Truncation
