import Mathlib.Data.Int.Basic

/-! The `int` of C on a 32-bit target. The range is part of the type, so a sum that leaves
it is no value at all, as an overflow is undefined. -/

namespace ZephyrTutorial

@[ext]
structure CInt where
  val : Int
  lower : -2147483648 ≤ val
  upper : val ≤ 2147483647
  deriving DecidableEq

namespace CInt

def InRange (value : Int) : Prop := -2147483648 ≤ value ∧ value ≤ 2147483647

instance (value : Int) : Decidable (InRange value) :=
  inferInstanceAs (Decidable (_ ∧ _))

/-- Signed addition. The result is `none` on an overflow. -/
def add (first second : CInt) : Option CInt :=
  if range : InRange (first.val + second.val) then some ⟨first.val + second.val, range.1, range.2⟩ else none

/-- A conversion to `int`. It has no value outside the range. -/
def ofInt (value : Int) : Option CInt :=
  if range : InRange value then some ⟨value, range.1, range.2⟩ else none

/-- Signed subtraction. The result is `none` on an overflow. -/
def sub (first second : CInt) : Option CInt := ofInt (first.val - second.val)

theorem inRange (value : CInt) : InRange value.val := ⟨value.lower, value.upper⟩

theorem add_eq_some {first second sum : CInt} :
    first.add second = some sum ↔ sum.val = first.val + second.val := by
  unfold add
  split
  next range => rw [Option.some.injEq, CInt.ext_iff]; exact eq_comm
  next outside =>
    refine ⟨nofun, fun same => ?_⟩
    exact absurd (same ▸ sum.inRange) outside

theorem ofInt_eq_some {value : Int} {converted : CInt} : ofInt value = some converted ↔ converted.val = value := by
  unfold ofInt
  split
  next range => rw [Option.some.injEq, CInt.ext_iff]; exact eq_comm
  next outside =>
    refine ⟨nofun, fun same => ?_⟩
    exact absurd (same ▸ converted.inRange) outside

theorem sub_eq_some {first second difference : CInt} :
    first.sub second = some difference ↔ difference.val = first.val - second.val := ofInt_eq_some

end CInt

end ZephyrTutorial
