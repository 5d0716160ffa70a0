import ZephyrTutorial.CInt
import ZephyrTutorial.Truncation
import Mathlib.Data.Rat.Floor

/-! The quantizers of the three inference loops. Float arithmetic is read as exact rational
arithmetic; what an out-of-range conversion to `int8_t` gives is a parameter. -/

namespace ZephyrTutorial.Quantizer
open Truncation

/-- What a conversion of an out-of-range value to `int8_t` is taken to be. -/
inductive Reading where
  | undefined
  | modulo
  deriving DecidableEq

def toInt8 (reading : Reading) (value : Int) : Option Int8 :=
  match reading with
  | .undefined => if -128 ≤ value ∧ value ≤ 127 then some (Int8.ofInt value) else none
  | .modulo => some (Int8.ofInt value)

/-- The integer promotion of an `int8_t`. -/
def ofInt8 (value : Int8) : CInt :=
  ⟨value.toInt, by have := value.le_toInt; omega, by have := value.toInt_lt; omega⟩

namespace LinearModelTflite

/-- `quantized_input` before its two clamps. -/
def sum (current_sensor_val in_scale : ℚ) (in_zero_point : CInt) : Option CInt := do
  let quotient ← CInt.ofInt (trunc (current_sensor_val / in_scale))
  quotient.add in_zero_point

def clamp (quantized_input : Int) : Int :=
  let quantized_input := if quantized_input > 127 then 127 else quantized_input
  if quantized_input < -128 then -128 else quantized_input

/-- The byte that the loop of `main` stores into the input tensor. -/
def quantize (reading : Reading) (current_sensor_val in_scale : ℚ) (in_zero_point : CInt) : Option Int8 := do
  let quantized_input ← sum current_sensor_val in_scale in_zero_point
  toInt8 reading (clamp quantized_input.val)

/-- The prediction that the loop reads from an output byte. -/
def dequantize (quantized_output : Int8) (out_scale : ℚ) (out_zero_point : CInt) : Option ℚ := do
  let difference ← (ofInt8 quantized_output).sub out_zero_point
  pure (difference.val * out_scale)

end LinearModelTflite

namespace SineModelTflite

def quantize (reading : Reading) (input_data in_scale : ℚ) (in_zero_point : CInt) : Option Int8 := do
  -- The cast binds to the quotient alone, and its result is narrowed once more after the addition.
  let narrowed ← toInt8 reading (trunc (input_data / in_scale))
  let sum ← (ofInt8 narrowed).add in_zero_point
  let input_quantized ← toInt8 reading sum.val
  let input_quantized := if input_quantized.toInt > 127 then 127 else input_quantized
  let input_quantized := if input_quantized.toInt < -128 then -128 else input_quantized
  pure input_quantized

end SineModelTflite

namespace Mcc

/-- All three input bytes of the loop are stored this way. -/
def quantize (reading : Reading) (input in_scale : ℚ) (in_zero_point : CInt) : Option Int8 :=
  toInt8 reading (trunc (input / in_scale + in_zero_point.val))

end Mcc

/-- The value that all three loops are meant to store: the rounded quotient, shifted and saturated. -/
def saturated (value scale : ℚ) (zero_point : CInt) : Int :=
  max (-128) (min 127 (trunc (value / scale) + zero_point.val))

/-- The parameters of an int8 tensor. -/
def Int8ZeroPoint (zero_point : CInt) : Prop := -128 ≤ zero_point.val ∧ zero_point.val ≤ 127

/-- The inputs whose quotient the conversion to `int32_t` and the addition can take. -/
def Convertible (value scale : ℚ) : Prop := |value / scale| < 2 ^ 31 - 256

private theorem clamp_eq (value : Int) : LinearModelTflite.clamp value = max (-128) (min 127 value) := by
  simp only [LinearModelTflite.clamp]
  omega

/-- The clamps of the sine loop compare an `int8_t` with its own bounds. -/
theorem dead_clamps (input_quantized : Int8) :
    ¬ input_quantized.toInt > 127 ∧ ¬ input_quantized.toInt < -128 := by
  have upper := input_quantized.toInt_lt
  have lower := input_quantized.le_toInt
  constructor <;> omega

/-- A converted value is the byte itself, or it differs by a multiple of 2 ^ 8 where that is allowed. -/
def Reads (reading : Reading) (value : Int) (byte : Int8) : Prop :=
  value = byte.toInt ∨ (reading = .modulo ∧ (value - byte.toInt) % 256 = 0)

theorem toInt8_eq_some {reading : Reading} {value : Int} {byte : Int8} :
    toInt8 reading value = some byte ↔ Reads reading value byte := by
  have upper := byte.toInt_lt
  have lower := byte.le_toInt
  have wrapped : Int8.ofInt value = byte ↔ (value - byte.toInt) % 256 = 0 := by
    rw [Int8.ofInt_eq_iff_bmod_eq_toInt, Int.bmod_eq_iff (by decide)]
    omega
  cases reading with
  | modulo =>
    simp only [toInt8, Reads, Option.some.injEq, wrapped, true_and]
    omega
  | undefined =>
    simp only [toInt8, Reads, reduceCtorEq, false_and, or_false]
    constructor
    · intro converted
      split at converted
      · have same := wrapped.mp (Option.some.inj converted)
        omega
      · cases converted
    · rintro rfl
      rw [if_pos (by omega), Int8.ofInt_toInt]

theorem sine_eq_some {reading : Reading} {value scale : ℚ} {zero_point : CInt} {byte : Int8}
    (valid : Int8ZeroPoint zero_point) :
    SineModelTflite.quantize reading value scale zero_point = some byte ↔
      ∃ narrowed, Reads reading (trunc (value / scale)) narrowed ∧
        Reads reading (narrowed.toInt + zero_point.val) byte := by
  obtain ⟨lowest, highest⟩ := valid
  simp only [SineModelTflite.quantize, Option.bind_eq_bind, Option.bind_eq_some_iff, Option.pure_def,
    Option.some.injEq, toInt8_eq_some, CInt.add_eq_some, ofInt8, if_neg (dead_clamps _).1, if_neg (dead_clamps _).2]
  constructor
  · rintro ⟨narrowed, first, sum, added, _, second, rfl⟩
    exact ⟨narrowed, first, added ▸ second⟩
  · rintro ⟨narrowed, first, second⟩
    have upper := narrowed.toInt_lt
    have lower := narrowed.le_toInt
    exact ⟨narrowed, first, ⟨narrowed.toInt + zero_point.val, by omega, by omega⟩, rfl, byte, second, rfl⟩

theorem mcc_eq_some {reading : Reading} {value scale : ℚ} {zero_point : CInt} {byte : Int8} :
    Mcc.quantize reading value scale zero_point = some byte ↔
      Reads reading (trunc (value / scale + zero_point.val)) byte := toInt8_eq_some

/-- In its domain the linear loop adds without overflow. -/
theorem linear_sum {value scale : ℚ} {zero_point : CInt} (valid : Int8ZeroPoint zero_point)
    (convertible : Convertible value scale) :
    ∃ sum, LinearModelTflite.sum value scale zero_point = some sum ∧
      sum.val = trunc (value / scale) + zero_point.val := by
  obtain ⟨lowest, highest⟩ := valid
  obtain ⟨lower, upper⟩ := abs_lt.mp convertible
  have below : trunc (value / scale) ≤ 2147483647 - 256 := by
    apply (trunc_le_iff _ (by decide)).mpr
    push_cast
    linarith
  have above : -2147483647 + 256 ≤ trunc (value / scale) := by
    apply (ge_trunc_iff _ (by decide)).mpr
    push_cast
    linarith
  refine ⟨⟨trunc (value / scale) + zero_point.val, by omega, by omega⟩, ?_, rfl⟩
  apply Option.bind_eq_some_iff.mpr
  exact ⟨⟨trunc (value / scale), by omega, by omega⟩, CInt.ofInt_eq_some.mpr rfl, CInt.add_eq_some.mpr rfl⟩

/-- The linear loop stores the saturated value under both readings. -/
theorem linear_eq_some {reading : Reading} {value scale : ℚ} {zero_point : CInt} {byte : Int8}
    (valid : Int8ZeroPoint zero_point) (convertible : Convertible value scale) :
    LinearModelTflite.quantize reading value scale zero_point = some byte ↔
      byte.toInt = saturated value scale zero_point := by
  obtain ⟨sum, added, same⟩ := linear_sum valid convertible
  have upper := byte.toInt_lt
  have lower := byte.le_toInt
  simp only [LinearModelTflite.quantize, added, Option.bind_eq_bind, Option.bind_some, clamp_eq, same,
    toInt8_eq_some, Reads, saturated]
  omega

theorem saturated_byte (value scale : ℚ) (zero_point : CInt) :
    ∃ byte : Int8, byte.toInt = saturated value scale zero_point := by
  refine ⟨Int8.ofInt (saturated value scale zero_point), ?_⟩
  unfold saturated
  apply Int8.toInt_ofInt_of_le <;> omega

end ZephyrTutorial.Quantizer
