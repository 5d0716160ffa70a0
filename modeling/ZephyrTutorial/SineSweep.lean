import ZephyrTutorial.FloatFormat
import ZephyrTutorial.Quantizer

/-! The loop of the sine demo, which sweeps its input from zero to two times 3.14 and starts over. Its floats
are binary32 numbers, so that the sweep does not meet the tenths. A quotient that does not fit into an
`int8_t` has no conversion, while a sum that does not fit wraps. -/

namespace ZephyrTutorial.SineSweep
open FloatFormat Quantizer Truncation

/-- What a `float` holds of a value. -/
def float (value : ℚ) : ℚ := binary32.round value

/-- The quantization parameters of the input and of the output tensor. -/
structure Params where
  in_scale : ℚ
  in_zero_point : CInt
  out_scale : ℚ
  out_zero_point : CInt

/-- What an iteration logs. -/
structure Line where
  input_data : ℚ
  input_quantized : Int8
  output_quantized : Int8
  output_data : ℚ

/-- The byte that an iteration stores into the input tensor. -/
def quantize (params : Params) (input_data : ℚ) : Option Int8 := do
  -- The cast binds to the quotient alone.
  let narrowed ← toInt8 .undefined (trunc (float (input_data / params.in_scale)))
  let sum ← (ofInt8 narrowed).add params.in_zero_point
  let input_quantized ← toInt8 .modulo sum.val
  let input_quantized := if input_quantized.toInt > 127 then 127 else input_quantized
  let input_quantized := if input_quantized.toInt < -128 then -128 else input_quantized
  pure input_quantized

/-- The end of an iteration. -/
def advance (input_data : ℚ) : ℚ :=
  let input_data := float (input_data + float (1 / 10))
  if input_data > float (2 * float (314 / 100)) then 0 else input_data

/-- The loop over the output bytes of the interpreter; it is left when `Invoke` fails. -/
def loop (params : Params) : List (Option Int8) → ℚ → Option (List Line)
  | [], _ => some []
  | invoked :: later, input_data => do
    let input_quantized ← quantize params input_data
    match invoked with
    | none => pure []
    | some output_quantized =>
      let difference ← (ofInt8 output_quantized).sub params.out_zero_point
      let output_data := float (float difference.val * params.out_scale)
      let lines ← loop params later (advance input_data)
      pure (⟨input_data, input_quantized, output_quantized, output_data⟩ :: lines)

/-- The iterations that the loop begins. -/
def iterations : List (Option Int8) → Nat
  | [] => 0
  | none :: _ => 1
  | some _ :: later => iterations later + 1

/-- The output bytes of the iterations that come to their end. -/
def outputs : List (Option Int8) → List Int8
  | [] | none :: _ => []
  | some output_quantized :: later => output_quantized :: outputs later

/-- The input of an iteration. -/
def input : Nat → ℚ
  | 0 => 0
  | index + 1 => advance (input index)

/-- The last input before the sweep starts over, a little below 6.2. -/
def greatest : ℚ := 13002335 / 2097152

/-- The quotient has a conversion to `int8_t`. -/
def Fits (params : Params) (input_data : ℚ) : Prop := float (input_data / params.in_scale) < 128

/-- The code of an input, before it is brought into the range of an `int8_t`. -/
def code (params : Params) (input_data : ℚ) : Int :=
  trunc (float (input_data / params.in_scale)) + params.in_zero_point.val

/-- The parameters of int8 tensors. -/
structure Valid (params : Params) : Prop where
  positive : 0 < params.in_scale
  input : Int8ZeroPoint params.in_zero_point
  output : Int8ZeroPoint params.out_zero_point

end ZephyrTutorial.SineSweep
