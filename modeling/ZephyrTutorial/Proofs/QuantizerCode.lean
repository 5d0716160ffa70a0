import ZephyrTutorial.Quantizer

/-! The linear model's quantizer as a code: total and monotone, accurate to less than one
scale step where it does not saturate, and exact on the values it decodes to. -/

namespace ZephyrTutorial.Proofs.QuantizerCode
open ZephyrTutorial.Quantizer LinearModelTflite Truncation

structure AffineCode (reading : Reading) (scale : ℚ) (zero_point : CInt) : Prop where
  total : ∀ value, Convertible value scale →
    ∃ byte, quantize reading value scale zero_point = some byte ∧ -128 ≤ byte.toInt ∧ byte.toInt ≤ 127
  monotone : ∀ small large smallByte largeByte, Convertible small scale → Convertible large scale →
    small ≤ large → quantize reading small scale zero_point = some smallByte →
    quantize reading large scale zero_point = some largeByte → smallByte ≤ largeByte
  accurate : ∀ value quantized byte, Convertible value scale → sum value scale zero_point = some quantized →
    ¬ quantized.val > 127 → ¬ quantized.val < -128 → quantize reading value scale zero_point = some byte →
    ∃ decoded, dequantize byte scale zero_point = some decoded ∧ |decoded - value| < scale
  above : ∀ value quantized, Convertible value scale → sum value scale zero_point = some quantized →
    quantized.val > 127 → ∃ endpoint, dequantize 127 scale zero_point = some endpoint ∧ endpoint < value
  below : ∀ value quantized, Convertible value scale → sum value scale zero_point = some quantized →
    quantized.val < -128 → ∃ endpoint, dequantize (-128) scale zero_point = some endpoint ∧ value < endpoint
  roundTrip : ∀ byte, ∃ decoded, dequantize byte scale zero_point = some decoded ∧
    quantize reading decoded scale zero_point = some byte

variable {reading : Reading} {scale : ℚ} {zero_point : CInt}

private theorem dequantize_eq (byte : Int8) (valid : Int8ZeroPoint zero_point) :
    dequantize byte scale zero_point = some ((byte.toInt - zero_point.val : Int) * scale) := by
  obtain ⟨lowest, highest⟩ := valid
  have upper := byte.toInt_lt
  have lower := byte.le_toInt
  apply Option.bind_eq_some_iff.mpr
  exact ⟨⟨byte.toInt - zero_point.val, by omega, by omega⟩, CInt.sub_eq_some.mpr rfl, rfl⟩

/-- The quotient of a decoded value is the whole number it was decoded from. -/
private theorem decoded_quotient (positive : 0 < scale) (whole : Int) : whole * scale / scale = whole :=
  mul_div_cancel_right₀ _ positive.ne'

private theorem decoded_convertible (positive : 0 < scale) (whole : Int) (lower : -255 ≤ whole) (upper : whole ≤ 255) :
    Convertible (whole * scale) scale := by
  have above : (whole : ℚ) ≤ (255 : Int) := Int.cast_le.mpr upper
  have below : ((-255 : Int) : ℚ) ≤ whole := Int.cast_le.mpr lower
  unfold Convertible
  rw [decoded_quotient positive]
  push_cast at above below
  apply abs_lt.mpr
  constructor <;> linarith

private theorem saturated_mono (positive : 0 < scale) {small large : ℚ} (ordered : small ≤ large) :
    saturated small scale zero_point ≤ saturated large scale zero_point := by
  have kept : trunc (small / scale) ≤ trunc (large / scale) :=
    trunc_mono (div_le_div_of_nonneg_right ordered positive.le)
  unfold saturated
  omega

private theorem decoded_close (positive : 0 < scale) {value : ℚ} {whole : Int} (kept : whole = trunc (value / scale)) :
    |whole * scale - value| < scale := by
  have close := abs_trunc_sub_lt (value / scale)
  have factored : (whole : ℚ) * scale - value = (trunc (value / scale) - value / scale) * scale := by
    rw [kept, sub_mul, div_mul_cancel₀ _ positive.ne']
  calc |whole * scale - value| = |(trunc (value / scale) : ℚ) - value / scale| * scale := by
        rw [factored, abs_mul, abs_of_pos positive]
    _ < 1 * scale := mul_lt_mul_of_pos_right close positive
    _ = scale := one_mul scale

/-- Beyond the upper clamp the value lies above every code, the highest one included. -/
private theorem value_above (positive : 0 < scale) (valid : Int8ZeroPoint zero_point) {value : ℚ}
    (clamped : 127 < trunc (value / scale) + zero_point.val) : ((127 - zero_point.val : Int) : ℚ) * scale < value := by
  obtain ⟨lowest, highest⟩ := valid
  have reached : 128 - zero_point.val ≤ trunc (value / scale) := by omega
  have quotient := (le_trunc_iff _ (by omega)).mp reached
  apply (lt_div_iff₀ positive).mp
  push_cast at quotient ⊢
  linarith

private theorem value_below (positive : 0 < scale) (valid : Int8ZeroPoint zero_point) {value : ℚ}
    (clamped : trunc (value / scale) + zero_point.val < -128) :
    value < ((-128 - zero_point.val : Int) : ℚ) * scale := by
  obtain ⟨lowest, highest⟩ := valid
  have reached : trunc (value / scale) ≤ -129 - zero_point.val := by omega
  apply (div_lt_iff₀ positive).mp
  -- The largest bound is -1, so the quotient is negative and truncation rounds it up.
  have quotient := (trunc_le_neg_iff _ (by omega)).mp reached
  push_cast at quotient ⊢
  linarith

theorem affine_code (reading : Reading) (scale : ℚ) (zero_point : CInt) (scalePositive : 0 < scale)
    (zeroPointInRange : Int8ZeroPoint zero_point) : AffineCode reading scale zero_point where
  total value convertible := by
    obtain ⟨byte, saturates⟩ := saturated_byte value scale zero_point
    refine ⟨byte, (linear_eq_some zeroPointInRange convertible).mpr saturates, ?_⟩
    rw [saturates]
    unfold saturated
    omega
  monotone small large smallByte largeByte smallConvertible largeConvertible ordered smallStored largeStored := by
    rw [linear_eq_some zeroPointInRange smallConvertible] at smallStored
    rw [linear_eq_some zeroPointInRange largeConvertible] at largeStored
    rw [Int8.le_iff_toInt_le, smallStored, largeStored]
    exact saturated_mono scalePositive ordered
  accurate value quantized byte convertible added notAbove notBelow stored := by
    obtain ⟨same, found, kept⟩ := linear_sum zeroPointInRange convertible
    cases found.symm.trans added
    rw [linear_eq_some zeroPointInRange convertible] at stored
    refine ⟨_, dequantize_eq byte zeroPointInRange, decoded_close scalePositive ?_⟩
    unfold saturated at stored
    omega
  above value quantized convertible added clamped := by
    obtain ⟨same, found, kept⟩ := linear_sum zeroPointInRange convertible
    cases found.symm.trans added
    exact ⟨_, dequantize_eq 127 zeroPointInRange,
      value_above scalePositive zeroPointInRange (by omega)⟩
  below value quantized convertible added clamped := by
    obtain ⟨same, found, kept⟩ := linear_sum zeroPointInRange convertible
    cases found.symm.trans added
    exact ⟨_, dequantize_eq (-128) zeroPointInRange,
      value_below scalePositive zeroPointInRange (by omega)⟩
  roundTrip byte := by
    refine ⟨_, dequantize_eq byte zeroPointInRange, ?_⟩
    obtain ⟨lowest, highest⟩ := zeroPointInRange
    have upper := byte.toInt_lt
    have lower := byte.le_toInt
    have convertible := decoded_convertible scalePositive (byte.toInt - zero_point.val) (by omega) (by omega)
    rw [linear_eq_some ⟨lowest, highest⟩ convertible]
    unfold saturated
    rw [decoded_quotient scalePositive, trunc_intCast]
    omega

theorem affine_code_half_scale :
    (0 : ℚ) < 1 / 2 ∧ Int8ZeroPoint ⟨-128, by decide, by decide⟩ ∧
      AffineCode .undefined (1 / 2) ⟨-128, by decide, by decide⟩ :=
  ⟨by norm_num, by unfold Int8ZeroPoint; decide,
    affine_code .undefined (1 / 2) ⟨-128, by decide, by decide⟩ (by norm_num)
      (by unfold Int8ZeroPoint; decide)⟩

end ZephyrTutorial.Proofs.QuantizerCode
