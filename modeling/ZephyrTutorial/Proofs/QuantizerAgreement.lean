import ZephyrTutorial.Quantizer

/-! Where the three quantizers store the same byte. The sine and the mcc loop do not saturate,
and the mcc loop adds the zero point before it drops the fraction. -/

namespace ZephyrTutorial.Proofs.QuantizerAgreement
open ZephyrTutorial.Quantizer Truncation

structure Agree (reading : Reading) (value scale : ℚ) (zero_point : CInt) : Prop where
  linear : ∃ byte : Int8, byte.toInt = saturated value scale zero_point ∧
    LinearModelTflite.quantize reading value scale zero_point = some byte
  sine : SineModelTflite.quantize reading value scale zero_point =
    LinearModelTflite.quantize reading value scale zero_point
  mcc : Mcc.quantize reading value scale zero_point =
    LinearModelTflite.quantize reading value scale zero_point

/-- The quotients that no conversion of the sine and mcc loops has to change. -/
def Exact (quotient : ℚ) (zero_point : Int) : Prop :=
  (-129 < quotient ∧ quotient < 128) ∧ -129 - zero_point < quotient ∧ quotient < 128 - zero_point

/-- Under the reduction the shifted quotient may also lie out of range, as long as the byte it
wraps to is the bound it should saturate at. -/
def Wraps (quotient : ℚ) (zero_point : Int) : Prop :=
  (-129 - zero_point < quotient ∧ quotient < 128 - zero_point) ∨
  (∃ turns : Int, 0 < turns ∧
    256 * turns + 127 - zero_point ≤ quotient ∧ quotient < 256 * turns + 128 - zero_point) ∨
  ∃ turns : Int, 0 < turns ∧
    -(256 * turns) - 129 - zero_point < quotient ∧ quotient ≤ -(256 * turns) - 128 - zero_point

def Narrowable (reading : Reading) (quotient : ℚ) (zero_point : Int) : Prop :=
  match reading with
  | .undefined => Exact quotient zero_point
  | .modulo => Wraps quotient zero_point

variable {quotient : ℚ} {zero_point : Int}

private theorem shifted_bounds (quotient : ℚ) (lowest : -128 ≤ zero_point) (highest : zero_point ≤ 127) :
    (-129 - zero_point < quotient ∧ quotient < 128 - zero_point) ↔
      -128 ≤ trunc quotient + zero_point ∧ trunc quotient + zero_point ≤ 127 := by
  have below : -129 - (zero_point : ℚ) < quotient ↔ -128 - zero_point ≤ trunc quotient := by
    rw [ge_trunc_iff _ (by omega)]
    push_cast
    constructor <;> intro bounded <;> linarith
  have above : quotient < 128 - (zero_point : ℚ) ↔ trunc quotient ≤ 127 - zero_point := by
    rw [trunc_le_iff _ (by omega)]
    push_cast
    constructor <;> intro bounded <;> linarith
  rw [below, above]
  omega

private theorem exact_iff (lowest : -128 ≤ zero_point) (highest : zero_point ≤ 127) :
    Exact quotient zero_point ↔ (-128 ≤ trunc quotient ∧ trunc quotient ≤ 127) ∧
      -128 ≤ trunc quotient + zero_point ∧ trunc quotient + zero_point ≤ 127 := by
  have plain := shifted_bounds quotient (show -128 ≤ (0 : Int) by decide) (by decide)
  simp only [Int.cast_zero, sub_zero, add_zero] at plain
  rw [Exact, plain, shifted_bounds _ lowest highest]

/-- Above zero a truncation is one integer exactly on the unit interval from it. -/
private theorem trunc_eq_upper {whole : Int} (positive : 0 < whole) :
    ((whole : ℚ) ≤ quotient ∧ quotient < whole + 1) ↔ trunc quotient = whole := by
  rw [← le_trunc_iff _ positive, ← trunc_le_iff _ positive.le]
  omega

private theorem trunc_eq_lower {whole : Int} (negative : whole < 0) :
    ((whole : ℚ) - 1 < quotient ∧ quotient ≤ whole) ↔ trunc quotient = whole := by
  rw [← ge_trunc_iff _ negative.le, ← trunc_le_neg_iff _ negative]
  omega

private theorem wraps_iff (lowest : -128 ≤ zero_point) (highest : zero_point ≤ 127) :
    Wraps quotient zero_point ↔
      (trunc quotient + zero_point - max (-128) (min 127 (trunc quotient + zero_point))) % 256 = 0 := by
  have above : ∀ turns : Int, 0 < turns →
      ((256 * turns + 127 - zero_point ≤ quotient ∧ quotient < 256 * turns + 128 - zero_point) ↔
        trunc quotient = 256 * turns + 127 - zero_point) := by
    intro turns positive
    rw [← trunc_eq_upper (by omega)]
    push_cast
    constructor <;> rintro ⟨lower, upper⟩ <;> constructor <;> linarith
  have below : ∀ turns : Int, 0 < turns →
      ((-(256 * turns) - 129 - zero_point < quotient ∧ quotient ≤ -(256 * turns) - 128 - zero_point) ↔
        trunc quotient = -(256 * turns) - 128 - zero_point) := by
    intro turns positive
    rw [← trunc_eq_lower (by omega)]
    push_cast
    constructor <;> rintro ⟨lower, upper⟩ <;> constructor <;> linarith
  unfold Wraps
  rw [shifted_bounds _ lowest highest]
  constructor
  · rintro (inside | ⟨turns, positive, high⟩ | ⟨turns, positive, low⟩)
    · omega
    · have := (above turns positive).mp high
      omega
    · have := (below turns positive).mp low
      omega
  · intro congruent
    rcases lt_or_ge 127 (trunc quotient + zero_point) with beyond | under
    · have positive : 0 < (trunc quotient + zero_point - 127) / 256 := by omega
      exact .inr (.inl ⟨_, positive, (above _ positive).mpr (by omega)⟩)
    · rcases lt_or_ge (trunc quotient + zero_point) (-128) with beneath | inside
      · have positive : 0 < (-128 - (trunc quotient + zero_point)) / 256 := by omega
        exact .inr (.inr ⟨_, positive, (below _ positive).mpr (by omega)⟩)
      · exact .inl ⟨inside, under⟩

/-- Both narrowings of the sine loop keep the saturated value. -/
private theorem sine_saturates {reading : Reading} {value scale : ℚ} {zero_point : CInt} {byte : Int8}
    (valid : Int8ZeroPoint zero_point) (stored : byte.toInt = saturated value scale zero_point) :
    SineModelTflite.quantize reading value scale zero_point = some byte ↔
      Narrowable reading (value / scale) zero_point.val := by
  obtain ⟨lowest, highest⟩ := valid
  rw [sine_eq_some ⟨lowest, highest⟩]
  unfold saturated at stored
  cases reading with
  | undefined =>
    simp only [Narrowable, exact_iff lowest highest, Reads, reduceCtorEq, false_and, or_false]
    constructor
    · rintro ⟨narrowed, kept, shifted⟩
      have upper := narrowed.toInt_lt
      have lower := narrowed.le_toInt
      omega
    · rintro ⟨kept, shifted⟩
      have same : (Int8.ofInt (trunc (value / scale))).toInt = trunc (value / scale) :=
        Int8.toInt_ofInt_of_le (by omega) (by omega)
      refine ⟨_, same.symm, ?_⟩
      omega
  | modulo =>
    simp only [Narrowable, wraps_iff lowest highest, Reads, true_and]
    constructor
    · rintro ⟨narrowed, kept, shifted⟩
      omega
    · intro congruent
      have narrowed : Reads .modulo (trunc (value / scale)) (Int8.ofInt (trunc (value / scale))) :=
        toInt8_eq_some.mp rfl
      simp only [Reads, true_and] at narrowed
      refine ⟨_, narrowed, ?_⟩
      omega

/-- Truncation after the shift gives the same byte only when the truncated values are equal. -/
private theorem mcc_saturates {reading : Reading} {value scale : ℚ} {zero_point : CInt} {byte : Int8}
    (valid : Int8ZeroPoint zero_point) (stored : byte.toInt = saturated value scale zero_point)
    (narrowable : Narrowable reading (value / scale) zero_point.val) :
    Mcc.quantize reading value scale zero_point = some byte ↔ Aligned (value / scale) zero_point.val := by
  obtain ⟨lowest, highest⟩ := valid
  have close := trunc_add_int_close (value / scale) zero_point.val
  rw [mcc_eq_some, ← trunc_add_int_iff]
  unfold saturated at stored
  cases reading with
  | undefined =>
    have kept := (exact_iff lowest highest).mp narrowable
    simp only [Reads, reduceCtorEq, false_and, or_false]
    omega
  | modulo =>
    have kept := (wraps_iff lowest highest).mp narrowable
    simp only [Reads, true_and]
    omega

/-- The three loops store the saturated byte exactly when no conversion to `int8_t` has to
change it and the zero point does not carry a fraction across zero. -/
theorem agree_iff (reading : Reading) (value scale : ℚ) (zero_point : CInt)
    (zeroPointInRange : Int8ZeroPoint zero_point) (quotientInRange : Convertible value scale) :
    Agree reading value scale zero_point ↔
      Narrowable reading (value / scale) zero_point.val ∧ Aligned (value / scale) zero_point.val := by
  obtain ⟨byte, saturates⟩ := saturated_byte value scale zero_point
  have linear : LinearModelTflite.quantize reading value scale zero_point = some byte :=
    (linear_eq_some zeroPointInRange quotientInRange).mpr saturates
  have sine : SineModelTflite.quantize reading value scale zero_point = some byte ↔ _ :=
    sine_saturates zeroPointInRange saturates
  constructor
  · intro agree
    have narrowable := sine.mp (agree.sine.trans linear)
    exact ⟨narrowable, (mcc_saturates zeroPointInRange saturates narrowable).mp (agree.mcc.trans linear)⟩
  · rintro ⟨narrowable, aligned⟩
    refine ⟨⟨byte, saturates, linear⟩, ?_, ?_⟩
    · rw [linear]
      exact sine.mpr narrowable
    · rw [linear]
      exact (mcc_saturates zeroPointInRange saturates narrowable).mpr aligned

theorem agree_iff_small_input :
    Int8ZeroPoint ⟨3, by decide, by decide⟩ ∧ Convertible 1 (1 / 25) ∧
      (Agree .undefined 1 (1 / 25) ⟨3, by decide, by decide⟩ ↔
        Narrowable .undefined (1 / (1 / 25)) 3 ∧ Aligned ((1 : ℚ) / (1 / 25)) 3) :=
  ⟨by unfold Int8ZeroPoint; decide, by norm_num [Convertible],
    agree_iff .undefined 1 (1 / 25) ⟨3, by decide, by decide⟩
      (by unfold Int8ZeroPoint; decide) (by norm_num [Convertible])⟩

/-- Under both readings the quotient 150 is saturated by the linear loop alone. -/
theorem large_input_differs :
    ¬ ∃ reading, ∀ (value scale : ℚ) (zero_point : CInt), 0 < scale → Int8ZeroPoint zero_point →
      Convertible value scale → Agree reading value scale zero_point := by
  rintro ⟨reading, always⟩
  have agree := always 6 (1 / 25) ⟨0, by decide, by decide⟩ (by norm_num)
    (by unfold Int8ZeroPoint; decide) (by norm_num [Convertible])
  obtain ⟨byte, saturates, linear⟩ := agree.linear
  have narrowed := mcc_eq_some.mp (agree.mcc.trans linear)
  have quotient : trunc ((6 : ℚ) / (1 / 25)) = 150 := by
    rw [show (6 : ℚ) / (1 / 25) = (150 : Int) by norm_num, trunc_intCast]
  have shifted : trunc ((6 : ℚ) / (1 / 25) + (0 : Int)) = 150 := by
    rw [Int.cast_zero, add_zero, quotient]
  simp only [saturated, quotient] at saturates
  simp only [Reads, shifted] at narrowed
  omega

end ZephyrTutorial.Proofs.QuantizerAgreement
