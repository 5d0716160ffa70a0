import Mathlib.Data.List.Iterate
import Mathlib.Data.Nat.Periodic
import ZephyrTutorial.SineSweep

/-! Which models the loop of the sine demo can be run with, and which of them it codes as it should. -/

namespace ZephyrTutorial.Proofs.SineSweepRange
open ZephyrTutorial.SineSweep ZephyrTutorial.Quantizer FloatFormat Truncation

variable {params : Params}

/-- Up to its rounding errors the sweep is that of the tenths below 6.28. -/
private theorem sweep_checked : advance greatest = 0 ∧ (List.iterate advance 0 63)[62]? = some greatest ∧
    (List.iterate advance 0 63).IsChain (· < ·) ∧
    ∀ input_data ∈ List.iterate advance 0 63, 0 ≤ input_data ∧ input_data ≤ greatest := by
  decide +kernel

private theorem input_iterate (index : Nat) : input index = advance^[index] 0 := by
  induction index with
  | zero => rfl
  | succ index ih => rw [input, ih, Function.iterate_succ_apply']

private theorem input_last : input 62 = greatest := by
  have found := sweep_checked.2.1
  rw [List.getElem?_iterate _ _ _ _ (by decide), ← input_iterate] at found
  exact Option.some.inj found

private theorem input_climbs {index : Nat} (inside : index < 62) : input index < input (index + 1) := by
  have climbs := sweep_checked.2.2.1.getElem index (by rw [List.length_iterate]; omega)
  rwa [List.getElem_iterate, List.getElem_iterate, ← input_iterate, ← input_iterate] at climbs

theorem input_periodic : Function.Periodic input 63 := by
  intro index
  induction index with
  | zero =>
    show advance (input 62) = 0
    rw [input_last]
    exact sweep_checked.1
  | succ index ih =>
    rw [Nat.succ_add, input, ih]
    rfl

private theorem input_bounds (index : Nat) : 0 ≤ input index ∧ input index ≤ greatest := by
  rw [← input_periodic.map_mod_nat index, input_iterate]
  have inside : index % 63 < 63 := Nat.mod_lt index (by decide)
  apply sweep_checked.2.2.2
  exact List.mem_of_getElem? (List.getElem?_iterate advance 0 63 (index % 63) inside)

/-- What is stored, if the quotient has a conversion: the sum or what it wraps to. -/
def stored (params : Params) (input_data : ℚ) : Int :=
  if code params input_data ≤ 127 then code params input_data else code params input_data - 256

private theorem quotient_nonneg (valid : Valid params) {input_data : ℚ} (nonneg : 0 ≤ input_data) :
    0 ≤ float (input_data / params.in_scale) :=
  Format.round_nonneg (div_nonneg nonneg valid.positive.le)

private theorem quotient_trunc_nonneg (valid : Valid params) {input_data : ℚ} (nonneg : 0 ≤ input_data) :
    0 ≤ trunc (float (input_data / params.in_scale)) := by
  rw [trunc_of_nonneg (quotient_nonneg valid nonneg)]
  exact Int.floor_nonneg.mpr (quotient_nonneg valid nonneg)

private theorem fits_iff_trunc (params : Params) (input_data : ℚ) :
    Fits params input_data ↔ trunc (float (input_data / params.in_scale)) ≤ 127 := by
  rw [trunc_le_iff _ (by decide), Fits]
  norm_num

private theorem quantize_eq_some (valid : Valid params) {input_data : ℚ} (nonneg : 0 ≤ input_data) {byte : Int8} :
    quantize params input_data = some byte ↔ Fits params input_data ∧ byte.toInt = stored params input_data := by
  obtain ⟨lowest, highest⟩ := valid.input
  have least := quotient_trunc_nonneg valid nonneg
  have upper := byte.toInt_lt
  have lower := byte.le_toInt
  simp only [quantize, Option.bind_eq_bind, Option.bind_eq_some_iff, Option.pure_def, Option.some.injEq,
    toInt8_eq_some, CInt.add_eq_some, ofInt8, if_neg (dead_clamps _).1, if_neg (dead_clamps _).2, Reads, reduceCtorEq,
    false_and, or_false, true_and, fits_iff_trunc, stored, code]
  constructor
  · rintro ⟨narrowed, first, sum, added, _, second, rfl⟩
    have high := narrowed.toInt_lt
    exact ⟨by omega, by omega⟩
  · rintro ⟨small, same⟩
    refine ⟨Int8.ofInt (trunc (float (input_data / params.in_scale))), ?_, ?_⟩
    · rw [Int8.toInt_ofInt_of_le (by omega) (by omega)]
    · rw [Int8.toInt_ofInt_of_le (by omega) (by omega)]
      refine ⟨⟨trunc (float (input_data / params.in_scale)) + params.in_zero_point.val, by omega, by omega⟩, rfl, byte,
        ?_, rfl⟩
      dsimp only
      omega

/-- The code is saturated as it should be exactly when it is not too large. -/
private theorem stored_saturates (valid : Valid params) {input_data : ℚ} (nonneg : 0 ≤ input_data)
    (fits : Fits params input_data) :
    stored params input_data = max (-128) (min 127 (code params input_data)) ↔ code params input_data ≤ 127 := by
  obtain ⟨lowest, highest⟩ := valid.input
  have least := quotient_trunc_nonneg valid nonneg
  have most := (fits_iff_trunc params input_data).mp fits
  unfold stored
  unfold code
  omega

private theorem difference_defined (valid : Valid params) (output_quantized : Int8) :
    ∃ difference, (ofInt8 output_quantized).sub params.out_zero_point = some difference ∧
      difference.val = output_quantized.toInt - params.out_zero_point.val := by
  obtain ⟨lowest, highest⟩ := valid.output
  have upper := output_quantized.toInt_lt
  have lower := output_quantized.le_toInt
  exact ⟨⟨output_quantized.toInt - params.out_zero_point.val, by omega, by omega⟩, CInt.sub_eq_some.mpr rfl, rfl⟩

/-- What an output byte stands for. -/
def prediction (params : Params) (output_quantized : Int8) : ℚ :=
  float (float (output_quantized.toInt - params.out_zero_point.val : Int) * params.out_scale)

private theorem loop_some (valid : Valid params) (output_quantized : Int8) (later : List (Option Int8)) (input_data : ℚ)
    {lines : List Line} :
    loop params (some output_quantized :: later) input_data = some lines ↔
      ∃ input_quantized rest, quantize params input_data = some input_quantized ∧
        loop params later (advance input_data) = some rest ∧
        ⟨input_data, input_quantized, output_quantized, prediction params output_quantized⟩ :: rest = lines := by
  obtain ⟨difference, defined, value⟩ := difference_defined valid output_quantized
  simp only [loop, defined, Option.bind_eq_bind, Option.bind_some, Option.bind_eq_some_iff, Option.pure_def,
    Option.some.injEq, value, prediction, exists_and_left]

private theorem loop_none (later : List (Option Int8)) (input_data : ℚ) {lines : List Line} :
    loop params (none :: later) input_data = some lines ↔ (quantize params input_data).isSome ∧ [] = lines := by
  simp only [loop, Option.bind_eq_bind, Option.bind_eq_some_iff, Option.pure_def, Option.some.injEq, exists_and_right,
    Option.isSome_iff_exists]

private theorem fits_iff (valid : Valid params) {input_data : ℚ} (nonneg : 0 ≤ input_data) :
    (quantize params input_data).isSome ↔ Fits params input_data := by
  rw [Option.isSome_iff_exists]
  constructor
  · rintro ⟨byte, quantized⟩
    exact ((quantize_eq_some valid nonneg).mp quantized).1
  · intro fits
    obtain ⟨lowest, highest⟩ := valid.input
    have least := quotient_trunc_nonneg valid nonneg
    have most := (fits_iff_trunc params input_data).mp fits
    refine ⟨Int8.ofInt (stored params input_data), (quantize_eq_some valid nonneg).mpr ⟨fits, ?_⟩⟩
    apply Int8.toInt_ofInt_of_le <;> unfold stored <;> unfold code <;> omega

/-- From any iteration on, the loop is defined as long as each input fits that it comes to. -/
private theorem loop_isSome_iff (valid : Valid params) (invoked : List (Option Int8)) (index : Nat) :
    (loop params invoked (input index)).isSome ↔ ∀ n < iterations invoked, Fits params (input (index + n)) := by
  induction invoked generalizing index with
  | nil => exact iff_of_true rfl nofun
  | cons first later ih =>
    have now := fits_iff valid (input_bounds index).1
    cases first with
    | none =>
      rw [Option.isSome_iff_exists, iterations]
      simp only [loop_none, exists_and_left, exists_eq', and_true, now, Nat.lt_one_iff, forall_eq, Nat.add_zero]
    | some output_quantized =>
      rw [Option.isSome_iff_exists, iterations, Nat.forall_lt_succ_left]
      have next := ih (index + 1)
      simp only [Nat.succ_add_eq_add_succ] at next
      rw [← next, Nat.add_zero, ← now, Option.isSome_iff_exists, Option.isSome_iff_exists]
      constructor
      · rintro ⟨lines, ran⟩
        obtain ⟨input_quantized, rest, quantized, ran, _⟩ := (loop_some valid _ _ _).mp ran
        exact ⟨⟨input_quantized, quantized⟩, rest, ran⟩
      · rintro ⟨⟨input_quantized, quantized⟩, rest, ran⟩
        exact ⟨_, (loop_some valid _ _ _).mpr ⟨input_quantized, rest, quantized, ran, rfl⟩⟩

/-- What a line of the log says. -/
structure Swept (params : Params) (index : Nat) (line : Line) : Prop where
  input_data : line.input_data = input index
  input_quantized : line.input_quantized.toInt = stored params (input index)
  output_data : line.output_data = prediction params line.output_quantized

private theorem loop_swept (valid : Valid params) {invoked : List (Option Int8)} {index : Nat} {lines : List Line}
    (ran : loop params invoked (input index) = some lines) (n : Nat) (line : Line) (found : lines[n]? = some line) :
    Swept params (index + n) line := by
  induction invoked generalizing index lines n with
  | nil => cases ran; cases found
  | cons first later ih =>
    cases first with
    | none =>
      obtain ⟨_, rfl⟩ := (loop_none later _).mp ran
      cases found
    | some output_quantized =>
      obtain ⟨input_quantized, rest, quantized, goes, rfl⟩ := (loop_some valid _ _ _).mp ran
      cases n with
      | zero =>
        cases found
        exact ⟨rfl, ((quantize_eq_some valid (input_bounds index).1).mp quantized).2, rfl⟩
      | succ n =>
        rw [← Nat.succ_add_eq_add_succ]
        exact ih (show loop params later (input (index + 1)) = some rest from goes) n found

private theorem loop_outputs (valid : Valid params) {invoked : List (Option Int8)} {input_data : ℚ} {lines : List Line}
    (ran : loop params invoked input_data = some lines) : lines.map (·.output_quantized) = outputs invoked := by
  induction invoked generalizing input_data lines with
  | nil => cases ran; rfl
  | cons first later ih =>
    cases first with
    | none =>
      obtain ⟨_, rfl⟩ := (loop_none later _).mp ran
      rfl
    | some output_quantized =>
      obtain ⟨_, rest, _, goes, rfl⟩ := (loop_some valid _ _ _).mp ran
      rw [List.map_cons, outputs, ih goes]

private theorem quotient_mono (valid : Valid params) {small large : ℚ} (nonneg : 0 ≤ small) (ordered : small ≤ large) :
    float (small / params.in_scale) ≤ float (large / params.in_scale) :=
  Format.round_mono (div_nonneg nonneg valid.positive.le) (div_le_div_of_nonneg_right ordered valid.positive.le)

private theorem fits_mono (valid : Valid params) {small large : ℚ} (nonneg : 0 ≤ small) (ordered : small ≤ large)
    (fits : Fits params large) : Fits params small :=
  (quotient_mono valid nonneg ordered).trans_lt fits

private theorem code_mono (valid : Valid params) {small large : ℚ} (nonneg : 0 ≤ small) (ordered : small ≤ large) :
    code params small ≤ code params large :=
  Int.add_le_add_right (trunc_mono (quotient_mono valid nonneg ordered)) _

/-- A line whose byte is the code, saturated. -/
def Saturated (params : Params) (index : Nat) (line : Line) : Prop :=
  line.input_quantized.toInt = max (-128) (min 127 (code params (input index)))

private theorem swept_saturated (valid : Valid params) {index : Nat} {line : Line} (fits : Fits params (input index))
    (swept : Swept params index line) : Saturated params index line ↔ code params (input index) ≤ 127 := by
  rw [Saturated, swept.input_quantized]
  exact stored_saturates valid (input_bounds index).1 fits

private theorem start_isSome_iff (valid : Valid params) (invoked : List (Option Int8)) :
    (loop params invoked 0).isSome ↔ ∀ n < iterations invoked, Fits params (input n) := by
  have defined := loop_isSome_iff valid invoked 0
  simp only [Nat.zero_add] at defined
  exact defined

private theorem start_swept (valid : Valid params) {invoked : List (Option Int8)} {lines : List Line}
    (ran : loop params invoked 0 = some lines) (n : Nat) (line : Line) (found : lines[n]? = some line) :
    Swept params n line := by
  have there := loop_swept valid (show loop params invoked (input 0) = some lines from ran) n line found
  rwa [Nat.zero_add] at there

/-- One sweep comes to the greatest input, which decides about all others. -/
private theorem forever_iff (valid : Valid params) :
    (∀ invoked, (loop params invoked 0).isSome) ↔ Fits params greatest := by
  constructor
  · intro always
    rw [← input_last]
    exact (start_isSome_iff valid (List.replicate 63 (some 0))).mp (always _) 62 (by decide)
  · intro fits invoked
    apply (start_isSome_iff valid invoked).mpr
    intro n _
    exact fits_mono valid (input_bounds n).1 (input_bounds n).2 fits

private theorem saturated_iff (valid : Valid params) :
    (∀ invoked, ∃ lines, loop params invoked 0 = some lines ∧
      ∀ n line, lines[n]? = some line → Saturated params n line) ↔
    Fits params greatest ∧ code params greatest ≤ 127 := by
  constructor
  · intro always
    have fits : Fits params greatest := (forever_iff valid).mp fun invoked =>
      Option.isSome_iff_exists.mpr ((always invoked).imp fun _ => And.left)
    obtain ⟨lines, ran, saturated⟩ := always ((List.replicate 63 0).map some)
    have inside : 62 < lines.length := by
      rw [← List.length_map (·.output_quantized), loop_outputs valid ran]
      decide
    have found : lines[62]? = some lines[62] := List.getElem?_eq_getElem inside
    have last := swept_saturated valid (input_last ▸ fits) (start_swept valid ran 62 _ found)
    rw [input_last] at last
    exact ⟨fits, last.mp (saturated 62 _ found)⟩
  · rintro ⟨fits, small⟩ invoked
    obtain ⟨lines, ran⟩ := Option.isSome_iff_exists.mp ((forever_iff valid).mpr fits invoked)
    refine ⟨lines, ran, fun n line found => ?_⟩
    obtain ⟨nonneg, bound⟩ := input_bounds n
    apply (swept_saturated valid (fits_mono valid nonneg bound fits) (start_swept valid ran n line found)).mpr
    exact (code_mono valid nonneg bound).trans small

/-- Input scales of 1 / 40, for inputs from 0 to 6.375, and of 1 / 16. -/
def fine : Params := ⟨1 / 40, ⟨-128, by decide, by decide⟩, 1 / 128, ⟨0, by decide, by decide⟩⟩

def coarse : Params := ⟨1 / 16, ⟨-10, by decide, by decide⟩, 1 / 128, ⟨0, by decide, by decide⟩⟩

/-- With a scale of 0.1f the line that logs 2.40 stores 23, since the sum of the tenths is too small. -/
example : (quantize { coarse with in_scale := float (1 / 10), in_zero_point := ⟨0, by decide, by decide⟩ }
    (input 24)).map Int8.toInt = some 23 := by decide +kernel

end ZephyrTutorial.Proofs.SineSweepRange
