import Mathlib.Tactic.Linarith
import ZephyrTutorial.Classifier

/-! The loop finds the first of the greatest bytes, although it starts below no byte: the least byte is its
first bound. So the class is right up to one step of the tensor's scale. -/

namespace ZephyrTutorial.Proofs.ClassifierDecision
open ZephyrTutorial.Classifier

/-- The first greatest byte of those that the loop has seen. -/
structure Leads (seen : List Int8) (best : Best) : Prop where
  least : -128 ≤ best.max_score
  top : ∀ output ∈ seen, output.toInt ≤ best.max_score
  found : seen ≠ [] → ∃ output, seen[best.best_class]? = some output ∧ output.toInt = best.max_score
  first : ∀ j < best.best_class, ∀ output, seen[j]? = some output → output.toInt < best.max_score

private theorem consider_leads {seen : List Int8} {best : Best} (leads : Leads seen best)
    (origin : seen = [] → best = ⟨-128, 0⟩) (output : Int8) :
    Leads (seen ++ [output]) (consider best seen.length output) := by
  have lower := output.le_toInt
  obtain ⟨least, top, found, first⟩ := leads
  unfold consider
  split
  next greater =>
    refine ⟨by dsimp only; omega, fun other member => ?_, fun _ => ⟨output, by simp, rfl⟩, fun j less other place => ?_⟩
    · rcases List.mem_append.mp member with early | last
      · exact (top other early).trans greater.le
      · rw [List.mem_singleton.mp last]
    · rw [List.getElem?_append_left less] at place
      exact (top other (List.mem_of_getElem? place)).trans_lt greater
  next lesser =>
    refine ⟨least, fun other member => ?_, fun _ => ?_, fun j less other place => ?_⟩
    · rcases List.mem_append.mp member with early | last
      · exact top other early
      · rw [List.mem_singleton.mp last]
        exact Int.not_lt.mp lesser
    · by_cases begun : seen = []
      · subst begun
        rw [origin rfl] at lesser ⊢
        exact ⟨output, rfl, by dsimp only at lesser ⊢; omega⟩
      · obtain ⟨leader, place, value⟩ := found begun
        have inside := (List.getElem?_eq_some_iff.mp place).1
        exact ⟨leader, by rw [List.getElem?_append_left inside]; exact place, value⟩
    · by_cases begun : seen = []
      · rw [origin begun] at less
        exact absurd less (Nat.not_lt_zero j)
      · obtain ⟨leader, position, _⟩ := found begun
        have inside := (List.getElem?_eq_some_iff.mp position).1
        rw [List.getElem?_append_left (less.trans inside)] at place
        exact first j less other place

private theorem scan_leads (outputs : List Int8) {seen : List Int8} {best : Best} (leads : Leads seen best)
    (origin : seen = [] → best = ⟨-128, 0⟩) : Leads (seen ++ outputs) (scan seen.length best outputs) := by
  induction outputs generalizing seen best with
  | nil => rwa [List.append_nil]
  | cons output rest ih =>
    have later := ih (consider_leads leads origin output) fun empty => absurd empty (by simp)
    rw [List.append_assoc, List.length_append] at later
    exact later

private theorem start_leads : Leads [] ⟨-128, 0⟩ := ⟨le_refl _, nofun, nofun, nofun⟩

variable {scale : ℚ} {zero_point : Int} {outputs : List Int8} {scores : List ℚ}

private theorem rounded_at (rounded : Rounded scale zero_point outputs scores) {i : Nat} {output : Int8}
    (place : outputs[i]? = some output) :
    ∃ exact, scores[i]? = some exact ∧ |score scale zero_point output - exact| ≤ scale / 2 := by
  unfold Rounded at rounded
  induction rounded generalizing i with
  | nil => cases place
  | @cons first exact outputs scores close rest ih =>
    cases i with
    | zero => cases place; exact ⟨exact, rfl, close⟩
    | succ i => exact ih place

private theorem rounded_mem (rounded : Rounded scale zero_point outputs scores) {exact : ℚ} (member : exact ∈ scores) :
    ∃ output ∈ outputs, |score scale zero_point output - exact| ≤ scale / 2 := by
  unfold Rounded at rounded
  induction rounded with
  | nil => cases member
  | @cons output first outputs scores close rest ih =>
    rcases List.mem_cons.mp member with rfl | later
    · exact ⟨output, List.mem_cons_self, close⟩
    · obtain ⟨found, inside, near⟩ := ih later
      exact ⟨found, List.mem_cons_of_mem _ inside, near⟩

private theorem score_mono (positive : 0 < scale) {small large : Int8} (ordered : small.toInt ≤ large.toInt) :
    score scale zero_point small ≤ score scale zero_point large := by
  have whole : ((small.toInt - zero_point : Int) : ℚ) ≤ (large.toInt - zero_point : Int) :=
    Int.cast_le.mpr (Int.sub_le_sub_right ordered zero_point)
  exact mul_le_mul_of_nonneg_right whole positive.le

/-- The class is that of the first greatest byte. When the bytes are rounded scores, no class has a score
that is greater by more than one step, so a lead of more than a step is never lost. -/
theorem best_class_leads (positive : 0 < scale) (some_output : outputs ≠ [])
    (rounded : Rounded scale zero_point outputs scores) :
    ∃ output exact, outputs[best_class outputs]? = some output ∧ scores[best_class outputs]? = some exact ∧
      (∀ other ∈ outputs, other.toInt ≤ output.toInt) ∧
      (∀ j < best_class outputs, ∀ other, outputs[j]? = some other → other.toInt < output.toInt) ∧
      ∀ other ∈ scores, other ≤ exact + scale := by
  have leads : Leads outputs (scan 0 ⟨-128, 0⟩ outputs) := scan_leads outputs start_leads fun _ => rfl
  obtain ⟨output, place, greatest⟩ := leads.found some_output
  obtain ⟨exact, position, near⟩ := rounded_at rounded place
  refine ⟨output, exact, place, position, fun other member => ?_, fun j less other found => ?_, fun other member => ?_⟩
  · rw [greatest]
    exact leads.top other member
  · rw [greatest]
    exact leads.first j less other found
  · obtain ⟨found, inside, close⟩ := rounded_mem rounded member
    have ordered : found.toInt ≤ output.toInt := greatest ▸ leads.top found inside
    have higher : score scale zero_point found ≤ score scale zero_point output := score_mono positive ordered
    have below := (abs_le.mp close).1
    have above := (abs_le.mp near).2
    linarith

/-- The fourth class leads with the byte 91, its score is a quarter of a step less than that. -/
def sixOutputs : List Int8 := [-128, -3, 40, 91, 90, 7]

def sixScores : List ℚ := [0, 125 / 2, 84, 875 / 8, 109, 135 / 2]

theorem best_class_leads_fourth : best_class sixOutputs = 3 ∧ ∃ output exact,
    sixOutputs[best_class sixOutputs]? = some output ∧ sixScores[best_class sixOutputs]? = some exact ∧
      (∀ other ∈ sixOutputs, other.toInt ≤ output.toInt) ∧
      (∀ j < best_class sixOutputs, ∀ other, sixOutputs[j]? = some other → other.toInt < output.toInt) ∧
      ∀ other ∈ sixScores, other ≤ exact + 1 / 2 := by
  have rounded : Rounded (1 / 2) (-128) sixOutputs sixScores := by
    refine .cons ?_ (.cons ?_ (.cons ?_ (.cons ?_ (.cons ?_ (.cons ?_ .nil))))) <;> decide +kernel
  exact ⟨by decide, best_class_leads (by norm_num) (by decide) rounded⟩

end ZephyrTutorial.Proofs.ClassifierDecision
