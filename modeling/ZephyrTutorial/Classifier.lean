import Mathlib.Data.Rat.Floor

/-! The decision of the motor control loop: the class with the greatest of the six output bytes. -/

namespace ZephyrTutorial.Classifier

structure Best where
  max_score : Int
  best_class : Nat

/-- One iteration, with the output byte at `i`. -/
def consider (best : Best) (i : Nat) (output : Int8) : Best :=
  if output.toInt > best.max_score then ⟨output.toInt, i⟩ else best

/-- The loop from the byte at `i` on. -/
def scan (i : Nat) (best : Best) : List Int8 → Best
  | [] => best
  | output :: rest => scan (i + 1) (consider best i output) rest

def best_class (outputs : List Int8) : Nat := (scan 0 ⟨-128, 0⟩ outputs).best_class

/-- The score that an output byte stands for, in a tensor with these parameters. -/
def score (scale : ℚ) (zero_point : Int) (output : Int8) : ℚ := (output.toInt - zero_point : Int) * scale

/-- The bytes stand for scores that they miss by half a step at the most, as when each score has been
rounded to the next byte. -/
def Rounded (scale : ℚ) (zero_point : Int) (outputs : List Int8) (scores : List ℚ) : Prop :=
  List.Forall₂ (fun output exact => |score scale zero_point output - exact| ≤ scale / 2) outputs scores

end ZephyrTutorial.Classifier
