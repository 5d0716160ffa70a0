import Mathlib.Data.List.SplitBy

/-! Lists that grow at their end, cut where two neighbours are not related. -/

namespace ZephyrTutorial.Bursts

universe u

variable {α : Type u} {near : α → α → Bool} {times : List α}

/-- The last group ends with the last element. -/
theorem splitBy_last (near : α → α → Bool) {last : α} (ends : times.getLast? = some last) :
    ∃ groups group, times.splitBy near = groups ++ [group] ∧ group.getLast? = some last := by
  have nonempty : times.splitBy near ≠ [] := by
    rw [ne_eq, List.splitBy_eq_nil]
    rintro rfl
    cases ends
  obtain ⟨groups, group, split⟩ := List.eq_nil_or_concat' (times.splitBy near) |>.resolve_left nonempty
  have member : group ∈ times.splitBy near := by
    rw [split]
    exact List.mem_append_right _ List.mem_cons_self
  refine ⟨groups, group, split, ?_⟩
  rw [← List.flatten_splitBy near times, split, List.flatten_append, List.flatten_singleton,
    List.getLast?_append_of_ne_nil _ (List.ne_nil_of_mem_splitBy member)] at ends
  exact ends

/-- An element that is related to the last one joins the last group. -/
theorem splitBy_join {last next : α} (ends : times.getLast? = some last) (joined : near last next = true) :
    ∃ groups group, times.splitBy near = groups ++ [group] ∧
      (times ++ [next]).splitBy near = groups ++ [group ++ [next]] := by
  obtain ⟨groups, group, split, groupEnds⟩ := splitBy_last near ends
  obtain ⟨whole, filled, chains, apart⟩ := List.splitBy_eq_iff.mp split
  have groupFilled : group ≠ [] := by
    rintro rfl
    exact filled (by simp)
  refine ⟨groups, group, split, List.splitBy_eq_iff.mpr ⟨?_, ?_, ?_, ?_⟩⟩
  · rw [whole]
    simp
  · intro empty
    rcases List.mem_append.mp empty with member | member
    · exact filled (List.mem_append_left _ member)
    · simp at member
  · intro part member
    rcases List.mem_append.mp member with member | member
    · exact chains part (List.mem_append_left _ member)
    · rw [List.mem_singleton.mp member]
      apply List.isChain_append.mpr
      refine ⟨chains group (by simp), List.isChain_singleton _, ?_⟩
      intro before ending after starting
      rw [groupEnds, Option.mem_some_iff] at ending
      simp only [List.head?_cons, Option.mem_some_iff] at starting
      rw [← ending, ← starting]
      exact joined
  · obtain ⟨early, -, between⟩ := List.isChain_append.mp apart
    refine List.isChain_append.mpr ⟨early, List.isChain_singleton _, ?_⟩
    intro before ending after starting
    simp only [List.head?_cons, Option.mem_some_iff] at starting
    obtain ⟨first, second, unrelated⟩ := between before ending group rfl
    rw [← starting]
    refine ⟨first, by simp, ?_⟩
    rw [List.head_append_of_ne_nil groupFilled]
    exact unrelated

/-- An element that is not related to the last one starts a group. -/
theorem splitBy_start {next : α} (unrelated : ∀ last ∈ times.getLast?, near last next = false) :
    (times ++ [next]).splitBy near = times.splitBy near ++ [[next]] :=
  List.splitBy_append_cons [] unrelated

end ZephyrTutorial.Bursts
