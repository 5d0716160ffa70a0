import ZephyrTutorial.Nvs

/-! The record changes in one step of a boot only, and that step is right unless the count
in memory was never read. -/

namespace ZephyrTutorial.Proofs.NvsHistory
open ZephyrTutorial.Nvs Machine

/-- What `main` knows about the record before its write: the count if the read worked. -/
def Knows (state : State) : Prop :=
  match state.main with
  | .initializing | .reading => state.record = state.before
  | .recovering => state.record = state.before ∧ (0 < state.ret → state.record = some state.bootCount)
  | .counting => state.record = state.before ∧
    if 0 < state.ret then state.record = some state.bootCount else state.bootCount = 0
  | .writing => state.record = state.before ∧
    ∃ count, state.bootCount = count + 1 ∧ if 0 < state.ret then state.record = some count else count = 0
  | .reporting | .returned => True

structure Accounted (state : State) : Prop where
  lawful : Lawful state.before state.record
  knows : Knows state

private theorem lawful_refl (record : Option UInt32) : Lawful record record := by
  cases record <;> exact .inl rfl

private theorem accounted_powerOn (record : Option UInt32) : Accounted (powerOn record) :=
  ⟨lawful_refl record, rfl⟩

private theorem nvsRead_pos {failure : Option Failure} {record : Option UInt32} {bootCount : UInt32}
    (positive : 0 < (nvsRead failure record bootCount).1) :
    record = some (nvsRead failure record bootCount).2 := by
  cases failure with
  | some failure =>
    have negative := failure.negative
    simp only [nvsRead] at positive
    omega
  | none =>
    cases record with
    | some count => rfl
    | none => cases positive

/-- What a write that reaches the flash makes of the record. -/
private theorem write_lawful_iff {state : State} (knows : Knows state) (writing : state.main = .writing) (ret : Int) :
    Lawful state.before (some state.bootCount) ↔ CountRead (.nvsWrite true ret) state := by
  simp only [Knows, writing] at knows
  obtain ⟨same, count, counted, known⟩ := knows
  simp only [CountRead, writing]
  rw [← same, counted]
  split at known
  next read =>
    rw [known]
    exact ⟨fun _ => .inl read, fun _ => .inr rfl⟩
  next failed =>
    subst known
    cases state.record with
    | none => exact ⟨fun _ => .inr nofun, fun _ => .inr rfl⟩
    | some stored =>
      have wraps : (0 : UInt32) + 1 = stored + 1 ↔ stored = 0 := by
        rw [UInt32.add_left_inj, eq_comm]
      simp only [Lawful, Option.some.injEq, wraps, failed, false_or]
      constructor
      · rintro lawful count rfl
        exact lawful.symm.imp_right Eq.symm
      · intro small
        exact (small stored rfl).symm.imp_left Eq.symm

private theorem accounted_step (event : Event) (state next : State) (accounted : Accounted state)
    (read : CountRead event state) (taken : step event state = some next) : Accounted next := by
  have knows := accounted.knows
  have lawful := accounted.lawful
  unfold step at taken
  split at taken
  next deviceIsReady flashGetPageInfoByOffs nvsMount initializing =>
    cases taken
    simp only [Knows, initializing] at knows
    refine ⟨lawful, ?_⟩
    by_cases failed : initNvs deviceIsReady flashGetPageInfoByOffs nvsMount ≠ 0
    · simp only [Knows, if_pos failed]
    · simp only [Knows, if_neg failed, knows]
  next failure reading =>
    cases taken
    simp only [Knows, reading] at knows
    exact ⟨lawful, knows, nvsRead_pos⟩
  next recovering =>
    cases taken
    simp only [Knows, recovering] at knows
    refine ⟨lawful, knows.1, ?_⟩
    by_cases read : 0 < state.ret
    · simp only [if_pos read, gt_iff_lt, knows.2 read]
    · simp only [if_neg read, gt_iff_lt]
  next counting =>
    cases taken
    simp only [Knows, counting] at knows
    exact ⟨lawful, knows.1, _, rfl, knows.2⟩
  next committed ret writing =>
    cases taken
    refine ⟨?_, trivial⟩
    cases committed with
    | true => exact (write_lawful_iff knows writing ret).mpr read
    | false => exact lawful
  next reporting => cases taken; exact ⟨lawful, trivial⟩
  next => cases taken; exact accounted_powerOn _
  next => cases taken

private theorem countRead_tight :
    Tight step CountRead Accounted (fun state => Lawful state.before state.record) (fun _ => False) where
  preserved := accounted_step
  enough _ accounted := accounted.lawful
  free _ impossible := impossible.elim
  exposed event state accounted unread := by
    cases event with
    | nvsWrite committed ret =>
      cases committed with
      | false => exact absurd trivial unread
      | true =>
        by_cases writing : state.main = .writing
        · have taken : step (.nvsWrite true ret) state = some { state with
              record := some state.bootCount, ret, main := .reporting } := by
            simp only [step, writing, if_true]
          refine ⟨[], _, nofun, run_cons.mpr ⟨_, taken, run_nil _⟩, fun lawful => ?_⟩
          exact unread ((write_lawful_iff accounted.knows writing ret).mp lawful)
        · apply absurd _ unread
          simp only [CountRead]
          split
          next => contradiction
          next => trivial
    | _ => exact absurd trivial unread

/-- Every state of a history of boots is lawful for its boot exactly when no write stores a count
that was never read over one that is neither 0 nor 1. -/
theorem lawful_iff (flash : Option UInt32) (schedule : List Event) :
    (∀ first rest state, schedule = first ++ rest → run step first (powerOn flash) = some state →
      Lawful state.before state.record) ↔ Along step CountRead schedule (powerOn flash) :=
  countRead_tight.iff_along_of_prompt (accounted_powerOn flash) schedule

/-- A count of 5, one boot in which the read fails with -EIO and the write works: the count is 1. -/
theorem count_lost : ∃ state,
    run step [.initNvs true 0 0, .nvsRead (some ⟨-5, 0, by decide⟩), .recover, .increment, .nvsWrite true 4]
      (powerOn (some 5)) = some state ∧
    state.before = some 5 ∧ state.record = some 1 ∧ ¬ Lawful state.before state.record := by
  refine ⟨_, rfl, rfl, rfl, ?_⟩
  intro lawful
  cases lawful with
  | inl same => exact absurd same (by decide)
  | inr next => exact absurd next (by decide)

end ZephyrTutorial.Proofs.NvsHistory
