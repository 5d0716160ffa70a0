import Mathlib.Data.List.Basic
import ZephyrTutorial.Dma

/-! The verdict of the DMA demo against what the engine has done. -/

namespace ZephyrTutorial.Proofs.DmaVerdict
open ZephyrTutorial.Dma Machine

variable {state next : State} {event : Event}

/-- Where the engine can be, for each place of `main`. -/
def Together (engine : Engine) : Main → Prop
  | .isReady | .filling _ | .config | .start => engine = .idle
  | .logStarted | .semTake => engine ≠ .idle
  | .comparing _ => engine = .quiet
  | .returned => engine = .idle ∨ engine = .quiet

/-- How many bytes of the source have been stored. -/
def extent : Main → Nat
  | .isReady | .returned => 0
  | .filling i => i
  | .config | .start | .logStarted | .semTake | .comparing _ => 64

def Verdict (line : Log) : Prop := line = .passed ∨ ∃ index src dest, line = .mismatch index src dest

def Reported (log : List Log) : Prop := .transferSuccessful ∈ log ∨ ∃ status < 0, .transferFailed status ∈ log

def Silent (log : List Log) : Prop := ∀ line ∈ log, ¬ Verdict line

/-- Everything that a step can do. -/
inductive Took (state : State) : Event → State → Prop
  | ready (here : state.main = .isReady) : Took state (.deviceIsReady true) { state with main := .filling 0 }
  | giveUp {event : Event} {line : Log} (foreign : ¬ event.Own) (other : ¬ Verdict line)
    (early : state.main = .isReady ∨ state.main = .config ∨ state.main = .start) :
    Took state event { state with log := state.log ++ [line], main := .returned }
  | fill {i : Nat} (here : state.main = .filling i) (inside : i < 64) :
    Took state .fill { state with
      srcBuffer := Function.update state.srcBuffer ⟨i, inside⟩ i.toUInt8
      destBuffer := Function.update state.destBuffer ⟨i, inside⟩ 0
      main := .filling (i + 1) }
  | filled {i : Nat} (here : state.main = .filling i) (outside : ¬ i < 64) :
    Took state .fill { state with main := .config }
  | configured (here : state.main = .config) : Took state (.dmaConfig 0) { state with main := .start }
  | started (here : state.main = .start) :
    Took state (.dmaStart 0) { state with engine := .copying, main := .logStarted }
  | logStarted (here : state.main = .logStarted) :
    Took state .logStarted { state with log := state.log ++ [.started], main := .semTake }
  | take {dmaSem : Kernel.Sem 1} (here : state.main = .semTake) (counted : state.dmaSem.count = dmaSem.count + 1) :
    Took state .kSemTake { state with dmaSem, main := .comparing 0 }
  | differ {i : Nat} (here : state.main = .comparing i) (inside : i < 64)
    (differ : state.srcBuffer ⟨i, inside⟩ ≠ state.destBuffer ⟨i, inside⟩) :
    Took state .compare { state with
      log := state.log ++ [.mismatch i (state.srcBuffer ⟨i, inside⟩) (state.destBuffer ⟨i, inside⟩)]
      main := .returned }
  | agree {i : Nat} (here : state.main = .comparing i) (inside : i < 64)
    (same : state.srcBuffer ⟨i, inside⟩ = state.destBuffer ⟨i, inside⟩) :
    Took state .compare { state with main := .comparing (i + 1) }
  | passed {i : Nat} (here : state.main = .comparing i) (outside : ¬ i < 64) :
    Took state .compare { state with log := state.log ++ [.passed], main := .returned }
  | copy (i : Fin 64) (here : state.engine = .copying) :
    Took state (.copy i) { state with
      destBuffer := Function.update state.destBuffer i (state.srcBuffer i)
      copied := state.copied ++ [i] }
  | stop (status : Int) (here : state.engine = .copying) :
    Took state (.stop status) { state with engine := .stopped status }
  | logTransfer {status : Int} (here : state.engine = .stopped status) :
    Took state .logTransfer { state with
      log := state.log ++ [if 0 ≤ status then .transferSuccessful else .transferFailed status]
      engine := .giving }
  | give (here : state.engine = .giving) :
    Took state .kSemGive { state with dmaSem := state.dmaSem.give, engine := .quiet }

private theorem fillByte_took {i : Nat} (here : state.main = .filling i) : Took state .fill (fillByte i state) := by
  unfold fillByte
  split
  next inside => exact .fill here inside
  next outside => exact .filled here outside

private theorem compareByte_took {i : Nat} (here : state.main = .comparing i) :
    Took state .compare (compareByte i state) := by
  unfold compareByte
  split
  next inside =>
    dsimp only
    split
    next differ => exact .differ here inside differ
    next same => exact .agree here inside (Decidable.not_not.mp same)
  next outside => exact .passed here outside

theorem step_took (taken : step event state = some next) : Took state event next := by
  unfold step at taken
  split at taken
  next ready here =>
    split at taken
    next found =>
      subst found
      cases taken
      exact .ready here
    next => cases taken; exact .giveUp id (by simp [Verdict]) (.inl here)
  next i here => cases taken; exact fillByte_took here
  next ret here =>
    split at taken
    next => cases taken; exact .giveUp id (by simp [Verdict]) (.inr (.inl here))
    next success =>
      cases Decidable.not_not.mp success
      cases taken
      exact .configured here
  next ret here =>
    split at taken
    next => cases taken; exact .giveUp id (by simp [Verdict]) (.inr (.inr here))
    next success =>
      cases Decidable.not_not.mp success
      cases taken
      exact .started here
  next here => cases taken; exact .logStarted here
  next here =>
    obtain ⟨dmaSem, took, rfl⟩ := Option.map_eq_some_iff.mp taken
    exact .take here (Kernel.Sem.take_eq_some.mp took)
  next i here => cases taken; exact compareByte_took here
  next i here => cases taken; exact .copy i here
  next status here => cases taken; exact .stop status here
  next status here => cases taken; exact .logTransfer here
  next here => cases taken; exact .give here
  next => cases taken

structure Sound (state : State) : Prop where
  together : Together state.engine state.main
  source : ∀ i : Fin 64, i < extent state.main → state.srcBuffer i = i.val.toUInt8
  dest : ∀ i ∈ state.copied, state.destBuffer i = state.srcBuffer i
  zero : ∀ i ∉ state.copied, state.destBuffer i = 0
  fresh : state.engine = .idle → state.copied = []
  given : 0 < state.dmaSem.count → state.engine = .quiet
  signal : state.engine = .quiet → state.main = .logStarted ∨ state.main = .semTake → 0 < state.dmaSem.count
  reported : state.engine = .giving ∨ state.engine = .quiet → Reported state.log
  agreed : ∀ k, state.main = .comparing k → ∀ i : Fin 64, i < k → i ≠ 0 → i ∈ state.copied
  silent : state.main ≠ .returned → Silent state.log
  judged : state.main = .returned → Judged state
  decided : state.main = .returned → state.engine = .quiet → ∃ line ∈ state.log, Verdict line

theorem Silent.append {log : List Log} {line : Log} (silent : Silent log) (other : ¬ Verdict line) :
    Silent (log ++ [line]) := by
  intro found member
  rcases List.mem_append.mp member with early | last
  · exact silent found early
  · rw [List.mem_singleton.mp last]
    exact other

theorem Reported.append {log : List Log} (reported : Reported log) (line : Log) : Reported (log ++ [line]) := by
  rcases reported with successful | ⟨status, negative, failed⟩
  · exact .inl (List.mem_append_left _ successful)
  · exact .inr ⟨status, negative, List.mem_append_left _ failed⟩

private theorem judged_silent (silent : Silent state.log) : Judged state := by
  refine ⟨fun passed => ?_, fun index src dest mismatch => ?_, fun before line after split verdict => ?_⟩
  · exact absurd (.inl rfl) (silent _ passed)
  · exact absurd (.inr ⟨index, src, dest, rfl⟩) (silent _ mismatch)
  · exact absurd verdict (silent line (by rw [split]; simp))

/-- A verdict at the end of a log that had none. -/
private theorem verdict_last {log before after : List Log} {line last : Log} (silent : Silent log)
    (split : log ++ [last] = before ++ line :: after) (verdict : Verdict line) : before = log ∧ line = last := by
  rcases List.eq_nil_or_concat after with rfl | ⟨more, final, rfl⟩
  · obtain ⟨rfl, same⟩ := List.append_inj' split rfl
    exact ⟨rfl, (List.cons.inj same).1.symm⟩
  · rw [List.concat_eq_append, ← List.cons_append, ← List.append_assoc] at split
    have early := (List.append_inj' split rfl).1
    exact absurd verdict (silent line (by rw [early]; simp))

private theorem judged_last {before : List Log} {line : Log} (log : state.log = before ++ [line])
    (silent : Silent before) (reported : Reported before) (passed : line = .passed → Complete state)
    (mismatch : ∀ (index : Nat) src dest, line = .mismatch index src dest →
      ∃ i : Fin 64, FirstMissing state i ∧ index = i ∧ src = i.val.toUInt8 ∧ dest = 0) : Judged state := by
  have last {found : Log} (member : found ∈ state.log) (verdict : Verdict found) : line = found := by
    rw [log] at member
    rcases List.mem_append.mp member with early | late
    · exact absurd verdict (silent found early)
    · exact (List.mem_singleton.mp late).symm
  refine ⟨fun member => passed (last member (.inl rfl)), fun index src dest member => ?_,
    fun first found after split verdict => ?_⟩
  · exact mismatch index src dest (last member (.inr ⟨index, src, dest, rfl⟩))
  · rw [log] at split
    rw [(verdict_last silent split verdict).1]
    exact reported

private theorem boot_sound : Sound boot where
  together := rfl
  source := fun _ less => absurd less (Nat.not_lt_zero _)
  dest := nofun
  zero := fun _ _ => rfl
  fresh := fun _ => rfl
  given := fun positive => absurd positive (by decide)
  signal := nofun
  reported := by rintro (same | same) <;> cases same
  agreed := nofun
  silent := fun _ _ member => nomatch member
  judged := nofun
  decided := nofun

/-- Only the first byte of the source is a zero. -/
private theorem nonzero {i : Fin 64} (zero : i.val.toUInt8 = 0) : i = 0 := by
  revert i
  decide

private theorem fill_sound {i : Nat} (sound : Sound state) (here : state.main = .filling i) (inside : i < 64) :
    Sound { state with
      srcBuffer := Function.update state.srcBuffer ⟨i, inside⟩ i.toUInt8
      destBuffer := Function.update state.destBuffer ⟨i, inside⟩ 0
      main := .filling (i + 1) } := by
  have idle : state.engine = .idle := by
    have together := sound.together
    rwa [here] at together
  have copied := sound.fresh idle
  have source := sound.source
  rw [here] at source
  have silent : Silent state.log := sound.silent (by rw [here]; nofun)
  refine { sound with
    together := idle, source := fun j less => ?_, dest := fun j member => ?_, zero := fun j missing => ?_
    signal := fun quiet => absurd (idle.symm.trans quiet) nofun, agreed := nofun
    silent := fun _ => silent, judged := nofun, decided := nofun }
  · show Function.update _ _ _ j = _
    by_cases same : j = ⟨i, inside⟩
    · rw [same, Function.update_self]
    · rw [Function.update_of_ne same]
      have different : j.val ≠ i := fun equal => same (Fin.ext equal)
      exact source j (Nat.lt_of_le_of_ne (Nat.le_of_lt_succ less) different)
  · have none : j ∈ state.copied := member
    rw [copied] at none
    cases none
  · show Function.update _ _ _ j = 0
    by_cases same : j = ⟨i, inside⟩
    · rw [same, Function.update_self]
    · rw [Function.update_of_ne same]
      exact sound.zero j missing

private theorem filled_sound {i : Nat} (sound : Sound state) (here : state.main = .filling i) (outside : ¬ i < 64) :
    Sound { state with main := .config } := by
  have idle : state.engine = .idle := by
    have together := sound.together
    rwa [here] at together
  have source := sound.source
  rw [here] at source
  have silent : Silent state.log := sound.silent (by rw [here]; nofun)
  exact { sound with
    together := idle
    source := fun j _ => source j (Nat.lt_of_lt_of_le j.isLt (Nat.le_of_not_lt outside))
    signal := fun quiet => absurd (idle.symm.trans quiet) nofun
    agreed := nofun, silent := fun _ => silent, judged := nofun, decided := nofun }

/-- What holds while `main` compares the buffers. -/
theorem Sound.comparing (sound : Sound state) {k : Nat} (here : state.main = .comparing k) :
    state.engine = .quiet ∧ (∀ i : Fin 64, state.srcBuffer i = i.val.toUInt8) ∧ Silent state.log ∧
      Reported state.log := by
  have together := sound.together
  have source := sound.source
  rw [here] at together source
  exact ⟨together, fun i => source i i.isLt, sound.silent (by rw [here]; nofun), sound.reported (.inr together)⟩

private theorem judged_sound {line : Log} (sound : Sound state) (quiet : state.engine = .quiet)
    (reported : Reported state.log) (verdict : Verdict line)
    (judged : Judged { state with log := state.log ++ [line], main := .returned }) :
    Sound { state with log := state.log ++ [line], main := .returned } :=
  { sound with
    together := .inr quiet
    source := fun _ less => absurd less (Nat.not_lt_zero _)
    signal := nofun
    reported := fun _ => reported.append _
    agreed := nofun, silent := fun other => absurd rfl other, judged := fun _ => judged
    decided := fun _ _ => ⟨_, List.mem_append_right _ List.mem_cons_self, verdict⟩ }

private theorem differ_sound {k : Nat} (sound : Sound state) (here : state.main = .comparing k) (inside : k < 64)
    (differ : state.srcBuffer ⟨k, inside⟩ ≠ state.destBuffer ⟨k, inside⟩) :
    Sound { state with
      log := state.log ++ [.mismatch k (state.srcBuffer ⟨k, inside⟩) (state.destBuffer ⟨k, inside⟩)]
      main := .returned } := by
  obtain ⟨quiet, source, silent, reported⟩ := sound.comparing here
  have missing : ⟨k, inside⟩ ∉ state.copied := fun member => differ (sound.dest _ member).symm
  have zero := sound.zero _ missing
  refine judged_sound sound quiet reported (.inr ⟨_, _, _, rfl⟩) (judged_last rfl silent reported nofun ?_)
  intro index src dest same
  cases same
  refine ⟨⟨k, inside⟩, ⟨fun first => differ ?_, missing, fun j less => sound.agreed k here j less⟩, rfl, source _, zero⟩
  rw [source, zero]
  exact congrArg (fun i : Fin 64 => i.val.toUInt8) first

private theorem agree_sound {k : Nat} (sound : Sound state) (here : state.main = .comparing k) (inside : k < 64)
    (same : state.srcBuffer ⟨k, inside⟩ = state.destBuffer ⟨k, inside⟩) :
    Sound { state with main := .comparing (k + 1) } := by
  obtain ⟨quiet, source, silent, _⟩ := sound.comparing here
  refine { sound with
    together := quiet, source := fun i _ => source i, signal := nofun, agreed := ?_
    silent := fun _ => silent, judged := nofun, decided := nofun }
  rintro following there j less other
  cases there
  rcases Nat.lt_or_eq_of_le (Nat.le_of_lt_succ less) with earlier | now
  · exact sound.agreed k here j earlier other
  · by_contra missing
    have place : j = ⟨k, inside⟩ := Fin.ext now
    subst place
    rw [source, sound.zero _ missing] at same
    exact other (nonzero same)

private theorem passed_sound {k : Nat} (sound : Sound state) (here : state.main = .comparing k) (outside : ¬ k < 64) :
    Sound { state with log := state.log ++ [.passed], main := .returned } := by
  obtain ⟨quiet, _, silent, reported⟩ := sound.comparing here
  refine judged_sound sound quiet reported (.inl rfl) (judged_last rfl silent reported (fun _ i => ?_) nofun)
  exact sound.agreed k here i (Nat.lt_of_lt_of_le i.isLt (Nat.le_of_not_lt outside))

private theorem main_sound (sound : Sound state)
    (early : state.main = .isReady ∨ state.main = .config ∨ state.main = .start) {line : Log}
    (other : ¬ Verdict line) : Sound { state with log := state.log ++ [line], main := .returned } := by
  have idle : state.engine = .idle := by
    have together := sound.together
    rcases early with here | here | here <;> rwa [here] at together
  have silent : Silent state.log := sound.silent (by rcases early with here | here | here <;> rw [here] <;> nofun)
  exact { sound with
    together := .inl idle
    source := fun _ less => absurd less (Nat.not_lt_zero _)
    signal := nofun
    reported := fun late => (sound.reported late).append line
    agreed := nofun, silent := fun other => absurd rfl other
    judged := fun _ => judged_silent (silent.append other)
    decided := fun _ quiet => absurd (idle.symm.trans quiet) nofun }

/-- While the engine or its callback is at work, `main` waits. -/
private theorem busy (sound : Sound state) (begun : state.engine ≠ .idle) (working : state.engine ≠ .quiet) :
    (state.main = .logStarted ∨ state.main = .semTake) ∧ Silent state.log ∧ ¬ 0 < state.dmaSem.count := by
  have waiting : state.main = .logStarted ∨ state.main = .semTake := by
    have together := sound.together
    cases here : state.main with
    | logStarted => exact .inl rfl
    | semTake => exact .inr rfl
    | isReady | filling | config | start => rw [here] at together; exact absurd together begun
    | comparing => rw [here] at together; exact absurd together working
    | returned => rw [here] at together; exact (together.elim begun working).elim
  refine ⟨waiting, sound.silent ?_, fun positive => working (sound.given positive)⟩
  rcases waiting with here | here <;> rw [here] <;> nofun

/-- A step of the engine or its callback, which leaves `main` where it is. -/
private theorem engine_sound {engine : Engine} {destBuffer : Fin 64 → UInt8} {dmaSem : Kernel.Sem 1}
    {copied : List (Fin 64)} {log : List Log} (sound : Sound state)
    (waiting : state.main = .logStarted ∨ state.main = .semTake) (begun : engine ≠ .idle)
    (dest : ∀ i ∈ copied, destBuffer i = state.srcBuffer i) (zero : ∀ i ∉ copied, destBuffer i = 0)
    (given : 0 < dmaSem.count ↔ engine = .quiet) (reported : engine = .giving ∨ engine = .quiet → Reported log)
    (silent : Silent log) : Sound { state with engine, destBuffer, dmaSem, copied, log } := by
  have stays : state.main ≠ .returned := by rcases waiting with here | here <;> rw [here] <;> nofun
  refine ⟨?_, sound.source, dest, zero, fun idle => absurd idle begun, given.mp, fun quiet _ => given.mpr quiet, reported,
    fun k here => ?_, fun _ => silent, fun gone => absurd gone stays, fun gone => absurd gone stays⟩
  · rcases waiting with here | here <;> rw [here] <;> exact begun
  · rcases waiting with other | other <;> cases here.symm.trans other

private theorem sound_step (event : Event) (state next : State) (sound : Sound state)
    (taken : step event state = some next) : Sound next := by
  cases step_took taken with
  | ready here =>
    have together := sound.together
    rw [here] at together
    have silent : Silent state.log := sound.silent (by rw [here]; nofun)
    exact { sound with
      together := together
      source := fun _ less => absurd less (Nat.not_lt_zero _)
      signal := fun quiet => absurd (together.symm.trans quiet) nofun
      agreed := nofun, silent := fun _ => silent, judged := nofun, decided := nofun }
  | giveUp foreign other early => exact main_sound sound early other
  | fill here inside => exact fill_sound sound here inside
  | filled here outside => exact filled_sound sound here outside
  | configured here =>
    have together := sound.together
    have source := sound.source
    rw [here] at together source
    have silent : Silent state.log := sound.silent (by rw [here]; nofun)
    exact { sound with
      together := together, source := source
      signal := fun quiet => absurd (together.symm.trans quiet) nofun
      agreed := nofun, silent := fun _ => silent, judged := nofun, decided := nofun }
  | started here =>
    have together := sound.together
    have source := sound.source
    rw [here] at together source
    have silent : Silent state.log := sound.silent (by rw [here]; nofun)
    have zero : ¬ 0 < state.dmaSem.count := fun positive => absurd (together.symm.trans (sound.given positive)) nofun
    exact { sound with
      together := nofun, source := source, fresh := nofun, signal := nofun
      given := fun positive => absurd positive zero
      reported := by rintro (same | same) <;> cases same
      agreed := nofun, silent := fun _ => silent, judged := nofun, decided := nofun }
  | logStarted here =>
    have together := sound.together
    have source := sound.source
    rw [here] at together source
    have silent : Silent state.log := sound.silent (by rw [here]; nofun)
    exact { sound with
      together := together, source := source
      signal := fun quiet _ => sound.signal quiet (.inl here)
      reported := fun late => (sound.reported late).append _
      agreed := nofun, silent := fun _ => silent.append (by simp [Verdict]), judged := nofun, decided := nofun }
  | @take dmaSem here counted =>
    have bounded := state.dmaSem.bounded
    have down : ¬ 0 < dmaSem.count := by omega
    have source := sound.source
    rw [here] at source
    have silent : Silent state.log := sound.silent (by rw [here]; nofun)
    refine { sound with
      together := sound.given (by omega), source := source
      given := fun again => absurd again down
      signal := ?_, agreed := ?_, silent := fun _ => silent, judged := nofun, decided := nofun }
    · rintro _ (same | same) <;> cases same
    · rintro k same j less
      cases same
      exact absurd less (Nat.not_lt_zero _)
  | differ here inside differ => exact differ_sound sound here inside differ
  | agree here inside same => exact agree_sound sound here inside same
  | passed here outside => exact passed_sound sound here outside
  | copy i here =>
    obtain ⟨waiting, silent, down⟩ := busy sound (by rw [here]; nofun) (by rw [here]; nofun)
    refine engine_sound sound waiting (by rw [here]; nofun) (fun j member => ?_) (fun j missing => ?_) ?_ sound.reported
      silent
    · by_cases same : j = i
      · subst same
        exact Function.update_self ..
      · rw [Function.update_of_ne same]
        exact sound.dest j (by simpa [same] using member)
    · obtain ⟨earlier, other⟩ : j ∉ state.copied ∧ j ≠ i := by simpa using missing
      rw [Function.update_of_ne other]
      exact sound.zero j earlier
    · rw [here]
      exact ⟨fun positive => absurd positive down, nofun⟩
  | stop status here =>
    obtain ⟨waiting, silent, down⟩ := busy sound (by rw [here]; nofun) (by rw [here]; nofun)
    refine engine_sound sound waiting nofun sound.dest sound.zero ⟨fun positive => absurd positive down, nofun⟩ ?_ silent
    rintro (same | same) <;> cases same
  | @logTransfer status here =>
    obtain ⟨waiting, silent, down⟩ := busy sound (by rw [here]; nofun) (by rw [here]; nofun)
    refine engine_sound sound waiting nofun sound.dest sound.zero ⟨fun positive => absurd positive down, nofun⟩
      (fun _ => ?_) (silent.append ?_)
    · split
      next => exact .inl (List.mem_append_right _ List.mem_cons_self)
      next failed => exact .inr ⟨status, Int.not_le.mp failed, List.mem_append_right _ List.mem_cons_self⟩
    · split <;> simp [Verdict]
  | give here =>
    obtain ⟨waiting, silent, _⟩ := busy sound (by rw [here]; nofun) (by rw [here]; nofun)
    exact engine_sound sound waiting nofun sound.dest sound.zero
      ⟨fun _ => rfl, fun _ => Kernel.Sem.give_pos _ (by decide)⟩ (fun _ => sound.reported (.inl here)) silent

/-- Whatever the engine does and whenever it interrupts `main`: the verdict comes after the callback's report
and says exactly what has been copied, the first byte apart, of which no copy could be told from none. -/
theorem verdict_exact (schedule : List Event) (state : State) (ran : run step schedule boot = some state) :
    Judged state := by
  have sound : Sound state := invariant sound_step boot_sound ran
  by_cases ended : state.main = .returned
  · exact sound.judged ended
  · exact judged_silent (sound.silent ended)

/-- The engine stops after the last two bytes. -/
def twoBytes : List Event :=
  .deviceIsReady true :: List.replicate 65 .fill ++
    [.dmaConfig 0, .dmaStart 0, .copy (Fin.last 63), .logStarted, .copy (Fin.last 62).castSucc, .stop (-5),
      .logTransfer]

theorem verdict_exact_two_bytes : ∃ state,
    run step (twoBytes ++ [.kSemGive, .kSemTake, .compare, .compare]) boot = some state ∧ Judged state := by
  obtain ⟨state, ran⟩ := Option.isSome_iff_exists.mp
    (show (run step (twoBytes ++ [.kSemGive, .kSemTake, .compare, .compare]) boot).isSome by decide +kernel)
  exact ⟨state, ran, verdict_exact _ state ran⟩

def effort (state : State) : Nat :=
  (match state.main with
    | .filling i => 65 - i + 1
    | .logStarted => 68
    | .semTake => 67
    | .comparing i => 65 - i + 1
    | .isReady | .config | .start | .returned => 0) +
  match state.engine with
    | .stopped _ => 2
    | .giving => 1
    | .idle | .copying | .quiet => 0

private theorem effort_lower (event : Event) (state next : State) (own : event.Own)
    (taken : step event state = some next) : effort next < effort state := by
  cases step_took taken with
  | ready | configured | started | copy | stop => exact own.elim
  | giveUp foreign => exact absurd own foreign
  | fill here | filled here | logStarted here | take here | differ here | agree here | passed here | logTransfer here
  | give here =>
    simp only [effort, here]
    omega

/-- The engine has stopped with these bytes copied. -/
structure Stopped (copied : List (Fin 64)) (state : State) : Prop where
  sound : Sound state
  begun : state.engine ≠ .idle
  ended : state.engine ≠ .copying
  copied : state.copied = copied

private theorem stopped_step {copied : List (Fin 64)} (event : Event) (state next : State)
    (stopped : Stopped copied state) (own : event.Own) (taken : step event state = some next) :
    Stopped copied next := by
  have sound := sound_step event state next stopped.sound taken
  obtain ⟨_, begun, ended, copied⟩ := stopped
  cases step_took taken with
  | ready | configured | started | copy | stop => exact own.elim
  | giveUp foreign => exact absurd own foreign
  | fill | filled | logStarted | take | differ | agree | passed => exact ⟨sound, begun, ended, copied⟩
  | logTransfer | give => exact ⟨sound, nofun, nofun, copied⟩

/-- Nothing but the end of `main` leaves the processor without a step once the engine has stopped. -/
theorem Stopped.returned {copied : List (Fin 64)} (stopped : Stopped copied state)
    (exhausted : ∀ event : Event, event.Own → step event state = none) :
    state.main = .returned ∧ state.engine = .quiet := by
  obtain ⟨sound, begun, ended, -⟩ := stopped
  have quiet : state.engine = .quiet := by
    cases place : state.engine with
    | quiet => rfl
    | idle => exact absurd place begun
    | copying => exact absurd place ended
    | stopped status =>
      have stuck := exhausted .logTransfer trivial
      simp [step, place] at stuck
    | giving =>
      have stuck := exhausted .kSemGive trivial
      simp [step, place] at stuck
  refine ⟨?_, quiet⟩
  have together := sound.together
  cases here : state.main with
  | returned => rfl
  | isReady | filling | config | start => rw [here] at together; exact absurd together begun
  | logStarted =>
    have stuck := exhausted .logStarted trivial
    simp [step, here] at stuck
  | semTake =>
    obtain ⟨dmaSem, took⟩ := state.dmaSem.exists_take (sound.signal quiet (.inr here))
    have stuck := exhausted .kSemTake trivial
    simp [step, here, took] at stuck
  | comparing i =>
    have stuck := exhausted .compare trivial
    simp [step, here] at stuck

private theorem effort_le (state : State) : effort state ≤ 70 := by
  unfold effort
  cases state.main <;> cases state.engine <;> dsimp only <;> omega

/-- No wakeup is lost: once the engine has stopped, at most 70 steps of the processor come to a verdict by
themselves, in any order, and it accepts the copy if and only if no byte but perhaps the first is missing. -/
theorem verdict_reached (schedule : List Event) (state : State) (ran : run step schedule boot = some state)
    (begun : state.engine ≠ .idle) (ended : state.engine ≠ .copying) :
    (∃ drain final, (∀ event ∈ drain, event.Own) ∧ run step drain state = some final ∧
      ∀ event : Event, event.Own → step event final = none) ∧
    ∀ drain final, (∀ event ∈ drain, event.Own) → run step drain state = some final →
      drain.length ≤ 70 ∧
      ((∀ event : Event, event.Own → step event final = none) →
        final.main = .returned ∧ (.passed ∈ final.log ↔ Complete state)) := by
  refine ⟨exists_exhausted effort_lower state, fun drain final own drained => ⟨?_, fun exhausted => ?_⟩⟩
  · have total := length_le_measure effort_lower own drained
    have bound := effort_le state
    omega
  have sound : Sound state := invariant sound_step boot_sound ran
  have stopped : Stopped state.copied final :=
    invariant_along stopped_step (along_of_forall (fun event member _ => own event member) state)
      ⟨sound, begun, ended, rfl⟩ drained
  obtain ⟨returned, quiet⟩ := stopped.returned exhausted
  have judged := stopped.sound.judged returned
  refine ⟨returned, fun passed i other => ?_, fun complete => ?_⟩
  · rw [← stopped.copied]
    exact judged.passed passed i other
  · obtain ⟨line, member, rfl | ⟨index, src, dest, rfl⟩⟩ := stopped.sound.decided returned quiet
    · exact member
    · obtain ⟨i, missing, _⟩ := judged.mismatch index src dest member
      have found := complete i missing.1
      rw [← stopped.copied] at found
      exact absurd found missing.2.1

theorem verdict_reached_two_bytes : ∃ state, run step twoBytes boot = some state ∧ ∃ drain final,
    (∀ event ∈ drain, event.Own) ∧ run step drain state = some final ∧ drain.length ≤ 70 ∧ final.main = .returned ∧
      (.passed ∈ final.log ↔ Complete state) := by
  obtain ⟨state, ran, begun, ended⟩ : ∃ state : State, run step twoBytes boot = some state ∧
      state.engine ≠ .idle ∧ state.engine ≠ .copying := exists_run (by decide +kernel)
  obtain ⟨⟨drain, final, own, drained, exhausted⟩, always⟩ := verdict_reached twoBytes state ran begun ended
  obtain ⟨few, verdict⟩ := always drain final own drained
  exact ⟨state, ran, drain, final, own, drained, few, verdict exhausted⟩

end ZephyrTutorial.Proofs.DmaVerdict
