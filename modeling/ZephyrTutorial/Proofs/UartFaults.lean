import ZephyrTutorial.Proofs.UartRecovery

/-! Replies under GPIO faults. The parser looks at no result of `gpio_pin_set_dt`, and takes
an error of `gpio_pin_get_dt` for a level, so each fault shows in the reply after it. -/

namespace ZephyrTutorial.Proofs.UartFaults
open ZephyrTutorial.Uart Machine CString UartCommands UartHandoff UartRecovery

universe u

variable {γ : Type u} {dev : Gpio γ}

/-- The results of the GPIO calls: 0 or an error for a set, a level or an error for a get. -/
structure GpioResults (dev : Gpio γ) : Prop where
  set : ∀ value led, (dev.pinSetDt value led).1 ≤ 0
  get : ∀ led, (dev.pinGetDt led).1 ≤ 1

/-- The call that has to stand right before a reply for the reply to be true. -/
def Backed (previous : Option Output) : Output → Prop
  | .uartSendString .ledNowOn => previous = some (.gpioPinSetDt 1 0)
  | .uartSendString .ledNowOff => previous = some (.gpioPinSetDt 0 0)
  | .uartSendString .stateActive => previous = some (.gpioPinGetDt 1)
  | _ => True

def AllBacked (out : List Output) : Prop :=
  ∀ before call after, out = before ++ call :: after → Backed before.getLast? call

/-- The level of the latest acknowledgement. -/
def acknowledged (out : List Output) : Option Int :=
  out.foldl (fun level call => match call with
    | .uartSendString .ledNowOn => some 1
    | .uartSendString .ledNowOff => some 0
    | _ => level) none

/-- The level of the latest set that succeeded. -/
def established (out : List Output) : Option Int :=
  out.foldl (fun level call => match call with
    | .gpioPinSetDt value ret => if ret = 0 then some value else level
    | _ => level) none

structure Truthful (out : List Output) : Prop where
  backed : AllBacked out
  level : acknowledged out = established out

def Succeeds : Output → Prop
  | .gpioPinSetDt _ ret => ret = 0
  | .gpioPinGetDt ret => 0 ≤ ret
  | .uartSendString _ => True

def Faultless (out : List Output) : Prop := ∀ call ∈ out, Succeeds call

/-- A reply that claims nothing about the pin. -/
def Text.Neutral (text : Text) : Prop :=
  text = .unknownCommand ∨ text = .prompt ∨ text = .bufferOverflow

/-- The transcripts of the parser, command by command. -/
inductive Transcript : List Output → Prop
  | start : Transcript []
  | on {out : List Output} (ret : Int) (before : Transcript out) :
      Transcript (out ++ [.gpioPinSetDt 1 ret, .uartSendString .ledNowOn])
  | off {out : List Output} (ret : Int) (before : Transcript out) :
      Transcript (out ++ [.gpioPinSetDt 0 ret, .uartSendString .ledNowOff])
  | status {out : List Output} {ret : Int} (before : Transcript out) (level : ret ≤ 1) :
      Transcript (out ++ [.gpioPinGetDt ret,
        .uartSendString (if ret ≠ 0 then .stateActive else .stateInactive)])
  | notice {out : List Output} {text : Text} (before : Transcript out) (neutral : Text.Neutral text) :
      Transcript (out ++ [.uartSendString text])

private theorem dispatch_transcript (results : GpioResults dev) (temp : List UInt8) {board : Board γ}
    (before : Transcript board.out) : Transcript (dispatch dev temp board).out := by
  unfold dispatch
  split
  · split
    · have answered := before.on (dev.pinSetDt 1 board.led).1
      rw [List.append_cons] at answered
      exact answered
    · split
      · have answered := before.off (dev.pinSetDt 0 board.led).1
        rw [List.append_cons] at answered
        exact answered
      · split
        · have answered := before.status (results.get board.led)
          rw [List.append_cons] at answered
          exact answered
        · exact before.notice (.inl rfl)
  · exact before

private theorem loopBody_transcript (results : GpioResults dev) (parser : Parser γ) (byte : UInt8)
    (before : Transcript parser.board.out) : Transcript (loopBody dev parser byte).board.out := by
  simp only [loopBody]
  split
  · exact (dispatch_transcript results _ before).notice (.inr (.inl rfl))
  · split
    · exact before
    · exact before.notice (.inr (.inr rfl))

private theorem sequential_transcript (results : GpioResults dev) (bytes : List UInt8) {parser : Parser γ}
    (before : Transcript parser.board.out) : Transcript (sequential dev parser bytes).board.out := by
  induction bytes generalizing parser with
  | nil => exact before
  | cons byte bytes ih => exact ih (loopBody_transcript results parser byte before)

private theorem allBacked_append {out : List Output} {call : Output} :
    AllBacked (out ++ [call]) ↔ AllBacked out ∧ Backed out.getLast? call := by
  constructor
  · intro backed
    refine ⟨fun before earlier after shape => ?_, backed out call [] rfl⟩
    exact backed before earlier (after ++ [call]) (by simp [shape])
  · rintro ⟨backed, last⟩ before current after shape
    rcases List.eq_nil_or_concat' after with rfl | ⟨middle, final, rfl⟩
    · obtain ⟨rfl, same⟩ := List.append_inj' shape rfl
      cases same
      exact last
    · rw [← List.cons_append, ← List.append_assoc] at shape
      obtain ⟨rfl, _⟩ := List.append_inj' shape rfl
      exact backed before current middle rfl

private theorem allBacked_pair {out : List Output} {first second : Output} :
    AllBacked (out ++ [first, second]) ↔
      AllBacked out ∧ Backed out.getLast? first ∧ Backed (some first) second := by
  rw [List.append_cons, allBacked_append, allBacked_append, List.getLast?_concat, and_assoc]

private theorem faultless_append {out rest : List Output} :
    Faultless (out ++ rest) ↔ Faultless out ∧ ∀ call ∈ rest, Succeeds call := by
  unfold Faultless
  constructor
  · intro faultless
    exact ⟨fun call member => faultless call (List.mem_append_left _ member),
      fun call member => faultless call (List.mem_append_right _ member)⟩
  · rintro ⟨early, late⟩ call member
    rcases List.mem_append.mp member with member | member
    · exact early call member
    · exact late call member

/-- Every fault is followed by a reply that it makes untrue, and no other reply is untrue. -/
private theorem backed_iff {out : List Output} (transcript : Transcript out) : AllBacked out ↔ Faultless out := by
  induction transcript with
  | start => exact iff_of_true (fun before call after shape => by simp at shape) (fun call member => by cases member)
  | on ret before ih =>
    rw [allBacked_pair, faultless_append, ih]
    simp [Backed, Succeeds]
  | off ret before ih =>
    rw [allBacked_pair, faultless_append, ih]
    simp [Backed, Succeeds]
  | @status out ret before level ih =>
    rw [allBacked_pair, faultless_append, ih]
    by_cases low : ret = 0
    · simp [Backed, Succeeds, low]
    · have high : ret = 1 ↔ 0 ≤ ret := by omega
      simp [Backed, Succeeds, low, high]
  | @notice out text before neutral ih =>
    rw [allBacked_append, faultless_append, ih]
    rcases neutral with rfl | rfl | rfl <;> simp [Backed, Succeeds]

private theorem level_of_faultless {out : List Output} (transcript : Transcript out) (faultless : Faultless out) :
    acknowledged out = established out := by
  induction transcript with
  | start => rfl
  | @on out ret before ih =>
    have succeeded : ret = 0 := (faultless_append.mp faultless).2 _ List.mem_cons_self
    simp [acknowledged, established, succeeded]
  | @off out ret before ih =>
    have succeeded : ret = 0 := (faultless_append.mp faultless).2 _ List.mem_cons_self
    simp [acknowledged, established, succeeded]
  | @status out ret before level ih =>
    have earlier := ih (faultless_append.mp faultless).1
    unfold acknowledged established at earlier ⊢
    rw [List.foldl_append, List.foldl_append, earlier]
    by_cases low : ret = 0 <;> simp [low]
  | notice before neutral ih =>
    have earlier := ih (faultless_append.mp faultless).1
    unfold acknowledged established at earlier ⊢
    rw [List.foldl_append, List.foldl_append, earlier]
    rcases neutral with rfl | rfl | rfl <;> rfl

/-- In every state of every run the replies are true exactly when no GPIO call has failed. -/
theorem replies_truthful_iff (dev : Gpio γ) (temp : Vector UInt8 256) (led : γ) (schedule : List Event)
    (state : State γ) (results : GpioResults dev)
    (ran : run (step dev) schedule (boot temp led) = some state) :
    Truthful state.parser.board.out ↔ Faultless state.parser.board.out := by
  have transcript : Transcript state.parser.board.out := by
    rw [(run_handoff ran).parser]
    exact sequential_transcript results state.consumed .start
  constructor
  · intro truthful
    exact (backed_iff transcript).mp truthful.backed
  · intro faultless
    exact ⟨(backed_iff transcript).mpr faultless, level_of_faultless transcript faultless⟩

/-- A pin that takes every set and reads back its level. -/
def soundPin : Gpio Bool where
  pinSetDt value _ := (0, value ≠ 0)
  pinGetDt level := (if level then 1 else 0, level)

private theorem soundPin_results : GpioResults soundPin :=
  ⟨fun _ _ => Int.le_refl 0, fun level => by cases level <;> decide⟩

/-- The lines LED ON and STATUS, one after the other. -/
def onThenStatus : List Event :=
  .uartCallback true true :: delivery (literal "LED ON") [] 8 ++ delivery (literal "STATUS") [] 8

theorem replies_truthful_iff_on_then_status : ∃ state : State Bool,
    GpioResults soundPin ∧ run (step soundPin) onThenStatus (boot (.replicate 256 0) false) = some state ∧
    state.parser.board.out = [.gpioPinSetDt 1 0, .uartSendString .ledNowOn, .uartSendString .prompt,
      .gpioPinGetDt 1, .uartSendString .stateActive, .uartSendString .prompt] ∧
    (Truthful state.parser.board.out ↔ Faultless state.parser.board.out) := by
  obtain ⟨state, ran, replied⟩ : ∃ state : State Bool,
      run (step soundPin) onThenStatus (boot (.replicate 256 0) false) = some state ∧
      state.parser.board.out = [.gpioPinSetDt 1 0, .uartSendString .ledNowOn, .uartSendString .prompt,
        .gpioPinGetDt 1, .uartSendString .stateActive, .uartSendString .prompt] := exists_run (by decide +kernel)
  exact ⟨state, soundPin_results, ran, replied, replies_truthful_iff soundPin _ false _ state soundPin_results ran⟩

/-- A pin whose calls fail with `-EIO`. -/
def brokenPin : Gpio Unit where
  pinSetDt _ _ := (-5, ())
  pinGetDt _ := (-5, ())

private theorem brokenPin_results : GpioResults brokenPin :=
  ⟨fun _ _ => show (-5 : Int) ≤ 0 by decide, fun _ => show (-5 : Int) ≤ 1 by decide⟩

/-- The command LED ON is acknowledged although the pin was not set. -/
theorem failed_set_acknowledged : ∃ schedule state,
    GpioResults brokenPin ∧ run (step brokenPin) schedule (boot (.replicate 256 0) ()) = some state ∧
      state.wire = literal "LED ON" ++ [newline] ∧
      state.parser.board.out = [.gpioPinSetDt 1 (-5), .uartSendString .ledNowOn, .uartSendString .prompt] ∧
      ¬ Truthful state.parser.board.out := by
  have quiet : newline ∉ literal "LED ON" := by decide
  have asleep : Asleep (boot (.replicate 256 0) ()) := boot_asleep (.replicate 256 0) ()
  obtain ⟨state, received⟩ := exists_receives brokenPin quiet asleep
  have answered := (received_calls asleep rfl quiet (by decide) received).2
  obtain ⟨schedule, ran⟩ := received.ran
  have out : state.parser.board.out =
      [.gpioPinSetDt 1 (-5)] ++ .uartSendString .ledNowOn :: [.uartSendString .prompt] := answered
  refine ⟨schedule, state, brokenPin_results, ran, received.wire, out, fun truthful => ?_⟩
  exact absurd (truthful.backed _ _ _ out) (by simp [Backed])

end ZephyrTutorial.Proofs.UartFaults
