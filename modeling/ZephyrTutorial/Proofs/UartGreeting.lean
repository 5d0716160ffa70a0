import ZephyrTutorial.UartStartup
import ZephyrTutorial.Proofs.UartService

/-! The line that `main` and the parser thread share without a lock. No answer comes into the greeting, because
the thread sleeps until a line has come. Whatever the console puts between them, the bytes of the two are the
greeting and then the answers. -/

namespace ZephyrTutorial.Proofs.UartGreeting
open ZephyrTutorial.Uart ZephyrTutorial.UartStartup Machine PrefixCode UartHandoff UartService

universe u

variable {γ : Type u} {dev : Gpio γ} {temp : Vector UInt8 256} {led : γ}

private theorem greeting_whole : uartSendString greeting = greeting := by decide +kernel

/-- What a step is in the model that sends a text at once. -/
def shown : UartStartup.Event → List Uart.Event
  | .uart event => [event]
  | .isReady _ _ | .gpioPinConfigureDt | .uartIrqCallbackSet | .uartIrqRxEnable | .mainPollOut | .threadPollOut
  | .console _ => []

/-- The steps that `main` has still to take. -/
def ahead : Main → Nat
  | .isReady | .returned _ => 0
  | .configure => greeting.length + 4
  | .callbackSet => greeting.length + 3
  | .rxEnable => greeting.length + 2
  | .sending str => str.length + 1

/-- Everything that a step can do. The steps of `main` that send nothing have one case. -/
inductive Took (dev : Gpio γ) (state : UartStartup.State γ) : UartStartup.Event → UartStartup.State γ → Prop
  | moved {event : UartStartup.Event} {main : Main} (hidden : shown event = []) (same : main.unsent = state.main.unsent)
    (idle : main.enabled = false → state.main.enabled = false)
    (own : event.Own → main.ready = true ∧ ahead main < ahead state.main) : Took dev state event { state with main }
  | greeted {char : UInt8} {str : List UInt8} (here : state.main = .sending (char :: str)) :
    Took dev state .mainPollOut { state with main := .sending str, line := state.line ++ [.uartSendString char] }
  | answered {char : UInt8} {str : List UInt8} (here : state.str = char :: str) :
    Took dev state .threadPollOut { state with str, line := state.line ++ [.uartSendString char] }
  | console (char : UInt8) : Took dev state (.console char) { state with line := state.line ++ [.console char] }
  | uart {event : Uart.Event} {uart : Uart.State γ} (allowed : admitted event state = true)
    (taken : Uart.step dev event state.uart = some uart) :
    Took dev state (.uart event) { state with uart, str := state.str ++ added state.uart uart }

/-- A call of `main` that sends nothing, with the next one after it. -/
private theorem took_next {event : UartStartup.Event} {state : UartStartup.State γ} {before main : Main}
    (here : state.main = before) (hidden : shown event = []) (same : main.unsent = before.unsent)
    (idle : main.enabled = false → before.enabled = false) (ready : main.ready = true)
    (nearer : ahead before = ahead main + 1) : Took dev state event { state with main } := by
  subst here
  refine .moved hidden same idle fun _ => ⟨ready, ?_⟩
  rw [nearer]
  exact Nat.lt_succ_self _

theorem step_took {event : UartStartup.Event} {state next : UartStartup.State γ}
    (taken : UartStartup.step dev event state = some next) : Took dev state event next := by
  cases event with
  | isReady gpio device =>
    simp only [UartStartup.step] at taken
    split at taken
    next here =>
      cases taken
      refine .moved rfl ?_ (fun _ => by rw [here]; rfl) False.elim
      rw [here]
      split <;> rfl
    next => cases taken
  | gpioPinConfigureDt =>
    simp only [UartStartup.step] at taken
    split at taken
    next here =>
      cases taken
      exact took_next here rfl rfl (fun _ => rfl) rfl rfl
    next => cases taken
  | uartIrqCallbackSet =>
    simp only [UartStartup.step] at taken
    split at taken
    next here =>
      cases taken
      exact took_next here rfl rfl (fun _ => rfl) rfl rfl
    next => cases taken
  | uartIrqRxEnable =>
    simp only [UartStartup.step, greeting_whole] at taken
    split at taken
    next here =>
      cases taken
      exact took_next here rfl rfl (fun _ => rfl) rfl rfl
    next => cases taken
  | mainPollOut =>
    simp only [UartStartup.step] at taken
    split at taken
    next char str here => cases taken; exact .greeted here
    next here =>
      cases taken
      exact took_next here rfl rfl nofun rfl rfl
    next => cases taken
  | threadPollOut =>
    simp only [UartStartup.step] at taken
    split at taken
    next char str here => cases taken; exact .answered here
    next => cases taken
  | console char => cases taken; exact .console char
  | uart event =>
    simp only [UartStartup.step] at taken
    split at taken
    next allowed =>
      obtain ⟨uart, stepped, rfl⟩ := Option.map_eq_some_iff.mp taken
      exact .uart allowed stepped
    next => cases taken

private theorem step_shown (event : UartStartup.Event) (state next : UartStartup.State γ)
    (taken : UartStartup.step dev event state = some next) :
    run (Uart.step dev) (shown event) state.uart = some next.uart := by
  cases step_took taken with
  | moved hidden => rw [hidden]; rfl
  | greeted | answered | console => rfl
  | uart allowed stepped => exact run_cons.mpr ⟨_, stepped, rfl⟩

private theorem text_sent {state next : UartStartup.State γ} {char : UInt8}
    (line : next.line = state.line ++ [.uartSendString char]) : next.text = state.text ++ [char] := by
  rw [State.text, line, List.filterMap_append]
  rfl

private theorem text_console {state next : UartStartup.State γ} {char : UInt8}
    (line : next.line = state.line ++ [.console char]) : next.text = state.text := by
  rw [State.text, line, List.filterMap_append]
  exact List.append_nil _

private theorem dispatch_out (dev : Gpio γ) (temp : List UInt8) (board : Board γ) :
    ∃ calls, (dispatch dev temp board).out = board.out ++ calls ∧ (texts calls).length ≤ 1 := by
  unfold dispatch
  split
  · split
    · exact ⟨[_, _], List.append_assoc _ _ _, Nat.le_refl 1⟩
    · split
      · exact ⟨[_, _], List.append_assoc _ _ _, Nat.le_refl 1⟩
      · split
        · exact ⟨[_, _], List.append_assoc _ _ _, Nat.le_refl 1⟩
        · exact ⟨[_], rfl, Nat.le_refl 1⟩
  · exact ⟨[], (List.append_nil _).symm, Nat.zero_le 1⟩

private theorem loopBody_out (dev : Gpio γ) (parser : Parser γ) (byte : UInt8) :
    ∃ calls, (loopBody dev parser byte).board.out = parser.board.out ++ calls ∧ (texts calls).length ≤ 2 := by
  simp only [loopBody]
  split
  · obtain ⟨calls, out, few⟩ := dispatch_out dev
      (terminate (parser.temp.set parser.idx.toNat byte parser.idx.toNat_lt) parser.idx).toList parser.board
    refine ⟨calls ++ [.uartSendString .prompt], ?_, ?_⟩
    · rw [Board.send, out, List.append_assoc]
    · rw [texts_append, List.length_append]
      exact Nat.add_le_add_right few 1
  · split
    · exact ⟨[], (List.append_nil _).symm, Nat.zero_le 2⟩
    · exact ⟨[.uartSendString .bufferOverflow], rfl, Nat.le_succ 1⟩

private theorem transmitted_append (first rest : List Output) :
    transmitted (first ++ rest) = transmitted first ++ transmitted rest :=
  List.flatMap_append

private theorem transmitted_length (calls : List Output) : (transmitted calls).length ≤ 56 * (texts calls).length := by
  have short (text : Text) : (uartSendString text.bytes).length ≤ 56 := by cases text <;> decide +kernel
  induction calls with
  | nil => exact Nat.le_refl 0
  | cons call calls ih =>
    cases call with
    | gpioPinSetDt value ret | gpioPinGetDt ret => exact ih
    | uartSendString text =>
      have first := short text
      have both : transmitted (.uartSendString text :: calls) = uartSendString text.bytes ++ transmitted calls := rfl
      have one : texts (.uartSendString text :: calls) = text :: texts calls := rfl
      rw [both, one, List.length_append, List.length_cons]
      omega

private theorem added_of_out {state next : Uart.State γ} {calls : List Output}
    (out : next.parser.board.out = state.parser.board.out ++ calls) : added state next = transmitted calls := by
  rw [added, out, List.drop_left]

/-- Only the fetch of a byte makes the parser send something, two texts at most. -/
private theorem step_out {event : Uart.Event} {state next : Uart.State γ}
    (taken : Uart.step dev event state = some next) :
    ∃ calls, next.parser.board.out = state.parser.board.out ++ calls ∧ (texts calls).length ≤ 2 ∧
      (calls = [] ∨ event = .ringBufGet ∧ state.thread = .draining) := by
  cases UartHandoff.step_took taken with
  | enter | leave | put | give | take | drained => exact ⟨[], (List.append_nil _).symm, Nat.zero_le 2, .inl rfl⟩
  | fetch draining stored =>
    obtain ⟨calls, out, few⟩ := loopBody_out dev state.parser _
    exact ⟨calls, out, few, .inr ⟨rfl, draining⟩⟩

private theorem step_added {event : Uart.Event} {state next : Uart.State γ}
    (taken : Uart.step dev event state = some next) :
    transmitted next.parser.board.out = transmitted state.parser.board.out ++ added state next ∧
      (added state next).length ≤ 112 ∧ (added state next = [] ∨ event = .ringBufGet ∧ state.thread = .draining) := by
  obtain ⟨calls, out, few, cause⟩ := step_out taken
  rw [added_of_out out, out, transmitted_append]
  have size := transmitted_length calls
  refine ⟨rfl, by omega, cause.imp_left ?_⟩
  rintro rfl
  rfl

/-- Before the interrupt is enabled nothing happens outside `main`. Afterwards the thread wakes for a newline only. -/
structure Started (dev : Gpio γ) (temp : Vector UInt8 256) (led : γ) (state : UartStartup.State γ) : Prop where
  idle : state.main.enabled = false → state.uart = Uart.boot temp led ∧ state.str = []
  handoff : Handoff dev (.start temp led) state.uart
  woken : state.uart.thread = .draining ∨ state.uart.rxSem.count ≠ 0 ∨ state.uart.callback = .giving →
    newline ∈ state.uart.wire

theorem started_boot : Started dev temp led (UartStartup.boot temp led) where
  idle _ := ⟨rfl, rfl⟩
  handoff := boot_handoff temp led
  woken signal := by
    rcases signal with draining | counted | giving
    · cases draining
    · exact absurd rfl counted
    · cases giving

private theorem boot_stuck {event : Uart.Event} {state : Uart.State γ}
    (silent : ∀ update rxReady, event ≠ .uartCallback update rxReady)
    (taken : Uart.step dev event (Uart.boot temp led) = some state) : False := by
  cases event with
  | uartCallback update rxReady => exact silent update rxReady rfl
  | uartFifoRead byte => cases byte <;> cases taken
  | kSemGive | kSemTake | ringBufGet => cases taken

private theorem woken_step {event : Uart.Event} {state next : Uart.State γ}
    (woken : state.thread = .draining ∨ state.rxSem.count ≠ 0 ∨ state.callback = .giving → newline ∈ state.wire)
    (taken : Uart.step dev event state = some next) :
    next.thread = .draining ∨ next.rxSem.count ≠ 0 ∨ next.callback = .giving → newline ∈ next.wire := by
  cases UartHandoff.step_took taken with
  | enter update rxReady idle =>
    intro signal
    apply woken
    rcases signal with draining | counted | giving
    · exact .inl draining
    · exact .inr (.inl counted)
    · dsimp only at giving
      split at giving <;> cases giving
  | leave reading =>
    intro signal
    apply woken
    rcases signal with draining | counted | giving
    · exact .inl draining
    · exact .inr (.inl counted)
    · cases giving
  | put byte reading =>
    intro signal
    rcases signal with draining | counted | giving
    · exact List.mem_append_left _ (woken (.inl draining))
    · exact List.mem_append_left _ (woken (.inr (.inl counted)))
    · by_cases ended : byte = newline
      · rw [ended]
        exact List.mem_append_right _ List.mem_cons_self
      · simp [ringBufPut, ended] at giving
  | give giving => exact fun _ => woken (.inr (.inr giving))
  | take taking counted => exact fun _ => woken (.inr (.inl (by omega)))
  | drained draining empty => exact fun _ => woken (.inl draining)
  | fetch draining stored => exact fun _ => woken (.inl draining)

theorem started_step (event : UartStartup.Event) (state next : UartStartup.State γ) (started : Started dev temp led state)
    (taken : UartStartup.step dev event state = some next) : Started dev temp led next := by
  obtain ⟨idle, handoff, woken⟩ := started
  cases step_took taken with
  | moved hidden same still => exact ⟨fun disabled => idle (still disabled), handoff, woken⟩
  | greeted => exact ⟨fun disabled => (by cases disabled), handoff, woken⟩
  | console => exact ⟨idle, handoff, woken⟩
  | answered here =>
    refine ⟨fun disabled => ?_, handoff, woken⟩
    rw [(idle disabled).2] at here
    cases here
  | @uart event uart allowed stepped =>
    refine ⟨fun disabled => ?_, step_handoff _ _ _ _ handoff stepped, woken_step woken stepped⟩
    rw [(idle disabled).1] at stepped
    refine (boot_stuck (fun update rxReady callback => ?_) stepped).elim
    subst callback
    exact Bool.false_ne_true (disabled.symm.trans allowed)

theorem run_started {schedule : List UartStartup.Event} {state : UartStartup.State γ}
    (ran : run (UartStartup.step dev) schedule (UartStartup.boot temp led) = some state) :
    Started dev temp led state :=
  invariant started_step started_boot ran

/-- The text is a part of the greeting, or all of it and what the thread has sent of its texts. -/
structure Unmixed (state : UartStartup.State γ) : Prop where
  shape : ∃ greeted replies, state.text = greeted ++ replies ∧ greeted ++ state.main.unsent = greeting ∧
    replies ++ state.str = transmitted state.uart.parser.board.out
  first : transmitted state.uart.parser.board.out ≠ [] → state.main.unsent = []

theorem unmixed_boot : Unmixed (UartStartup.boot temp led) := ⟨⟨[], [], rfl, rfl, rfl⟩, fun sent => absurd rfl sent⟩

/-- The thread fetches its first byte after the last byte of the greeting. -/
def Late (event : UartStartup.Event) (state : UartStartup.State γ) : Prop :=
  event = .uart .ringBufGet → state.uart.thread = .draining → state.main.unsent = []

theorem unmixed_step (event : UartStartup.Event) (state next : UartStartup.State γ) (unmixed : Unmixed state)
    (late : Late event state) (taken : UartStartup.step dev event state = some next) : Unmixed next := by
  cases step_took taken with
  | moved hidden same =>
    obtain ⟨⟨greeted, replies, text, whole, sent⟩, first⟩ := unmixed
    exact ⟨⟨greeted, replies, text, same ▸ whole, sent⟩, fun answered => same.trans (first answered)⟩
  | console char =>
    obtain ⟨⟨greeted, replies, text, whole, sent⟩, first⟩ := unmixed
    exact ⟨⟨greeted, replies, (text_console rfl).trans text, whole, sent⟩, first⟩
  | @greeted char str here =>
    obtain ⟨⟨greeted, replies, text, whole, sent⟩, first⟩ := unmixed
    have silent : transmitted state.uart.parser.board.out = [] := by
      by_contra answered
      have done := first answered
      rw [here] at done
      cases done
    rw [silent] at sent
    obtain ⟨rfl, _⟩ := List.append_eq_nil_iff.mp sent
    refine ⟨⟨greeted ++ [char], [], ?_, ?_, sent.trans silent.symm⟩, fun answered => absurd silent answered⟩
    · rw [text_sent rfl, text, List.append_nil, List.append_nil]
    · rw [here] at whole
      rw [List.append_assoc]
      exact whole
  | @answered char str here =>
    obtain ⟨⟨greeted, replies, text, whole, sent⟩, first⟩ := unmixed
    refine ⟨⟨greeted, replies ++ [char], ?_, whole, ?_⟩, first⟩
    · rw [text_sent rfl, text, List.append_assoc]
    · rw [← sent, here, List.append_assoc]
      rfl
  | @uart event uart allowed stepped =>
    obtain ⟨⟨greeted, replies, text, whole, sent⟩, first⟩ := unmixed
    obtain ⟨more, _, cause⟩ := step_added stepped
    refine ⟨⟨greeted, replies, text, whole, ?_⟩, fun answered => ?_⟩
    · rw [more, ← sent, List.append_assoc]
    · rcases cause with none | ⟨rfl, draining⟩
      · rw [more, none, List.append_nil] at answered
        exact first answered
      · exact late rfl draining

/-- While the thread is awake, the interrupt is enabled. -/
theorem Started.enabled {state : UartStartup.State γ} (started : Started dev temp led state)
    (draining : state.uart.thread = .draining) : state.main.enabled = true := by
  by_contra disabled
  rw [(started.idle (Bool.eq_false_iff.mpr disabled)).1] at draining
  cases draining

private theorem preferred_late {event : UartStartup.Event} {state : UartStartup.State γ}
    (started : Started dev temp led state) (preferred : Preferred event state) : Late event state := by
  rintro rfl draining
  obtain ⟨ret, returned⟩ := preferred
  have enabled := started.enabled draining
  rw [returned] at enabled ⊢
  exact if_pos (eq_of_beq enabled)

/-- A newline has come only after the greeting. -/
def Ended (state : UartStartup.State γ) : Prop := newline ∈ state.uart.wire → state.main.unsent = []

theorem Ended.late {event : UartStartup.Event} {state : UartStartup.State γ} (started : Started dev temp led state)
    (ended : Ended state) : Late event state := fun _ draining => ended (started.woken (.inl draining))

theorem Unmixed.after_greeting {state : UartStartup.State γ} (unmixed : Unmixed state) (done : state.main.unsent = []) :
    ∃ replies, state.text = greeting ++ replies ∧
      replies ++ state.str = transmitted state.uart.parser.board.out := by
  obtain ⟨greeted, replies, text, whole, sent⟩ := unmixed.shape
  rw [done, List.append_nil] at whole
  exact ⟨replies, whole ▸ text, sent⟩

/-- When the host has read the whole greeting, it has been sent. -/
theorem Unmixed.sent {state : UartStartup.State γ} (unmixed : Unmixed state) (read : greeting <+: state.text) :
    state.main.unsent = [] := by
  obtain ⟨⟨greeted, replies, text, whole, sent⟩, first⟩ := unmixed
  by_contra waiting
  have silent : transmitted state.uart.parser.board.out = [] := by
    by_contra answered
    exact waiting (first answered)
  rw [silent] at sent
  rw [text, (List.append_eq_nil_iff.mp sent).1, List.append_nil] at read
  have long := read.length_le
  have total := congrArg List.length whole
  rw [List.length_append] at total
  exact waiting (List.length_eq_zero_iff.mp (by omega))

theorem ended_step (event : UartStartup.Event) (state next : UartStartup.State γ) (unmixed : Unmixed state)
    (ended : Ended state) (patient : Patient event state) (taken : UartStartup.step dev event state = some next) :
    Ended next := by
  cases step_took taken with
  | moved hidden same => exact fun present => same.trans (ended present)
  | greeted here =>
    intro present
    have done := ended present
    rw [here] at done
    cases done
  | answered | console => exact ended
  | @uart event uart allowed stepped =>
    cases UartHandoff.step_took stepped with
    | enter | leave | give | take | drained | fetch => exact ended
    | put byte reading =>
      intro present
      rcases List.mem_append.mp present with earlier | now
      · exact ended earlier
      · exact unmixed.sent (patient (by rw [List.mem_singleton.mp now]))

/-- Either the thread has the lower priority, or the host waits for the greeting. -/
def Orderly (dev : Gpio γ) (schedule : List UartStartup.Event) (state : UartStartup.State γ) : Prop :=
  Along (UartStartup.step dev) Preferred schedule state ∨ Along (UartStartup.step dev) Patient schedule state

theorem run_unmixed {schedule : List UartStartup.Event} {state : UartStartup.State γ}
    (orderly : Orderly dev schedule (UartStartup.boot temp led))
    (ran : run (UartStartup.step dev) schedule (UartStartup.boot temp led) = some state) : Unmixed state := by
  rcases orderly with preferred | patient
  · have kept : ∀ event state next, Started dev temp led state ∧ Unmixed state → Preferred event state →
        UartStartup.step dev event state = some next → Started dev temp led next ∧ Unmixed next := by
      rintro event state next ⟨started, unmixed⟩ guard taken
      exact ⟨started_step _ _ _ started taken, unmixed_step _ _ _ unmixed (preferred_late started guard) taken⟩
    exact (invariant_along kept preferred ⟨started_boot, unmixed_boot⟩ ran).2
  · have kept : ∀ event state next, Started dev temp led state ∧ Unmixed state ∧ Ended state → Patient event state →
        UartStartup.step dev event state = some next → Started dev temp led next ∧ Unmixed next ∧ Ended next := by
      rintro event state next ⟨started, unmixed, ended⟩ guard taken
      exact ⟨started_step _ _ _ started taken, unmixed_step _ _ _ unmixed (ended.late started) taken,
        ended_step _ _ _ unmixed ended guard taken⟩
    exact (invariant_along kept patient ⟨started_boot, unmixed_boot, fun present => by cases present⟩ ran).2.1

/-- What the host reads after the greeting are texts that the parser has sent, and all of them when nothing
is left to be sent. -/
theorem read_replies {out : List Output} {replies str : List UInt8} (sent : replies ++ str = transmitted out) :
    decode Text.all Text.bytes replies <+: texts out ∧ (str = [] → decode Text.all Text.bytes replies = texts out) := by
  rw [transmitted_eq] at sent
  refine ⟨decode_part bytes_prefixFree mem_all _ ⟨str, sent⟩, ?_⟩
  rintro rfl
  rw [List.append_nil] at sent
  have whole := decode_encode bytes_prefixFree mem_all (texts out) bytes_prefixFree.open_nil
  rwa [← sent, List.append_nil] at whole

/-- In whichever order the bytes of `main` and of the thread go out, the run is one of the model that sends a
text at once. If the thread has the lower priority, or if the host ends no line before it has read the
greeting, the text begins with the greeting, and what follows tells the texts of the thread. The text is
what `uart_send_string` has sent; the console may have put its bytes anywhere into it. -/
theorem greeting_first (dev : Gpio γ) (temp : Vector UInt8 256) (led : γ) (schedule : List UartStartup.Event)
    (state : UartStartup.State γ)
    (ran : run (UartStartup.step dev) schedule (UartStartup.boot temp led) = some state) :
    run (Uart.step dev) (schedule.flatMap shown) (Uart.boot temp led) = some state.uart ∧
    (Orderly dev schedule (UartStartup.boot temp led) → ∃ greeted replies, state.text = greeted ++ replies ∧
      greeted <+: greeting ∧ (replies ≠ [] → greeted = greeting) ∧
      decode Text.all Text.bytes replies <+: texts state.uart.parser.board.out ∧
      (state.str = [] → decode Text.all Text.bytes replies = texts state.uart.parser.board.out)) := by
  refine ⟨run_view step_shown ran, fun orderly => ?_⟩
  obtain ⟨⟨greeted, replies, text, whole, sent⟩, first⟩ := run_unmixed orderly ran
  obtain ⟨some_texts, all_texts⟩ := read_replies sent
  refine ⟨greeted, replies, text, ⟨_, whole⟩, fun replied => ?_, some_texts, all_texts⟩
  have answered : transmitted state.uart.parser.board.out ≠ [] := by
    rw [← sent]
    exact List.append_ne_nil_of_left_ne_nil replied _
  rw [first answered, List.append_nil] at whole
  exact whole

/-- After a banner of the console, a line comes with the interrupt enabled, after so many bytes of the greeting. -/
def lineAfter (bytes : Nat) (line : List UInt8) : List UartStartup.Event :=
  (literal "*** Booting").map .console ++
    [.isReady true true, .gpioPinConfigureDt, .uartIrqCallbackSet, .uartIrqRxEnable] ++
    List.replicate bytes .mainPollOut ++
    (Uart.Event.uartCallback true true :: reads (line ++ [newline])).map .uart

/-- The parser fetches a line, and its answer goes out with a byte of the log in front. -/
def answerSent (fetches bytes : Nat) : List UartStartup.Event :=
  [.uart .kSemGive, .uart .kSemTake] ++ List.replicate fetches (.uart .ringBufGet) ++ [.console 91] ++
    List.replicate bytes .threadPollOut

/-- The host may see its answer before `main` has returned. -/
def onAnswered : List UartStartup.Event := lineAfter 27 (literal "LED ON") ++ answerSent 7 23

theorem greeting_first_led_on : ∃ state : UartStartup.State Int,
    run (UartStartup.step workingPin) onAnswered (UartStartup.boot (.replicate 256 0) 0) = some state ∧
    state.line.length = 62 ∧ state.text.length = 50 ∧
    ∃ greeted replies, state.text = greeted ++ replies ∧ greeted <+: greeting ∧ (replies ≠ [] → greeted = greeting) ∧
      decode Text.all Text.bytes replies <+: texts state.uart.parser.board.out := by
  obtain ⟨state, ran, long, spoken⟩ : ∃ state : UartStartup.State Int,
      run (UartStartup.step workingPin) onAnswered (UartStartup.boot (.replicate 256 0) 0) = some state ∧
      state.line.length = 62 ∧ state.text.length = 50 := exists_run (by decide +kernel)
  have patient : Along (UartStartup.step workingPin) Patient onAnswered (UartStartup.boot (.replicate 256 0) 0) := by
    decide +kernel
  obtain ⟨greeted, replies, text, whole, first, told, _⟩ :=
    (greeting_first workingPin (.replicate 256 0) 0 _ state ran).2 (.inr patient)
  exact ⟨state, ran, long, spoken, greeted, replies, text, whole, first, told⟩

/-- With neither condition the prompt may come into the greeting. -/
example : (run (UartStartup.step workingPin) (lineAfter 1 [] ++ answerSent 1 2 ++ [.mainPollOut])
    (UartStartup.boot (.replicate 256 0) 0)).map (·.text) = some (literal "[> i") := by decide +kernel

/-- A byte that the parser fetches makes it send 112 bytes at most. -/
def work (state : UartStartup.State γ) : Nat := 113 * effort state.uart + state.str.length + ahead state.main

private theorem work_lower (event : UartStartup.Event) (state next : UartStartup.State γ) (own : event.Own)
    (taken : UartStartup.step dev event state = some next) : work next < work state := by
  cases step_took taken with
  | moved hidden same idle forward =>
    have less := (forward own).2
    simp only [work]
    omega
  | greeted here => simp only [work, here, ahead, List.length_cons]; omega
  | answered here => simp only [work, here, List.length_cons]; omega
  | console => exact own.elim
  | uart allowed stepped =>
    have less := effort_lower _ _ _ own stepped
    obtain ⟨_, few, _⟩ := step_added stepped
    simp only [work, List.length_append]
    omega

private theorem work_console (event : UartStartup.Event) (state next : UartStartup.State γ)
    (console : ∃ char, event = .console char) (taken : UartStartup.step dev event state = some next) :
    work next ≤ work state := by
  obtain ⟨char, rfl⟩ := console
  cases taken
  exact Nat.le_refl _

private theorem undisturbed_kept {origin : UartStartup.State γ} (event : UartStartup.Event)
    (state next : UartStartup.State γ)
    (kept : state.main.ready = true ∧ state.uart.accepted = origin.uart.accepted) (undisturbed : event.Undisturbed)
    (taken : UartStartup.step dev event state = some next) :
    next.main.ready = true ∧ next.uart.accepted = origin.uart.accepted := by
  obtain ⟨ready, same⟩ := kept
  rcases undisturbed with own | ⟨char, rfl⟩
  · cases step_took taken with
    | moved hidden unsent idle forward => exact ⟨(forward own).1, same⟩
    | greeted => exact ⟨rfl, same⟩
    | answered | console => exact ⟨ready, same⟩
    | uart allowed stepped => exact ⟨ready, inner_received _ _ _ own same stepped⟩
  · cases taken
    exact ⟨ready, same⟩

/-- Where the processor has no step left, `main` has returned and everything has been sent. -/
theorem exhausted_end {state : UartStartup.State γ} (ready : state.main.ready = true)
    (exhausted : ∀ event : UartStartup.Event, event.Own → UartStartup.step dev event state = none) :
    state.main = .returned 0 ∧ state.str = [] ∧
      ∀ event : Uart.Event, event.Inner → Uart.step dev event state.uart = none := by
  have returned : state.main = .returned 0 := by
    cases here : state.main with
    | isReady =>
      rw [here] at ready
      cases ready
    | configure =>
      have stuck := exhausted .gpioPinConfigureDt trivial
      simp [UartStartup.step, here] at stuck
    | callbackSet =>
      have stuck := exhausted .uartIrqCallbackSet trivial
      simp [UartStartup.step, here] at stuck
    | rxEnable =>
      have stuck := exhausted .uartIrqRxEnable trivial
      simp [UartStartup.step, here] at stuck
    | sending str =>
      have stuck := exhausted .mainPollOut trivial
      cases str <;> simp [UartStartup.step, here] at stuck
    | returned ret =>
      rw [here] at ready
      rw [eq_of_beq ready]
  have empty : state.str = [] := by
    cases rest : state.str with
    | nil => rfl
    | cons char str =>
      have stuck := exhausted .threadPollOut trivial
      simp [UartStartup.step, returned, rest] at stuck
  refine ⟨returned, empty, fun event inner => ?_⟩
  have stuck := exhausted (.uart event) inner
  have allowed : admitted event state = true := by
    cases event with
    | uartCallback => exact inner.elim
    | uartFifoRead | kSemGive => rfl
    | kSemTake | ringBufGet => rw [admitted, empty]; rfl
  simpa [UartStartup.step, returned, allowed] using stuck

private theorem undisturbed_patient {event : UartStartup.Event} (undisturbed : event.Undisturbed)
    (state : UartStartup.State γ) : Patient event state := by
  rintro rfl
  rcases undisturbed with own | ⟨char, impossible⟩
  · exact own.elim
  · cases impossible

/-- When the devices are ready and the host waits for the greeting, the own steps of the application come to
an end in any order, whatever the console prints meanwhile. Then `uart_send_string` has sent the greeting,
every text of the parser after it, and one prompt for each newline that the ring has accepted. -/
theorem startup_settles (dev : Gpio γ) (temp : Vector UInt8 256) (led : γ) (schedule : List UartStartup.Event)
    (patient : Along (UartStartup.step dev) Patient schedule (UartStartup.boot temp led))
    (state : UartStartup.State γ)
    (ran : run (UartStartup.step dev) schedule (UartStartup.boot temp led) = some state)
    (ready : state.main.ready = true) :
    (∃ drain final, (∀ event ∈ drain, event.Own) ∧ run (UartStartup.step dev) drain state = some final ∧
      ∀ event : UartStartup.Event, event.Own → UartStartup.step dev event final = none) ∧
    ∃ bound, ∀ drain final, (∀ event ∈ drain, event.Undisturbed) →
      run (UartStartup.step dev) drain state = some final →
      (drain.filter (UartStartup.Event.Own ·)).length ≤ bound ∧
      ((∀ event : UartStartup.Event, event.Own → UartStartup.step dev event final = none) →
        final.main = .returned 0 ∧ ∃ replies, final.text = greeting ++ replies ∧
          decode Text.all Text.bytes replies = texts final.uart.parser.board.out ∧
          (decode Text.all Text.bytes replies).count .prompt = state.uart.accepted.count newline) := by
  refine ⟨exists_exhausted work_lower state, work state, fun drain final alone drained => ⟨?_, fun exhausted => ?_⟩⟩
  · have total := filter_le_measure work_lower work_console alone drained
    omega
  · have undisturbed : Along (UartStartup.step dev) (fun event _ => event.Undisturbed) drain state :=
      along_of_forall (fun event member _ => alone event member) state
    obtain ⟨readyStill, received⟩ := invariant_along undisturbed_kept undisturbed ⟨ready, rfl⟩ drained
    obtain ⟨returned, empty, rest⟩ := exhausted_end readyStill exhausted
    have whole := run_trans ran drained
    have orderly : Orderly dev (schedule ++ drain) (UartStartup.boot temp led) :=
      .inr (patient.append fun middle _ =>
        along_of_forall (fun event member state => undisturbed_patient (alone event member) state) middle)
    obtain ⟨replies, text, sent⟩ := (run_unmixed orderly whole).after_greeting (by rw [returned]; rfl)
    have told := (read_replies sent).2 empty
    refine ⟨returned, replies, text, told, ?_⟩
    rw [told, ← heard_eq, ← received]
    exact prompts_rest (run_started whole).handoff rest

/-- The line has come, and nothing has been done about it. -/
theorem startup_settles_led_on : ∃ state : UartStartup.State Int, ∃ drain final,
    run (UartStartup.step workingPin) (lineAfter 27 (literal "LED ON")) (UartStartup.boot (.replicate 256 0) 0) =
      some state ∧ state.uart.accepted = literal "LED ON" ++ [newline] ∧
    (∀ event ∈ drain, event.Own) ∧ run (UartStartup.step workingPin) drain state = some final ∧
    final.main = .returned 0 ∧ ∃ replies, final.text = greeting ++ replies ∧
      (decode Text.all Text.bytes replies).count .prompt = state.uart.accepted.count newline := by
  obtain ⟨state, ran, received, sending⟩ : ∃ state : UartStartup.State Int,
      run (UartStartup.step workingPin) (lineAfter 27 (literal "LED ON")) (UartStartup.boot (.replicate 256 0) 0) =
        some state ∧
      state.uart.accepted = literal "LED ON" ++ [newline] ∧ state.main.ready = true := exists_run (by decide +kernel)
  have patient : Along (UartStartup.step workingPin) Patient (lineAfter 27 (literal "LED ON"))
      (UartStartup.boot (.replicate 256 0) 0) := by decide +kernel
  obtain ⟨⟨drain, final, own, drained, exhausted⟩, _, always⟩ :=
    startup_settles workingPin (.replicate 256 0) 0 _ patient state ran sending
  obtain ⟨returned, replies, text, _, prompts⟩ :=
    (always drain final (fun event member => .inl (own event member)) drained).2 exhausted
  exact ⟨state, drain, final, ran, received, own, drained, returned, replies, text, prompts⟩

end ZephyrTutorial.Proofs.UartGreeting
