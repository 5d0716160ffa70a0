import ZephyrTutorial.Proofs.UartGreeting
import ZephyrTutorial.Proofs.UartLockstep

/-! A session with the application, from its start to an answer for each line, byte by byte as far as
`uart_send_string` sends them. -/

namespace ZephyrTutorial.Proofs.UartSession
open ZephyrTutorial.Uart ZephyrTutorial.UartStartup Machine PrefixCode UartHandoff UartService UartLockstep UartGreeting

universe u

variable {γ : Type u} {dev : Gpio γ} {temp : Vector UInt8 256} {led : γ}

/-- What holds at any time in a session with a polite host. -/
structure Session (dev : Gpio γ) (temp : Vector UInt8 256) (led : γ) (state : UartStartup.State γ) : Prop where
  started : Started dev temp led state
  unmixed : Unmixed state
  ended : Ended state
  paced : Paced dev (.start temp led) state.uart

private theorem polite_patient {event : UartStartup.Event} {state : UartStartup.State γ} (polite : Polite event state) :
    Patient event state := by
  rintro rfl
  exact polite.1

/-- After the greeting the host reads a part of the parser's texts. -/
private theorem Session.read_part {state : UartStartup.State γ} (session : Session dev temp led state)
    (greeted : greeting <+: state.text) : ∃ replies, state.text = greeting ++ replies ∧
      UartStartup.read state = decode Text.all Text.bytes replies ∧
      replies ++ state.str = transmitted state.uart.parser.board.out := by
  obtain ⟨replies, text, sent⟩ := session.unmixed.after_greeting (session.unmixed.sent greeted)
  refine ⟨replies, text, ?_, sent⟩
  rw [UartStartup.read, text, List.drop_left]

/-- The prompts that the host has not read yet only make it wait longer. -/
private theorem polite_lockstep {event : Uart.Event} {state : UartStartup.State γ}
    (session : Session dev temp led state) (polite : Polite (.uart event) state) : Lockstep event state.uart := by
  cases event with
  | uartCallback | kSemGive | kSemTake | ringBufGet => trivial
  | uartFifoRead byte =>
    cases byte with
    | none => trivial
    | some byte =>
      obtain ⟨greeted, answered, short⟩ := polite
      refine ⟨?_, short⟩
      obtain ⟨replies, _, told, sent⟩ := session.read_part greeted
      have part : UartStartup.read state <+: heard state.uart := by
        rw [told, heard_eq]
        exact (read_replies sent).1
      have fewer := part.sublist.count_le .prompt
      have prompts := prompts_heard session.paced.handoff
      have order := congrArg (List.count newline) (session.paced.handoff.order.trans session.paced.lossless)
      rw [List.count_append] at order
      omega

private theorem session_step (event : UartStartup.Event) (state next : UartStartup.State γ)
    (session : Session dev temp led state) (polite : Polite event state)
    (taken : UartStartup.step dev event state = some next) : Session dev temp led next := by
  have started := started_step _ _ _ session.started taken
  have unmixed := unmixed_step _ _ _ session.unmixed (session.ended.late session.started) taken
  have ended := ended_step _ _ _ session.unmixed session.ended (polite_patient polite) taken
  refine ⟨started, unmixed, ended, ?_⟩
  cases UartGreeting.step_took taken with
  | moved | greeted | answered | console => exact session.paced
  | uart allowed stepped => exact step_paced _ _ _ session.paced (polite_lockstep session polite) stepped

private theorem session_boot : Session dev temp led (UartStartup.boot temp led) :=
  ⟨started_boot, unmixed_boot, (fun present => by cases present), boot_paced temp led⟩

/-- The text is a part of the greeting and of all that the parser sends after it. -/
private theorem Session.text_part {state : UartStartup.State γ} (session : Session dev temp led state) :
    state.text <+: greeting ++ transmitted state.uart.parser.board.out := by
  by_cases silent : transmitted state.uart.parser.board.out = []
  · obtain ⟨greeted, replies, text, whole, sent⟩ := session.unmixed.shape
    rw [silent] at sent
    rw [text, (List.append_eq_nil_iff.mp sent).1, List.append_nil, ← whole, List.append_assoc]
    exact List.prefix_append _ _
  · obtain ⟨replies, text, sent⟩ := session.unmixed.after_greeting (session.unmixed.first silent)
    rw [text, ← sent, ← List.append_assoc]
    exact List.prefix_append _ _

/-- The whole session with a host that waits for the greeting, and for the prompt after each of its lines, which
have at most 254 bytes. Nothing that it sends is lost, and what `uart_send_string` sends it is, byte for byte,
a part of the greeting and of the answers to its lines as the table gives them, one after the other, all of
them but perhaps the last. When the application has no step left, it has been sent all of this, with the
last answer. The host has to tell these bytes from those of the console, which may come at any time. -/
theorem session_served (dev : Gpio γ) (temp : Vector UInt8 256) (led : γ) (schedule : List UartStartup.Event)
    (polite : Along (UartStartup.step dev) Polite schedule (UartStartup.boot temp led))
    (state : UartStartup.State γ)
    (ran : run (UartStartup.step dev) schedule (UartStartup.boot temp led) = some state) :
    state.uart.accepted = state.uart.wire ∧
    ∃ lines waiting, completeLines state.uart.wire = lines ++ waiting ∧ waiting.length ≤ 1 ∧
      state.uart.parser.board.led = (replyAll dev led lines).1 ∧
      state.text <+: greeting ++ transmitted (replyAll dev led lines).2 ∧
      (state.main.ready = true →
        (∀ event : UartStartup.Event, event.Own → UartStartup.step dev event state = none) →
        waiting = [] ∧ state.text = greeting ++ transmitted (replyAll dev led lines).2) := by
  have session := invariant_along session_step polite session_boot ran
  obtain ⟨waiting, lines, few, level, out⟩ := session.paced.served
  refine ⟨session.paced.lossless, completeLines state.uart.consumed, waiting, lines, few, level, ?_, ?_⟩
  · rw [← out]
    exact session.text_part
  · intro ready exhausted
    obtain ⟨returned, empty, rest⟩ := exhausted_end ready exhausted
    obtain ⟨taking, zero, settled⟩ := exhausted_rest rest
    have handoff := session.paced.handoff
    have quiet : newline ∉ state.uart.rxBuf.items := fun present => handoff.awake present taking settled zero
    constructor
    · rw [← session.paced.lossless, ← (rest_lines handoff.order quiet).1] at lines
      exact List.self_eq_append_right.mp lines
    · obtain ⟨replies, text, sent⟩ := session.unmixed.after_greeting (by rw [returned]; rfl)
      rw [empty, List.append_nil] at sent
      rw [text, sent, out]

/-- The host reads the greeting, sends the line LED ON and reads the answer. -/
theorem session_served_led_on : ∃ state : UartStartup.State Int,
    run (UartStartup.step workingPin) onAnswered (UartStartup.boot (.replicate 256 0) 0) = some state ∧
    completeLines state.uart.wire = [literal "LED ON"] ∧ state.uart.accepted = state.uart.wire ∧
    ∃ lines waiting, completeLines state.uart.wire = lines ++ waiting ∧ waiting.length ≤ 1 ∧
      state.text <+: greeting ++ transmitted (replyAll workingPin 0 lines).2 := by
  obtain ⟨state, ran, asked⟩ : ∃ state : UartStartup.State Int,
      run (UartStartup.step workingPin) onAnswered (UartStartup.boot (.replicate 256 0) 0) = some state ∧
      completeLines state.uart.wire = [literal "LED ON"] := exists_run (by decide +kernel)
  have polite : Along (UartStartup.step workingPin) Polite onAnswered (UartStartup.boot (.replicate 256 0) 0) := by
    decide +kernel
  obtain ⟨lossless, lines, waiting, whole, few, _, part, _⟩ :=
    session_served workingPin (.replicate 256 0) 0 _ polite state ran
  exact ⟨state, ran, asked, lossless, lines, waiting, whole, few, part⟩

end ZephyrTutorial.Proofs.UartSession
