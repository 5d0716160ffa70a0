import ZephyrTutorial.Proofs.UartEditor
import ZephyrTutorial.Proofs.UartHandoff
import ZephyrTutorial.UartHost

/-! The parser as a service on the line. The texts that it sends can be told apart by whoever
reads its bytes, a parser at rest has answered every complete line that it was given, and it comes
to rest whenever no further byte arrives. -/

namespace ZephyrTutorial.Proofs.UartService
open ZephyrTutorial.Uart Machine Kernel PrefixCode UartEditor UartRefinement UartHandoff

universe u

variable {γ : Type u} {dev : Gpio γ}

theorem mem_all (text : Text) : text ∈ Text.all := by cases text <;> decide

private theorem words_apart : (Text.all.all fun first => Text.all.all fun second =>
    decide (first = second) || !first.bytes.isPrefixOf second.bytes) = true := by decide +kernel

theorem bytes_prefixFree : PrefixFree Text.bytes where
  filled text := by cases text <;> decide +kernel
  apart first second fits := by
    have checked := List.all_eq_true.mp (List.all_eq_true.mp words_apart first (mem_all first)) second (mem_all second)
    rcases Bool.or_eq_true_iff.mp checked with same | different
    · exact of_decide_eq_true same
    · rw [List.isPrefixOf_iff_prefix.mpr fits] at different
      cases different

theorem texts_append (first rest : List Output) : texts (first ++ rest) = texts first ++ texts rest :=
  List.filterMap_append

theorem transmitted_eq (out : List Output) : transmitted out = encode Text.bytes (texts out) := by
  induction out with
  | nil => rfl
  | cons call out ih =>
    rw [transmitted, List.flatMap_cons, ← transmitted, ih]
    cases call with
    | gpioPinSetDt value ret | gpioPinGetDt ret => rfl
    | uartSendString text => exact congrArg (· ++ _) (uartSendString_bytes text)

/-- The bytes of the parser's own texts tell which texts it has sent, also while a further one is
on its way. Nothing is said here about other bytes on the same line, such as the greeting's. -/
theorem heard_exactly (out : List Output) (cut : List UInt8) (text : Text) (inside : cut <+: text.bytes)
    (proper : cut ≠ text.bytes) : decode Text.all Text.bytes (transmitted out ++ cut) = texts out := by
  rw [transmitted_eq]
  exact decode_encode bytes_prefixFree mem_all (texts out) (bytes_prefixFree.open_part inside proper)

theorem heard_exactly_cut_prompt :
    decode Text.all Text.bytes (transmitted [.gpioPinSetDt 1 0, .uartSendString .ledNowOn] ++ [62]) = [.ledNowOn] :=
  heard_exactly [.gpioPinSetDt 1 0, .uartSendString .ledNowOn] [62] .prompt (by decide) (by decide)

theorem heard_eq (state : State γ) : heard state = texts state.parser.board.out := by
  have whole := decode_encode bytes_prefixFree mem_all (texts state.parser.board.out) bytes_prefixFree.open_nil
  rw [List.append_nil] at whole
  rw [heard, transmitted_eq, whole]

private theorem unfinished_quiet {line : List UInt8} (quiet : newline ∉ line) : unfinished line = line := by
  rw [unfinished, List.splitOn_eq_singleton quiet]
  rfl

private theorem unfinished_cons {line : List UInt8} (rest : List UInt8) (quiet : newline ∉ line) :
    unfinished (line ++ newline :: rest) = unfinished rest := by
  rw [unfinished, List.splitOn_append_cons_self_of_not_mem quiet]
  cases shape : rest.splitOn newline with
  | nil => exact absurd shape (List.splitOn_ne_nil _ _)
  | cons first later => simp [unfinished, shape]

/-- Bytes without a newline complete no line. -/
theorem append_quiet (stream : List UInt8) {more : List UInt8} (quiet : newline ∉ more) :
    completeLines (stream ++ more) = completeLines stream ∧ unfinished (stream ++ more) = unfinished stream ++ more := by
  induction stream using stream_induction with
  | unfinished line still =>
    have both : newline ∉ line ++ more := by simp [still, quiet]
    rw [completeLines_unfinished both, completeLines_unfinished still, unfinished_quiet both, unfinished_quiet still]
    exact ⟨rfl, rfl⟩
  | complete line rest still ih =>
    rw [List.append_assoc, List.cons_append, completeLines_cons _ still, completeLines_cons _ still,
      unfinished_cons _ still, unfinished_cons _ still, ih.1, ih.2]
    exact ⟨rfl, rfl⟩

theorem append_newline (stream : List UInt8) :
    completeLines (stream ++ [newline]) = completeLines stream ++ [unfinished stream] ∧
      unfinished (stream ++ [newline]) = [] := by
  induction stream using stream_induction with
  | unfinished line still =>
    rw [completeLines_cons [] still, completeLines_unfinished still, unfinished_cons [] still, unfinished_quiet still]
    exact ⟨rfl, rfl⟩
  | complete line rest still ih =>
    rw [List.append_assoc, List.cons_append, completeLines_cons _ still, completeLines_cons _ still,
      unfinished_cons _ still, unfinished_cons _ still, ih.1, ih.2]
    exact ⟨rfl, rfl⟩

theorem completeLines_length (stream : List UInt8) : (completeLines stream).length = stream.count newline := by
  induction stream using List.reverseRecOn with
  | nil => rfl
  | append_singleton stream byte ih =>
    by_cases ended : byte = newline
    · rw [ended, (append_newline stream).1, List.length_append, ih, List.count_append]
      rfl
    · have quiet : newline ∉ [byte] := by simpa using Ne.symm ended
      rw [(append_quiet stream quiet).1, ih, List.count_append, List.count_eq_zero_of_not_mem quiet, Nat.add_zero]

/-- A whole stream leaves the answers to its complete lines, and one notice for every 255 bytes
of the line that it breaks off in. -/
theorem feedAll_respondAll (editor : Editor γ) (fresh : editor.line = []) (stream : List UInt8) :
    (editor.feedAll dev stream).line = lineTail (unfinished stream) ∧
      (editor.feedAll dev stream).board = ⟨(respondAll dev editor.board.led (completeLines stream)).1,
        editor.board.out ++ ((respondAll dev editor.board.led (completeLines stream)).2 ++
          List.replicate ((unfinished stream).length / 255) (.uartSendString .bufferOverflow))⟩ := by
  induction stream using stream_induction generalizing editor with
  | unfinished line quiet =>
    rw [completeLines_unfinished quiet, unfinished_quiet quiet]
    exact feedAll_unfinished dev editor fresh line quiet
  | complete line rest quiet ih =>
    obtain ⟨empty, board⟩ := feedAll_line dev editor fresh line quiet
    obtain ⟨tail, later⟩ := ih _ empty
    rw [List.append_cons, feedAll_append, tail, later, board, ← List.append_cons, completeLines_cons _ quiet,
      unfinished_cons _ quiet]
    exact ⟨rfl, by simp [respondAll]⟩

/-- What has been consumed of an accepted stream when the parser rests on no newline. -/
theorem rest_lines {state : State γ} (order : state.consumed ++ state.rxBuf.items = state.accepted)
    (quiet : newline ∉ state.rxBuf.items) : completeLines state.consumed = completeLines state.accepted ∧
      unfinished state.consumed ++ state.rxBuf.items = unfinished state.accepted := by
  obtain ⟨lines, tail⟩ := append_quiet state.consumed quiet
  rw [← order, lines, tail]
  exact ⟨rfl, rfl⟩

/-- If no byte was dropped, a sleeping parser has answered the complete lines of the wire one after
the other, whichever way the interrupt and the thread took turns. Only the overflow notices for the
line that the wire breaks off in may come sooner or later: there is one for every 255 bytes that
have left the ring, and the others are still in it. -/
theorem quiescent_output (dev : Gpio γ) (temp : Vector UInt8 256) (led : γ) (schedule : List Event)
    (state : State γ) (ran : run (step dev) schedule (boot temp led) = some state)
    (lossless : state.accepted = state.wire) (taking : state.thread = .taking) (zero : state.rxSem.count = 0)
    (settled : state.callback ≠ .giving) :
    state.parser.board.led = (respondAll dev led (completeLines state.wire)).1 ∧
    ∃ eaten, eaten ++ state.rxBuf.items = unfinished state.wire ∧
      state.parser.board.out = (respondAll dev led (completeLines state.wire)).2 ++
        List.replicate (eaten.length / 255) (.uartSendString .bufferOverflow) := by
  obtain ⟨order, parser, awake⟩ := run_handoff ran
  have quiet : newline ∉ state.rxBuf.items := fun present => awake present taking settled zero
  obtain ⟨lines, tail⟩ := rest_lines order quiet
  have board := (sequential_refines dev (start_refines temp led) state.consumed).board
  rw [(feedAll_respondAll (Editor.start led) rfl state.consumed).2, ← parser, lines, lossless] at board
  refine ⟨?_, unfinished state.consumed, ?_, ?_⟩
  · rw [board]
    rfl
  · rw [tail, lossless]
  · rw [board]
    rfl

/-- The line LED ON, an empty line, and 255 bytes of a third one, which are fetched with the second newline. -/
def onAndMore : List Event :=
  .uartCallback true true :: delivery (literal "LED ON") [] 8 ++ delivery [] (List.replicate 255 97) 257

theorem quiescent_output_led_on : ∃ state : State Int,
    run (step workingPin) onAndMore (boot (.replicate 256 0) 0) = some state ∧
    completeLines state.wire = [literal "LED ON", []] ∧
    state.parser.board.led = (respondAll workingPin 0 (completeLines state.wire)).1 ∧
    ∃ eaten, eaten ++ state.rxBuf.items = unfinished state.wire ∧
      state.parser.board.out = (respondAll workingPin 0 (completeLines state.wire)).2 ++
        List.replicate (eaten.length / 255) (.uartSendString .bufferOverflow) := by
  obtain ⟨state, ran, lines, lossless, taking, zero, settled⟩ : ∃ state : State Int,
      run (step workingPin) onAndMore (boot (.replicate 256 0) 0) = some state ∧
      completeLines state.wire = [literal "LED ON", []] ∧ state.accepted = state.wire ∧ state.thread = .taking ∧
      state.rxSem.count = 0 ∧ state.callback ≠ .giving := exists_run (by decide +kernel)
  exact ⟨state, ran, lines, quiescent_output workingPin _ 0 _ state ran lossless taking zero settled⟩

/-- The same bytes bring no notice while the last 255 of them wait in the ring. -/
example : (run (step workingPin) (.uartCallback true true :: delivery (literal "LED ON") [] 8 ++ delivery [] [] 2 ++
    reads (List.replicate 255 97)) (boot (.replicate 256 0) 0)).any fun state =>
      .bufferOverflow ∉ texts state.parser.board.out := by decide +kernel

private theorem prompts_reply (led : γ) (line : List UInt8) : (texts (reply dev led line).2).count .prompt = 1 := by
  unfold reply
  cases classify (lineText line) with
  | none => rfl
  | some command =>
    cases command with
    | ledOn | ledOff | unknown => rfl
    | status =>
      simp only [perform, texts_append]
      split <;> rfl

private theorem prompts_feed (editor : Editor γ) (byte : UInt8) :
    (texts (editor.feed dev byte).board.out).count .prompt =
      (texts editor.board.out).count .prompt + [byte].count newline := by
  by_cases ended : byte = newline
  · rw [ended, (feed_newline dev editor).2, Board.answer, texts_append, List.count_append, prompts_reply]
    rfl
  · have none : [byte].count newline = 0 := List.count_eq_zero_of_not_mem (by simpa using Ne.symm ended)
    by_cases room : editor.line.length < 254
    · rw [(feed_room dev ended room).2, none, Nat.add_zero]
    · rw [(feed_full dev ended room).2, none, Board.send, texts_append, List.count_append]
      rfl

private theorem prompts_feedAll (editor : Editor γ) (bytes : List UInt8) :
    (texts (editor.feedAll dev bytes).board.out).count .prompt =
      (texts editor.board.out).count .prompt + bytes.count newline := by
  induction bytes using List.reverseRecOn with
  | nil => rfl
  | append_singleton bytes byte ih => rw [feedAll_concat, prompts_feed, ih, List.count_append, Nat.add_assoc]

/-- In every state the host has heard one prompt for each newline that the parser has consumed. -/
theorem prompts_heard {temp : Vector UInt8 256} {led : γ} {state : State γ} (kept : Handoff dev (.start temp led) state) :
    (heard state).count .prompt = state.consumed.count newline := by
  have board := (sequential_refines dev (start_refines temp led) state.consumed).board
  rw [heard_eq, kept.parser, board, prompts_feedAll]
  exact Nat.zero_add _

/-- How many inner steps are left: two for each signal, one for each byte. -/
def effort (state : State γ) : Nat :=
  state.rxBuf.items.length + 2 * state.rxSem.count + (if state.thread = .draining then 1 else 0) +
    if state.callback = .giving then 3 else 0

theorem effort_lower (event : Event) (state next : State γ) (inner : event.Inner)
    (taken : step dev event state = some next) : effort next < effort state := by
  cases step_took taken with
  | enter | leave | put => exact absurd inner id
  | give giving =>
    have count := state.rxSem.give.bounded
    simp only [effort, giving]
    split <;> simp <;> omega
  | take taking counted =>
    simp only [effort, taking, counted]
    simp
    omega
  | drained draining empty => simp [effort, draining]
  | fetch draining stored =>
    simp only [effort, stored, List.length_cons]
    omega

private theorem effort_le (state : State γ) : effort state ≤ 262 := by
  have items := state.rxBuf.bounded
  have count := state.rxSem.bounded
  unfold effort
  split <;> split <;> omega

/-- Where no inner step is left, the thread sleeps and nothing is due to wake it. -/
theorem exhausted_rest {state : State γ} (exhausted : ∀ event : Event, event.Inner → step dev event state = none) :
    state.thread = .taking ∧ state.rxSem.count = 0 ∧ state.callback ≠ .giving := by
  have taking : state.thread = .taking := by
    cases place : state.thread with
    | taking => rfl
    | draining =>
      have stuck := exhausted .ringBufGet trivial
      simp only [step, place, if_true] at stuck
      split at stuck <;> cases stuck
  refine ⟨taking, ?_, ?_⟩
  · by_contra positive
    obtain ⟨after, taken⟩ := state.rxSem.exists_take (Nat.pos_of_ne_zero positive)
    have stuck := exhausted .kSemTake trivial
    simp [step, taking, taken] at stuck
  · intro giving
    have stuck := exhausted .kSemGive trivial
    simp [step, giving] at stuck

/-- At rest every newline that the ring has accepted has brought a prompt back. -/
theorem prompts_rest {temp : Vector UInt8 256} {led : γ} {state : State γ} (kept : Handoff dev (.start temp led) state)
    (exhausted : ∀ event : Event, event.Inner → step dev event state = none) :
    (heard state).count .prompt = state.accepted.count newline := by
  obtain ⟨taking, zero, settled⟩ := exhausted_rest exhausted
  have quiet : newline ∉ state.rxBuf.items := fun present => kept.awake present taking settled zero
  rw [prompts_heard kept, ← kept.order, List.count_append, List.count_eq_zero_of_not_mem quiet, Nat.add_zero]

theorem inner_received {origin : State γ} (event : Event) (state next : State γ) (inner : event.Inner)
    (same : state.accepted = origin.accepted) (taken : step dev event state = some next) :
    next.accepted = origin.accepted := by
  cases step_took taken with
  | enter | leave | put => exact absurd inner id
  | give | take | drained | fetch => exact same

/-- Whatever a run has left behind, 262 inner steps bring the parser to rest, in any order, and
then every newline that the ring has accepted has brought a prompt back. The way out of the
interrupt is no inner step and not counted. -/
theorem settles (dev : Gpio γ) (temp : Vector UInt8 256) (led : γ) (schedule : List Event) (state : State γ)
    (ran : run (step dev) schedule (boot temp led) = some state) :
    (∃ drain final, (∀ event ∈ drain, event.Inner) ∧ run (step dev) drain state = some final ∧
      ∀ event : Event, event.Inner → step dev event final = none) ∧
    ∀ drain final, (∀ event ∈ drain, event.Inner) → run (step dev) drain state = some final →
      drain.length ≤ 262 ∧
      ((∀ event : Event, event.Inner → step dev event final = none) →
        (heard final).count .prompt = state.accepted.count newline) := by
  refine ⟨exists_exhausted effort_lower state, ?_⟩
  intro drain final inner drained
  constructor
  · have total := length_le_measure effort_lower inner drained
    have bound := effort_le state
    omega
  · intro exhausted
    have received : final.accepted = state.accepted :=
      invariant_along (fun event before after same inner taken => inner_received event before after inner same taken)
        (along_of_forall (fun event member _ => inner event member) state) rfl drained
    rw [← received]
    exact prompts_rest (run_handoff (run_trans ran drained)) exhausted

theorem settles_after_newline : ∃ state : State Int, ∃ drain final,
    run (step workingPin) [.uartCallback true true, .uartFifoRead (some newline)] (boot (.replicate 256 0) 0) =
      some state ∧ (∀ event ∈ drain, event.Inner) ∧ run (step workingPin) drain state = some final ∧
    (heard final).count .prompt = state.accepted.count newline := by
  obtain ⟨state, ran⟩ : ∃ state, run (step workingPin) [.uartCallback true true, .uartFifoRead (some newline)]
      (boot (.replicate 256 0) 0) = some state := ⟨_, rfl⟩
  obtain ⟨⟨drain, final, inner, drained, exhausted⟩, always⟩ := settles workingPin _ 0 _ state ran
  exact ⟨state, drain, final, ran, inner, drained, (always drain final inner drained).2 exhausted⟩

end ZephyrTutorial.Proofs.UartService
