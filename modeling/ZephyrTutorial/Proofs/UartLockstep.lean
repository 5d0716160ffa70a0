import ZephyrTutorial.Proofs.UartLoad
import ZephyrTutorial.Proofs.UartService

/-! A host that works in lockstep with the parser. It sends a line only after the prompt for the line
before it, so that the ring never holds more than one line and the parser never falls behind. -/

namespace ZephyrTutorial.Proofs.UartLockstep
open ZephyrTutorial.Uart Machine Kernel UartEditor UartRefinement UartHandoff UartLoad UartService

universe u

variable {γ : Type u} {dev : Gpio γ}

/-- The wire as far as the host has written it: every line of it fits, and the parser has at
most one of them still to answer. -/
structure Paced (dev : Gpio γ) (start : Parser γ) (state : State γ) : Prop where
  handoff : Handoff dev start state
  lossless : state.accepted = state.wire
  lines : ∀ line ∈ completeLines state.wire, line.length ≤ 254
  last : (unfinished state.wire).length ≤ 254
  behind : state.wire.count newline ≤ state.consumed.count newline + 1

/-- While the host waits for nothing, what is in the ring belongs to the line that it is writing. -/
theorem Paced.room {start : Parser γ} {state : State γ} (paced : Paced dev start state)
    (answered : state.consumed.count newline = state.wire.count newline) :
    state.rxBuf.items.length ≤ (unfinished state.wire).length := by
  have order := paced.handoff.order.trans paced.lossless
  have quiet : newline ∉ state.rxBuf.items := by
    apply List.count_eq_zero.mp
    rw [← order, List.count_append] at answered
    omega
  rw [← order, (append_quiet state.consumed quiet).2, List.length_append]
  exact Nat.le_add_left _ _

private theorem put_paced {temp : Vector UInt8 256} {led : γ} {state next : State γ} {byte : UInt8}
    (paced : Paced dev (.start temp led) state) (lockstep : Lockstep (.uartFifoRead (some byte)) state)
    (taken : step dev (.uartFifoRead (some byte)) state = some next) (put : next = ringBufPut byte state) :
    Paced dev (.start temp led) next := by
  obtain ⟨heard, short⟩ := lockstep
  have answered : state.consumed.count newline = state.wire.count newline :=
    (prompts_heard paced.handoff).symm.trans heard
  have last := paced.last
  have room : state.rxBuf.items.length < 256 := Nat.lt_of_le_of_lt (paced.room answered) (by omega)
  have stored := (RingBuf.put_room byte room).1
  have wire : next.wire = state.wire ++ [byte] := by rw [put]; rfl
  have consumed : next.consumed = state.consumed := by rw [put]; rfl
  have handoff := step_handoff _ _ _ _ paced.handoff taken
  have lossless : next.accepted = next.wire := by
    rw [put]
    simp only [ringBufPut, stored, if_true, paced.lossless]
  by_cases ended : byte = newline
  · obtain ⟨complete, fresh⟩ := append_newline state.wire
    rw [ended] at wire
    refine ⟨handoff, lossless, ?_, ?_, ?_⟩
    · rw [wire, complete]
      intro line member
      rcases List.mem_append.mp member with earlier | added
      · exact paced.lines line earlier
      · rw [List.mem_singleton.mp added]
        exact last
    · rw [wire, fresh]
      exact Nat.zero_le _
    · rw [wire, consumed, answered, List.count_append]
      exact Nat.le_refl _
  · have quiet : newline ∉ [byte] := by simpa using Ne.symm ended
    obtain ⟨complete, longer⟩ := append_quiet state.wire quiet
    refine ⟨handoff, lossless, ?_, ?_, ?_⟩
    · rw [wire, complete]
      exact paced.lines
    · rw [wire, longer, List.length_append]
      exact short ended
    · rw [wire, consumed, List.count_append, List.count_eq_zero_of_not_mem quiet]
      exact paced.behind

theorem step_paced {temp : Vector UInt8 256} {led : γ} (event : Event) (state next : State γ)
    (paced : Paced dev (.start temp led) state) (lockstep : Lockstep event state)
    (taken : step dev event state = some next) : Paced dev (.start temp led) next := by
  have handoff := step_handoff _ _ _ _ paced.handoff taken
  cases step_took taken with
  | enter | leave | give | take | drained =>
    exact ⟨handoff, paced.lossless, paced.lines, paced.last, paced.behind⟩
  | put byte reading => exact put_paced paced lockstep taken rfl
  | fetch draining stored =>
    refine ⟨handoff, paced.lossless, paced.lines, paced.last, ?_⟩
    rw [List.count_append]
    exact Nat.le_trans paced.behind (by omega)

theorem boot_paced (temp : Vector UInt8 256) (led : γ) : Paced dev (.start temp led) (boot temp led) :=
  ⟨boot_handoff temp led, rfl, nofun, Nat.zero_le _, Nat.zero_le _⟩

private theorem respondAll_short (led : γ) {lines : List (List UInt8)} (short : ∀ line ∈ lines, line.length ≤ 254) :
    respondAll dev led lines = replyAll dev led lines := by
  induction lines generalizing led with
  | nil => rfl
  | cons line later ih =>
    obtain ⟨first, rest⟩ := List.forall_mem_cons.mp short
    simp only [respondAll, replyAll, respond_short dev led first, ih _ rest]

/-- A part of a stream breaks off in a line of the stream. -/
private theorem unfinished_short {first rest : List UInt8}
    (lines : ∀ line ∈ completeLines (first ++ rest), line.length ≤ 254)
    (last : (unfinished (first ++ rest)).length ≤ 254) : (unfinished first).length ≤ 254 := by
  by_cases present : newline ∈ rest
  · obtain ⟨line, later, rfl, quiet⟩ := List.eq_append_cons_of_mem present
    have part : completeLines (first ++ line ++ [newline]) <+: completeLines (first ++ (line ++ newline :: later)) := by
      simpa using completeLines_prefix (first ++ line ++ [newline]) later
    have member : unfinished (first ++ line) ∈ completeLines (first ++ line ++ [newline]) := by
      rw [(append_newline (first ++ line)).1]
      exact List.mem_append_right _ (List.mem_singleton_self _)
    have bound := lines _ (part.subset member)
    rw [(append_quiet first quiet).2, List.length_append] at bound
    omega
  · rw [(append_quiet first present).2, List.length_append] at last
    omega

/-- The lines that the parser has consumed are answered as the table says. -/
theorem Paced.served {temp : Vector UInt8 256} {led : γ} {state : State γ} (paced : Paced dev (.start temp led) state) :
    ∃ waiting, completeLines state.wire = completeLines state.consumed ++ waiting ∧ waiting.length ≤ 1 ∧
      state.parser.board.led = (replyAll dev led (completeLines state.consumed)).1 ∧
      state.parser.board.out = (replyAll dev led (completeLines state.consumed)).2 := by
  have order := paced.handoff.order.trans paced.lossless
  obtain ⟨waiting, rest⟩ := completeLines_prefix state.consumed state.rxBuf.items
  have lines := paced.lines
  have last := paced.last
  rw [← order] at lines last
  have short := unfinished_short lines last
  rw [← rest] at lines
  have fits : respondAll dev led (completeLines state.consumed) = replyAll dev led (completeLines state.consumed) :=
    respondAll_short led fun line member => lines line (List.mem_append_left waiting member)
  have board := (sequential_refines dev (start_refines temp led) state.consumed).board
  rw [(feedAll_respondAll (Editor.start led) rfl state.consumed).2, ← paced.handoff.parser,
    Nat.div_eq_of_lt (Nat.lt_succ_of_le short), List.replicate_zero, List.append_nil] at board
  refine ⟨waiting, ?_, ?_, ?_, ?_⟩
  · rw [← order, rest]
  · have behind := paced.behind
    rw [← completeLines_length, ← completeLines_length, ← order, ← rest, List.length_append] at behind
    omega
  · rw [board, ← fits]
    rfl
  · rw [board, ← fits]
    rfl

/-- A host that waits for the prompt after each line, and keeps to 254 bytes, loses nothing, whatever
the interrupt and the thread do in between: its lines are answered one by one as the table says, all
of them but perhaps the last one. -/
theorem lockstep_served (dev : Gpio γ) (temp : Vector UInt8 256) (led : γ) (schedule : List Event)
    (lockstep : Along (step dev) Lockstep schedule (boot temp led)) (state : State γ)
    (ran : run (step dev) schedule (boot temp led) = some state) :
    state.accepted = state.wire ∧
    ∃ lines waiting, completeLines state.wire = lines ++ waiting ∧ waiting.length ≤ 1 ∧
      state.parser.board.led = (replyAll dev led lines).1 ∧
      state.parser.board.out = (replyAll dev led lines).2 ∧ heard state = texts (replyAll dev led lines).2 := by
  have paced := invariant_along step_paced lockstep (boot_paced temp led) ran
  obtain ⟨waiting, lines, few, level, out⟩ := paced.served
  refine ⟨paced.lossless, completeLines state.consumed, waiting, lines, few, level, out, ?_⟩
  rw [heard_eq, out]

/-- The second command is sent after the prompt for the first one. -/
def onThenAsk : List Event :=
  .uartCallback true true :: delivery (literal "LED ON") [] 8 ++ reads (literal "STATUS") ++
    [.uartFifoRead (some newline)]

theorem lockstep_served_on_then_ask : ∃ state : State Int,
    run (step workingPin) onThenAsk (boot (.replicate 256 0) 0) = some state ∧
    completeLines state.wire = [literal "LED ON", literal "STATUS"] ∧ state.accepted = state.wire ∧
    ∃ lines waiting, completeLines state.wire = lines ++ waiting ∧ waiting.length ≤ 1 ∧
      state.parser.board.led = (replyAll workingPin 0 lines).1 ∧
      state.parser.board.out = (replyAll workingPin 0 lines).2 ∧
      heard state = texts (replyAll workingPin 0 lines).2 := by
  have lockstep : Along (step workingPin) Lockstep onThenAsk (boot (.replicate 256 0) 0) := by decide +kernel
  obtain ⟨state, ran, lines⟩ : ∃ state : State Int,
      run (step workingPin) onThenAsk (boot (.replicate 256 0) 0) = some state ∧
      completeLines state.wire = [literal "LED ON", literal "STATUS"] := exists_run (by decide +kernel)
  exact ⟨state, ran, lines, lockstep_served workingPin _ 0 _ lockstep state ran⟩

end ZephyrTutorial.Proofs.UartLockstep
