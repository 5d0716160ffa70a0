import ZephyrTutorial.Proofs.UartCommands
import ZephyrTutorial.Proofs.UartHandoff

/-! The parser under load. As long as the ring has room for every byte, the wire itself is
what the parser reads; one dropped byte is enough to make two lines into a third. -/

namespace ZephyrTutorial.Proofs.UartLoad
open ZephyrTutorial.Uart Machine Kernel UartEditor UartRefinement UartHandoff

universe u

variable {γ : Type u} {dev : Gpio γ}

/-- A byte from the wire finds a free place in the ring. -/
def HasRoom (event : Event) (state : State γ) : Prop :=
  match event with
  | .uartFifoRead (some _) => state.rxBuf.items.length < 256
  | _ => True

instance : (event : Event) → (state : State γ) → Decidable (HasRoom event state)
  | .uartFifoRead (some _), _ => inferInstanceAs (Decidable (_ < _))
  | .uartFifoRead none, _ | .uartCallback _ _, _ | .kSemGive, _ | .kSemTake, _ | .ringBufGet, _ => isTrue trivial

/-- What the wire may carry here: every line fits and is free of NUL bytes. -/
def ProperLines (stream : List UInt8) : Prop :=
  ∀ line ∈ stream.splitOn newline, line.length ≤ 254 ∧ 0 ∉ line

instance (stream : List UInt8) : Decidable (ProperLines stream) :=
  inferInstanceAs (Decidable (∀ line ∈ _, _ ∧ _))

/-- No LED action without an LED command on the wire, in order. -/
def NoPhantom (state : State γ) : Prop :=
  (ledActions state.parser.board.out).Sublist (ledCommands state.wire)

private theorem step_lossless (event : Event) (state next : State γ)
    (kept : state.accepted = state.wire) (room : HasRoom event state)
    (taken : step dev event state = some next) : next.accepted = next.wire := by
  cases step_took taken with
  | put byte reading =>
    have stored := (RingBuf.put_room byte room).1
    simp only [ringBufPut, stored, if_true, kept]
  | _ => exact kept

theorem completeLines_prefix (first rest : List UInt8) :
    completeLines first <+: completeLines (first ++ rest) := by
  induction first using stream_induction with
  | unfinished line quiet =>
    rw [completeLines_unfinished quiet]
    exact List.nil_prefix
  | complete line first quiet ih =>
    rw [List.append_assoc, List.cons_append, completeLines_cons _ quiet, completeLines_cons _ quiet]
    exact List.cons_prefix_cons.mpr ⟨rfl, ih⟩

private theorem completeLines_subset (stream : List UInt8) :
    completeLines stream ⊆ stream.splitOn newline := List.dropLast_subset _

private theorem ledActions_sequential (temp : Vector UInt8 256) (led : γ) (bytes : List UInt8)
    (proper : ∀ line ∈ completeLines bytes, line.length ≤ 254) :
    ledActions (sequential dev (.start temp led) bytes).board.out = ledCommands bytes := by
  have tails : (completeLines bytes).filterMap (fun line => ledCommand (lineTail line)) =
      ledCommands bytes := by
    apply List.filterMap_congr
    intro line member
    rw [lineTail_short (proper line member)]
  rw [(sequential_refines dev (start_refines temp led) bytes).board,
    ledActions_stream dev (.start led) rfl bytes, tails]
  rfl

/-- If the ring had room for every byte of a run, the parser executed a part of the
commands on the wire, in every state on the way. -/
theorem no_phantom_command (dev : Gpio γ) (temp : Vector UInt8 256) (led : γ) (schedule : List Event)
    (room : Along (step dev) HasRoom schedule (boot temp led)) (state : State γ)
    (ran : run (step dev) schedule (boot temp led) = some state) (proper : ProperLines state.wire) :
    NoPhantom state := by
  have lossless : state.accepted = state.wire := invariant_along step_lossless room rfl ran
  obtain ⟨order, parser, _⟩ := run_handoff ran
  have wire : state.wire = state.consumed ++ state.rxBuf.items := by rw [order, lossless]
  have lines := completeLines_prefix state.consumed state.rxBuf.items
  rw [← wire] at lines
  have short : ∀ line ∈ completeLines state.consumed, line.length ≤ 254 :=
    fun line member => (proper line (completeLines_subset _ (lines.subset member))).1
  rw [NoPhantom, parser, ledActions_sequential temp led state.consumed short]
  exact lines.sublist.filterMap _

theorem no_phantom_led_on : ∃ state : State Int,
    run (step workingPin) (.uartCallback true true :: delivery (literal "LED ON") [] 7) (boot (.replicate 256 0) 0) =
      some state ∧
    state.wire = literal "LED ON" ++ [newline] ∧ ledActions state.parser.board.out = [1] ∧ NoPhantom state := by
  obtain ⟨state, ran, wire, actions⟩ : ∃ state : State Int,
      run (step workingPin) (.uartCallback true true :: delivery (literal "LED ON") [] 7) (boot (.replicate 256 0) 0) =
        some state ∧
      state.wire = literal "LED ON" ++ [newline] ∧ ledActions state.parser.board.out = [1] :=
    exists_run (by decide +kernel)
  refine ⟨state, ran, wire, actions, no_phantom_command workingPin _ 0 _ (by decide +kernel) state ran ?_⟩
  rw [wire]
  decide +kernel

structure Undisturbed (before after : State γ) : Prop where
  thread : after.thread = before.thread
  rxSem : after.rxSem = before.rxSem
  parser : after.parser = before.parser
  consumed : after.consumed = before.consumed

private theorem run_reads (dev : Gpio γ) (bytes : List UInt8) (quiet : newline ∉ bytes) (state : State γ)
    (reading : state.callback = .reading) :
    ∃ next, run (step dev) (reads bytes) state = some next ∧ next.callback = .reading ∧
      next.rxBuf.items = (state.rxBuf.items ++ bytes).take 256 ∧
      next.wire = state.wire ++ bytes ∧ Undisturbed state next := by
  induction bytes generalizing state with
  | nil =>
    refine ⟨state, rfl, reading, ?_, by simp, rfl, rfl, rfl, rfl⟩
    rw [List.append_nil, List.take_of_length_le state.rxBuf.bounded]
  | cons byte bytes ih =>
    simp only [List.mem_cons, not_or] at quiet
    have taken : step dev (.uartFifoRead (some byte)) state = some (ringBufPut byte state) := by
      simp only [step, if_pos reading]
    obtain ⟨next, ran, callback, items, wire, kept⟩ := ih quiet.2 (ringBufPut byte state)
      (if_neg (Ne.symm quiet.1))
    refine ⟨next, run_cons.mpr ⟨_, taken, ran⟩, callback, ?_, ?_, kept.thread, kept.rxSem, kept.parser,
      kept.consumed⟩
    · rw [items]
      simp only [ringBufPut, RingBuf.put_take, RingBuf.take_append_take, List.append_assoc, List.singleton_append]
    · rw [wire]
      simp [ringBufPut]

private theorem run_drain (dev : Gpio γ) (state : State γ) (draining : state.thread = .draining) :
    ∃ next, run (step dev) (List.replicate (state.rxBuf.items.length + 1) .ringBufGet) state = some next ∧
      next.thread = .taking ∧ next.rxBuf.items = [] ∧
      next.consumed = state.consumed ++ state.rxBuf.items ∧
      next.callback = state.callback ∧ next.rxSem = state.rxSem ∧ next.wire = state.wire := by
  cases stored : state.rxBuf.get with
  | none =>
    have empty := RingBuf.get_eq_none.mp stored
    refine ⟨{ state with thread := .taking }, ?_, rfl, empty, by simp [empty], rfl, rfl, rfl⟩
    simp [empty, run, step, draining, stored]
  | some fetched =>
    obtain ⟨byte, rest⟩ := fetched
    have items := RingBuf.get_eq_some.mp stored
    obtain ⟨next, ran, taking, empty, consumed, same⟩ := run_drain dev
      { state with
        rxBuf := rest
        parser := loopBody dev state.parser byte
        consumed := state.consumed ++ [byte] } draining
    refine ⟨next, ?_, taking, empty, ?_, same⟩
    · rw [items, List.length_cons, List.replicate_succ]
      refine run_cons.mpr ⟨_, ?_, ran⟩
      simp only [step, if_pos draining, stored]
    · rw [consumed, items, List.append_assoc, List.singleton_append]
termination_by state.rxBuf.items.length
decreasing_by
  rw [RingBuf.get_eq_some.mp stored]
  simp

/-- After a delivery the parser sleeps again and has consumed what fitted in the ring. -/
theorem run_delivery (dev : Gpio γ) (bytes more : List UInt8) (quiet : newline ∉ bytes) (rest : newline ∉ more)
    (state : State γ) (reading : state.callback = .reading) (taking : state.thread = .taking) :
    ∃ fetches next, run (step dev) (delivery bytes more fetches) state = some next ∧
      next.callback = .reading ∧ next.thread = .taking ∧ next.rxSem.count = 0 ∧ next.rxBuf.items = [] ∧
      next.wire = state.wire ++ (bytes ++ newline :: more) ∧
      next.consumed = state.consumed ++ (state.rxBuf.items ++ (bytes ++ newline :: more)).take 256 := by
  obtain ⟨first, ranFirst, reading, items, wire, kept⟩ := run_reads dev bytes quiet state reading
  let given : State γ := { ringBufPut newline first with rxSem := first.rxSem.give, callback := .reading }
  have ended : run (step dev) [.uartFifoRead (some newline), .kSemGive] first = some given := by
    simp only [run, step, if_pos reading]
    rfl
  obtain ⟨second, ranSecond, reading, itemsMore, wireMore, keptMore⟩ :=
    run_reads dev more rest given rfl
  have one : second.rxSem.count = 1 := by
    rw [keptMore.rxSem]
    have bounded := first.rxSem.bounded
    simp only [given, Sem.give]
    omega
  have sleeps : second.thread = .taking := keptMore.thread.trans (kept.thread.trans taking)
  obtain ⟨rxSem, took⟩ := second.rxSem.exists_take (by omega)
  have counted := Sem.take_eq_some.mp took
  have woken : run (step dev) [.kSemTake] second = some { second with rxSem, thread := .draining } := by
    simp [run, step, sleeps, took]
  obtain ⟨next, ranNext, taking, empty, consumed, callback, left, wireNext⟩ := run_drain dev
    { second with rxSem, thread := .draining } rfl
  have down : rxSem.count = 0 := by omega
  have zero : next.rxSem.count = 0 := by rw [left]; exact down
  refine ⟨_, next, run_trans (run_trans (run_trans (run_trans ranFirst ended) ranSecond) woken) ranNext,
    callback.trans reading, taking, zero, empty, ?_, ?_⟩
  · rw [wireNext]
    simp only [wireMore, given, ringBufPut, wire, List.append_assoc, List.singleton_append]
  · rw [consumed]
    simp only [itemsMore, keptMore.consumed, given, ringBufPut, RingBuf.put_take, items, RingBuf.take_append_take,
      kept.consumed, List.append_assoc, List.singleton_append]

def noise : List UInt8 := List.replicate 250 97

private theorem noise_quiet : newline ∉ noise := by
  rw [noise, List.mem_replicate]
  decide

private theorem noise_proper : noise.length ≤ 254 ∧ 0 ∉ noise := by
  rw [noise, List.length_replicate, List.mem_replicate]
  decide

private theorem noise_cut : (noise ++ newline :: literal "LED Ox").take 256 =
    noise ++ newline :: literal "LED O" := by
  rw [List.take_append, noise, List.length_replicate, List.take_of_length_le]
  · rfl
  · rw [List.length_replicate]
    decide

private theorem ledCommand_noise : ledCommand noise = none := by
  decide +kernel

/-- The host sends `LED OxN`; its `x` finds the ring full, and the LED is switched on. -/
theorem splice_executed : ∃ schedule state,
    run (step workingPin) schedule (boot (.replicate 256 0) 0) = some state ∧
    state.wire = noise ++ newline :: (literal "LED OxN" ++ newline :: []) ∧
    ProperLines state.wire ∧ ledActions state.parser.board.out = [1] ∧ ¬ NoPhantom state := by
  let entered : State Int := { boot (.replicate 256 0) 0 with callback := .reading }
  have enter : run (step workingPin) [.uartCallback true true] (boot (.replicate 256 0) 0) = some entered := rfl
  obtain ⟨_, first, ranFirst, reading, taking, _, empty, wireFirst, consumedFirst⟩ :=
    run_delivery workingPin noise (literal "LED Ox") noise_quiet (by decide) entered rfl rfl
  obtain ⟨_, state, ranSecond, _, _, _, _, wire, consumed⟩ :=
    run_delivery workingPin (literal "N") [] (by decide) (by decide) first reading taking
  have ran := run_trans (run_trans enter ranFirst) ranSecond
  have sent : state.wire = noise ++ newline :: (literal "LED OxN" ++ newline :: []) := by
    rw [wire, wireFirst]
    simp [entered, boot, literal]
  have read : state.consumed = noise ++ newline :: (literal "LED ON" ++ newline :: []) := by
    rw [consumed, consumedFirst, empty]
    simp only [entered, boot, RingBuf.empty_items, List.nil_append, noise_cut, List.append_assoc]
    rfl
  have actions : ledActions state.parser.board.out = [1] := by
    have lines : completeLines state.consumed = [noise, literal "LED ON"] := by
      rw [read, completeLines_cons _ noise_quiet, completeLines_cons _ (by decide)]
      rfl
    rw [(run_handoff ran).parser, ledActions_sequential, ledCommands, lines]
    · simp only [List.filterMap_cons, ledCommand_noise]
      decide
    · rw [lines]
      simp only [List.forall_mem_cons]
      exact ⟨noise_proper.1, by decide⟩
  have commands : ledCommands state.wire = [] := by
    rw [ledCommands, sent, completeLines_cons _ noise_quiet, completeLines_cons _ (by decide),
      List.filterMap_cons, ledCommand_noise]
    decide
  refine ⟨_, state, ran, sent, ?_, actions, ?_⟩
  · rw [sent, ProperLines, List.splitOn_append_cons_self_of_not_mem noise_quiet,
      List.splitOn_append_cons_self_of_not_mem (by decide)]
    simp only [List.forall_mem_cons]
    exact ⟨noise_proper, by decide, by decide⟩
  · rw [NoPhantom, actions, commands]
    decide

end ZephyrTutorial.Proofs.UartLoad
