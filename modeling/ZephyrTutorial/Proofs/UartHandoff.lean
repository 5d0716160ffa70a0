import ZephyrTutorial.Proofs.UartRefinement

/-! The handoff between the interrupt and the parser thread. Each step moves bytes along
one way only, and no newline is left in the ring of a thread that sleeps for good. -/

namespace ZephyrTutorial.Proofs.UartHandoff
open ZephyrTutorial.Uart Machine Kernel UartRefinement

universe u

variable {γ : Type u} {dev : Gpio γ}

/-- All that a step can do, with the condition under which it does it. -/
inductive Took (dev : Gpio γ) : Event → State γ → State γ → Prop
  | enter {state} (update rxReady : Bool) (idle : state.callback = .idle) :
      Took dev (.uartCallback update rxReady) state
        { state with callback := if update && rxReady then .reading else .idle }
  | leave {state} (reading : state.callback = .reading) :
      Took dev (.uartFifoRead none) state { state with callback := .idle }
  | put {state} (byte : UInt8) (reading : state.callback = .reading) :
      Took dev (.uartFifoRead (some byte)) state (ringBufPut byte state)
  | give {state} (giving : state.callback = .giving) :
      Took dev .kSemGive state { state with rxSem := state.rxSem.give, callback := .reading }
  | take {state rxSem} (taking : state.thread = .taking) (counted : state.rxSem.count = rxSem.count + 1) :
      Took dev .kSemTake state { state with rxSem, thread := .draining }
  | drained {state} (draining : state.thread = .draining) (empty : state.rxBuf.items = []) :
      Took dev .ringBufGet state { state with thread := .taking }
  | fetch {state byte rxBuf} (draining : state.thread = .draining)
      (stored : state.rxBuf.items = byte :: rxBuf.items) :
      Took dev .ringBufGet state
        { state with rxBuf, parser := loopBody dev state.parser byte, consumed := state.consumed ++ [byte] }

theorem step_took {event : Event} {state next : State γ} (taken : step dev event state = some next) :
    Took dev event state next := by
  cases event with
  | uartCallback update rxReady =>
    simp only [step] at taken
    split at taken
    next idle => cases taken; exact .enter update rxReady idle
    next => cases taken
  | uartFifoRead byte =>
    cases byte with
    | none =>
      simp only [step] at taken
      split at taken
      next reading => cases taken; exact .leave reading
      next => cases taken
    | some byte =>
      simp only [step] at taken
      split at taken
      next reading => cases taken; exact .put byte reading
      next => cases taken
  | kSemGive =>
    simp only [step] at taken
    split at taken
    next giving => cases taken; exact .give giving
    next => cases taken
  | kSemTake =>
    simp only [step] at taken
    split at taken
    next taking =>
      obtain ⟨rxSem, counted, rfl⟩ := Option.map_eq_some_iff.mp taken
      exact .take taking (Sem.take_eq_some.mp counted)
    next => cases taken
  | ringBufGet =>
    simp only [step] at taken
    split at taken
    next draining =>
      split at taken
      next empty => cases taken; exact .drained draining (RingBuf.get_eq_none.mp empty)
      next byte rxBuf stored => cases taken; exact .fetch draining (RingBuf.get_eq_some.mp stored)
    next => cases taken

/-- The bytes of the ring are those accepted and not yet consumed, the parser has seen
exactly the consumed ones, and a newline in the ring will wake it. -/
structure Handoff (dev : Gpio γ) (start : Parser γ) (state : State γ) : Prop where
  order : state.consumed ++ state.rxBuf.items = state.accepted
  parser : state.parser = sequential dev start state.consumed
  awake : newline ∈ state.rxBuf.items → state.thread = .taking → state.callback ≠ .giving →
    state.rxSem.count ≠ 0

theorem boot_handoff (temp : Vector UInt8 256) (led : γ) :
    Handoff dev (.start temp led) (boot temp led) := ⟨rfl, rfl, fun absent => by cases absent⟩

private theorem put_order (byte : UInt8) {state : State γ}
    (order : state.consumed ++ state.rxBuf.items = state.accepted) :
    (ringBufPut byte state).consumed ++ (ringBufPut byte state).rxBuf.items =
      (ringBufPut byte state).accepted := by
  simp only [ringBufPut]
  rw [RingBuf.put_items, ← List.append_assoc, order]

theorem step_handoff (start : Parser γ) (event : Event) (state next : State γ)
    (kept : Handoff dev start state) (taken : step dev event state = some next) :
    Handoff dev start next := by
  obtain ⟨order, parser, awake⟩ := kept
  cases step_took taken with
  | enter update rxReady idle =>
    exact ⟨order, parser, fun present taking _ => awake present taking (by rw [idle]; decide)⟩
  | leave reading =>
    exact ⟨order, parser, fun present taking _ => awake present taking (by rw [reading]; decide)⟩
  | put byte reading =>
    refine ⟨put_order byte order, parser, ?_⟩
    intro present taking notGiving
    -- A newline announces itself with the give that is still due.
    have other : byte ≠ newline := fun same => notGiving (by simp [ringBufPut, same])
    apply awake _ taking (by rw [reading]; decide)
    simp only [ringBufPut, RingBuf.put_items, List.mem_append] at present
    rcases present with present | added
    · exact present
    · split at added
      · exact absurd (List.mem_singleton.mp added).symm other
      · cases added
  | give giving =>
    exact ⟨order, parser, fun _ _ _ => Nat.ne_of_gt (Sem.give_pos _ (by decide))⟩
  | take taking counted =>
    exact ⟨order, parser, fun _ impossible => by cases impossible⟩
  | drained draining empty =>
    exact ⟨order, parser, fun present => by rw [empty] at present; cases present⟩
  | fetch draining stored =>
    refine ⟨?_, ?_, ?_⟩
    · rw [← order, stored]
      simp
    · simp only [sequential, List.foldl_append, List.foldl_cons, List.foldl_nil]
      rw [parser]
      rfl
    · intro _ impossible
      exact absurd (draining.symm.trans impossible) (by decide)

theorem run_handoff {temp : Vector UInt8 256} {led : γ} {schedule : List Event} {state : State γ}
    (ran : run (step dev) schedule (boot temp led) = some state) :
    Handoff dev (.start temp led) state :=
  invariant (step_handoff _) (boot_handoff temp led) ran

def reads (bytes : List UInt8) : List Event := bytes.map fun byte => .uartFifoRead (some byte)

/-- The rest of a line and a part of the next one arrive before the parser wakes up and
makes `fetches` passes through its inner loop. -/
def delivery (bytes more : List UInt8) (fetches : Nat) : List Event :=
  reads bytes ++ [.uartFifoRead (some newline), .kSemGive] ++ reads more ++
    [.kSemTake] ++ List.replicate fetches .ringBufGet

private theorem agree {first second : Parser γ} {editor : Editor γ} (left : Refines first editor)
    (right : Refines second editor) :
    first.idx = second.idx ∧
      first.temp.toList.take first.idx.toNat = second.temp.toList.take first.idx.toNat ∧
      first.board = second.board := by
  refine ⟨UInt8.toNat_inj.mp (left.idx.trans right.idx.symm), ?_, left.board.trans right.board.symm⟩
  rw [left.idx, left.temp, right.temp]

private theorem read_accepted {state next : State γ} {byte : UInt8}
    (taken : step dev (.uartFifoRead (some byte)) state = some next) :
    next.wire = state.wire ++ [byte] ∧
      next.accepted = state.accepted ++ if state.rxBuf.items.length < 256 then [byte] else [] := by
  cases step_took taken with
  | put _ reading =>
    refine ⟨rfl, ?_⟩
    by_cases room : state.rxBuf.items.length < 256
    · simp only [ringBufPut, (RingBuf.put_room byte room).1, if_true, if_pos room]
    · simp only [ringBufPut, RingBuf.put_full byte room, if_neg room]
      rfl

/-- Under every interleaving, also when the ring overflows: consumed and stored bytes are
the accepted ones in order, the parser is where a sequential run over the consumed bytes
would be (from whatever is in `temp`), and a parser that sleeps has no newline to wait for. A
byte that is read is accepted exactly when the ring has room for it. -/
theorem handoff (dev : Gpio γ) (temp other : Vector UInt8 256) (led : γ) (schedule : List Event)
    (state : State γ) (ran : run (step dev) schedule (boot temp led) = some state) :
    state.consumed ++ state.rxBuf.items = state.accepted ∧
    (state.parser.idx = (sequential dev (.start other led) state.consumed).idx ∧
      state.parser.temp.toList.take state.parser.idx.toNat =
        (sequential dev (.start other led) state.consumed).temp.toList.take state.parser.idx.toNat ∧
      state.parser.board = (sequential dev (.start other led) state.consumed).board) ∧
    (state.thread = .taking → state.rxSem.count = 0 → state.callback ≠ .giving →
      newline ∉ state.rxBuf.items ∧
        state.consumed.count newline = state.accepted.count newline) ∧
    ∀ byte next, step dev (.uartFifoRead (some byte)) state = some next →
      next.wire = state.wire ++ [byte] ∧
        next.accepted = state.accepted ++ if state.rxBuf.items.length < 256 then [byte] else [] := by
  obtain ⟨order, parser, awake⟩ := run_handoff ran
  refine ⟨order, ?_, ?_, fun byte next taken => read_accepted taken⟩
  · rw [parser]
    exact agree (sequential_refines dev (start_refines temp led) state.consumed)
      (sequential_refines dev (start_refines other led) state.consumed)
  · intro taking zero notGiving
    have absent : newline ∉ state.rxBuf.items := fun present => awake present taking notGiving zero
    refine ⟨absent, ?_⟩
    rw [← order, List.count_append, List.count_eq_zero_of_not_mem absent, Nat.add_zero]

theorem handoff_line : ∃ state : State Int,
    run (step workingPin) [.uartCallback true true, .uartFifoRead (some 72), .uartFifoRead (some newline),
      .kSemGive, .uartFifoRead none, .kSemTake, .ringBufGet] (boot (.replicate 256 0) 0) = some state ∧
    state.consumed ++ state.rxBuf.items = state.accepted := by
  obtain ⟨state, ran⟩ : ∃ state, run (step workingPin) [.uartCallback true true, .uartFifoRead (some 72),
      .uartFifoRead (some newline), .kSemGive, .uartFifoRead none, .kSemTake, .ringBufGet]
      (boot (.replicate 256 0) 0) = some state := ⟨_, rfl⟩
  exact ⟨state, ran, (handoff workingPin _ (.replicate 256 0) 0 _ state ran).1⟩

end ZephyrTutorial.Proofs.UartHandoff
