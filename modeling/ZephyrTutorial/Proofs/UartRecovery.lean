import ZephyrTutorial.Proofs.UartLoad

/-! One line received while the parser sleeps. The ring keeps its first 256 bytes, so the
newline of a longer line is lost although it wakes the parser, and what is left of the
line goes in front of the next one. -/

namespace ZephyrTutorial.Proofs.UartRecovery
open ZephyrTutorial.Uart Machine Kernel UartEditor UartRefinement UartCommands UartHandoff UartLoad

universe u

variable {γ : Type u} {dev : Gpio γ}

structure Asleep (state : State γ) : Prop where
  taking : state.thread = .taking
  zero : state.rxSem.count = 0
  empty : state.rxBuf.items = []
  settled : state.callback ≠ .giving

/-- Between two sleeps of the parser exactly this line arrives. -/
structure Receives (dev : Gpio γ) (line : List UInt8) (before after : State γ) : Prop where
  ran : ∃ schedule, run (step dev) schedule before = some after
  wire : after.wire = before.wire ++ (line ++ [newline])
  asleep : Asleep after

def calls (before after : State γ) : List Output :=
  after.parser.board.out.drop before.parser.board.out.length

/-- The bytes since `origin`: the parser sleeps until their newline, and then reads what
the ring has kept of them. -/
structure Arriving (dev : Gpio γ) (origin state : State γ) (sent : List UInt8) : Prop where
  wire : state.wire = origin.wire ++ sent
  waiting : newline ∉ sent → state.thread = .taking ∧ state.rxSem.count = 0 ∧ state.callback ≠ .giving ∧
    state.parser = origin.parser ∧ state.rxBuf.items = sent.take 256
  ended : ∀ line, newline ∉ line → sent = line ++ [newline] → ∃ eaten,
    state.parser = sequential dev origin.parser eaten ∧ eaten ++ state.rxBuf.items = sent.take 256

private theorem arriving_start {origin : State γ} (asleep : Asleep origin) : Arriving dev origin origin [] :=
  ⟨by simp, fun _ => ⟨asleep.taking, asleep.zero, asleep.settled, rfl, asleep.empty⟩,
    fun _ _ impossible => by simp at impossible⟩

private theorem put_arriving {origin state : State γ} {sent : List UInt8} (byte : UInt8)
    (arriving : Arriving dev origin state sent) :
    Arriving dev origin (ringBufPut byte state) (sent ++ [byte]) := by
  obtain ⟨wire, waiting, _⟩ := arriving
  have filled (items : state.rxBuf.items = sent.take 256) :
      (ringBufPut byte state).rxBuf.items = (sent ++ [byte]).take 256 := by
    simp only [ringBufPut, RingBuf.put_take, items, RingBuf.take_append_take]
  refine ⟨?_, ?_, ?_⟩
  · simp [ringBufPut, wire]
  · intro quiet
    simp only [List.mem_append, List.mem_singleton, not_or] at quiet
    obtain ⟨taking, zero, _, parser, items⟩ := waiting quiet.1
    exact ⟨taking, zero, by simp [ringBufPut, Ne.symm quiet.2], parser, filled items⟩
  · intro line quiet same
    obtain ⟨rfl, _⟩ := List.append_inj' same rfl
    obtain ⟨_, _, _, parser, items⟩ := waiting quiet
    exact ⟨[], parser, filled items⟩

private theorem step_arriving {origin : State γ} (event : Event) (state next : State γ)
    (kept : ∃ sent, Arriving dev origin state sent) (taken : step dev event state = some next) :
    ∃ sent, Arriving dev origin next sent := by
  obtain ⟨sent, arriving⟩ := kept
  cases step_took taken with
  | enter update rxReady idle =>
    refine ⟨sent, arriving.wire, ?_, arriving.ended⟩
    intro quiet
    obtain ⟨taking, zero, _, rest⟩ := arriving.waiting quiet
    refine ⟨taking, zero, ?_, rest⟩
    change (if update && rxReady then Callback.reading else .idle) ≠ .giving
    split <;> decide
  | leave reading =>
    refine ⟨sent, arriving.wire, ?_, arriving.ended⟩
    intro quiet
    obtain ⟨taking, zero, _, rest⟩ := arriving.waiting quiet
    exact ⟨taking, zero, by simp, rest⟩
  | put byte reading => exact ⟨_, put_arriving byte arriving⟩
  | give giving =>
    exact ⟨sent, arriving.wire, fun quiet => absurd giving (arriving.waiting quiet).2.2.1, arriving.ended⟩
  | take taking counted =>
    refine ⟨sent, arriving.wire, ?_, arriving.ended⟩
    intro quiet
    have zero := (arriving.waiting quiet).2.1
    omega
  | drained draining empty =>
    refine ⟨sent, arriving.wire, ?_, arriving.ended⟩
    intro quiet
    exact absurd (draining.symm.trans (arriving.waiting quiet).1) (by decide)
  | @fetch _ byte _ draining stored =>
    refine ⟨sent, arriving.wire, ?_, ?_⟩
    · intro quiet
      exact absurd (draining.symm.trans (arriving.waiting quiet).1) (by decide)
    · intro line quiet same
      obtain ⟨eaten, parser, order⟩ := arriving.ended line quiet same
      refine ⟨eaten ++ [byte], ?_, ?_⟩
      · simp only [sequential, List.foldl_append, List.foldl_cons, List.foldl_nil]
        rw [parser]
        rfl
      · rw [← order, stored, List.append_assoc, List.singleton_append]

/-- The parser has seen the first 256 bytes of the line and its newline. -/
private theorem parser_at_rest {line : List UInt8} {before after : State γ} (asleep : Asleep before)
    (quiet : newline ∉ line) (received : Receives dev line before after) :
    after.parser = sequential dev before.parser ((line ++ [newline]).take 256) := by
  obtain ⟨schedule, ran⟩ := received.ran
  have last : ∃ sent, Arriving dev before after sent :=
    invariant step_arriving ⟨[], arriving_start asleep⟩ ran
  obtain ⟨sent, arriving⟩ := last
  have same : sent = line ++ [newline] :=
    List.append_cancel_left (arriving.wire.symm.trans received.wire)
  obtain ⟨eaten, parser, order⟩ := arriving.ended line quiet same
  rw [received.asleep.empty, List.append_nil, same] at order
  rw [parser, order]

theorem exists_receives (dev : Gpio γ) {line : List UInt8} (quiet : newline ∉ line) {before : State γ}
    (asleep : Asleep before) : ∃ after, Receives dev line before after := by
  let entered : State γ := { before with callback := .reading }
  obtain ⟨enter, ranEnter⟩ : ∃ enter, run (step dev) enter before = some entered := by
    cases callback : before.callback with
    | idle => exact ⟨[.uartCallback true true], by simp [run, step, callback, entered]⟩
    | reading => exact ⟨[], by simp only [run, entered, ← callback]⟩
    | giving => exact absurd callback asleep.settled
  obtain ⟨_, after, ran, reading, taking, zero, empty, wire, _⟩ :=
    run_delivery dev line [] quiet (by decide) entered rfl asleep.taking
  exact ⟨after, ⟨_, run_trans ranEnter ran⟩, wire, taking, zero, empty, by rw [reading]; decide⟩

theorem boot_asleep (temp : Vector UInt8 256) (led : γ) : Asleep (boot temp led) :=
  ⟨rfl, rfl, rfl, by simp [boot]⟩

theorem received_calls {line : List UInt8} {before after : State γ} (asleep : Asleep before)
    (fresh : before.parser.idx = 0) (quiet : newline ∉ line) (fits : line.length ≤ 255)
    (received : Receives dev line before after) :
    after.parser.idx = 0 ∧ calls before after = (respond dev before.parser.board.led line).2 := by
  have parser := parser_at_rest asleep quiet received
  rw [List.take_of_length_le (by rw [List.length_append, List.length_singleton]; omega)] at parser
  obtain ⟨idx, board⟩ := sequential_line dev fresh line quiet
  rw [← parser] at idx board
  exact ⟨idx, by rw [calls, board]; exact List.drop_left⟩

/-- The byte that finds the last free place in the ring stays in the parser's line, and the
next line is answered together with it. -/
private theorem joined_calls {bytes next : List UInt8} {origin drained answered : State γ} (asleep : Asleep origin)
    (fresh : origin.parser.idx = 0) (quiet : newline ∉ bytes) (nextQuiet : newline ∉ next)
    (short : next.length ≤ 254) (first : Receives dev bytes origin drained)
    (second : Receives dev next drained answered) {byte : UInt8} (last : bytes[255]? = some byte) :
    ∃ led, calls drained answered = (respond dev led (byte :: next)).2 := by
  obtain ⟨inside, found⟩ := List.getElem?_eq_some_iff.mp last
  have kept : (bytes ++ [newline]).take 256 = bytes.take 255 ++ [byte] := by
    rw [List.take_append_of_le_length (by omega), ← found, List.take_append_getElem]
  have other : byte ≠ newline := fun same => quiet (same ▸ found ▸ List.getElem_mem inside)
  have whole : (next ++ [newline]).take 256 = next ++ [newline] :=
    List.take_of_length_le (by rw [List.length_append, List.length_singleton]; omega)
  -- The first 255 bytes overflow, so the parser stands between two lines when `byte` comes.
  let full := sequential dev origin.parser (bytes.take 255)
  have between : full.idx = 0 := by
    have index := (sequential_unfinished dev fresh (bytes.take 255)
      (fun present => quiet (List.mem_of_mem_take present))).1
    rw [List.length_take, Nat.min_eq_left (by omega)] at index
    exact UInt8.toNat_inj.mp index
  have one : drained.parser = sequential dev full [byte] := by
    rw [parser_at_rest asleep quiet first, kept, sequential_append]
  have both : answered.parser = sequential dev full ((byte :: next) ++ [newline]) := by
    rw [parser_at_rest first.asleep nextQuiet second, whole, one, ← sequential_append]
    rfl
  have silent : drained.parser.board = full.board := by
    rw [one, (sequential_unfinished dev between [byte] (by simpa using Ne.symm other)).2]
    simp
  have answer := (sequential_line dev between (byte :: next) (by simp [Ne.symm other, nextQuiet])).2
  refine ⟨full.board.led, ?_⟩
  rw [calls, silent, both, answer]
  exact List.drop_left

private theorem classify_eq_none {text : List UInt8} : classify text = none ↔ text = [] := by
  unfold classify
  repeat' split
  all_goals simp_all

private theorem spells_length {text : List UInt8} {word : String} (same : spells text word) :
    text.length = (literal word).length := by
  simpa using congrArg List.length same

private theorem classify_length {text : List UInt8} {command : Command} (found : classify text = some command)
    (known : command ≠ .unknown) : text.length = if command = .ledOff then 7 else 6 := by
  simp only [classify] at found
  split at found
  next => cases found
  next =>
    split at found
    next same => cases found; exact spells_length same
    next =>
      split at found
      next same => cases found; exact spells_length same
      next =>
        split at found
        next same => cases found; exact spells_length same
        next => cases found; exact absurd rfl known

private theorem classify_cons {text : List UInt8} (byte : UInt8) :
    classify (byte :: text) = classify text ↔
      classify text = some .unknown ∧ classify (byte :: text) = some .unknown := by
  constructor
  · intro same
    cases found : classify text with
    | none =>
      rw [found, classify_eq_none] at same
      cases same
    | some command =>
      rw [found] at same
      by_cases known : command = .unknown
      · exact ⟨by rw [known], by rw [same, known]⟩
      · have longer := classify_length same known
        rw [List.length_cons, classify_length found known] at longer
        omega
  · rintro ⟨unknown, joined⟩
    rw [unknown, joined]

private theorem stripReturn_cons {line : List UInt8} (byte : UInt8) (nonempty : line ≠ []) :
    stripReturn (byte :: line) = byte :: stripReturn line := by
  rcases List.eq_nil_or_concat' line with rfl | ⟨front, last, rfl⟩
  · exact absurd rfl nonempty
  · rw [← List.cons_append, stripReturn_concat, stripReturn_concat]
    split <;> rfl

def Survives (byte : UInt8) (next : List UInt8) : Prop :=
  next.length ≤ 253 ∧ ((next = [] ∧ byte = carriageReturn) ∨
    (classify (stripReturn next) = some .unknown ∧ classify (byte :: stripReturn next) = some .unknown))

instance (byte : UInt8) (next : List UInt8) : Decidable (Survives byte next) :=
  inferInstanceAs (Decidable (_ ∧ (_ ∧ _ ∨ _ ∧ _)))

private theorem joined_class {byte : UInt8} {next : List UInt8} (nulFree : 0 ∉ byte :: next) :
    classify (lineText (byte :: next)) = classify (lineText next) ↔
      (next = [] ∧ byte = carriageReturn) ∨
        (classify (stripReturn next) = some .unknown ∧ classify (byte :: stripReturn next) = some .unknown) := by
  rw [lineText_nulFree nulFree, lineText_nulFree fun present => nulFree (List.mem_cons_of_mem _ present)]
  by_cases empty : next = []
  · subst empty
    have none : classify (stripReturn []) = none := rfl
    rw [none, classify_eq_none]
    by_cases returned : byte = carriageReturn
    · simp [stripReturn, returned]
    · simp [stripReturn, returned]
  · rw [stripReturn_cons byte empty, classify_cons]
    simp [empty]

/-- The answer to the joined line looks like the answer to the line alone exactly when the
line survives. -/
private theorem joined_shape {δ : Type u} (other : Gpio δ) (led : γ) (pin : δ) {byte : UInt8} {next : List UInt8}
    (nulFree : 0 ∉ byte :: next) (short : next.length ≤ 254) :
    (respond dev led (byte :: next)).2.map Output.shape = (reply other pin next).2.map Output.shape ↔
      Survives byte next := by
  rw [reply_shape other pin next]
  by_cases room : next.length ≤ 253
  · rw [respond_short dev led (by rw [List.length_cons]; omega), reply_shape, Survives,
      ← joined_class nulFree]
    exact ⟨fun same => ⟨room, commandShape_injective same⟩, fun both => congrArg commandShape both.2⟩
  · have full : (byte :: next).length = 255 := by rw [List.length_cons]; omega
    have notice : (respond dev led (byte :: next)).2.map Output.shape =
        [.uartSendString .bufferOverflow, .uartSendString .prompt] := by
      have tail : lineTail (byte :: next) = [] :=
        List.eq_nil_of_length_eq_zero (by rw [lineTail_length, full])
      rw [respond, tail, full]
      rfl
    rw [notice, Survives]
    constructor
    · intro same
      generalize classify (lineText next) = answered at same
      rcases answered with _ | _ | _ | _ | _ <;> exact absurd same (by decide)
    · intro both
      exact absurd both.1 room

/-- After the first line the next one is answered as it would be right after boot, except
for what the driver reports. -/
def Recovers (dev : Gpio γ) (origin : State γ) (line next : List UInt8) : Prop :=
  ∀ drained answered, Receives dev line origin drained → Receives dev next drained answered →
    ∀ temp led first, Receives dev next (boot temp led) first →
      (calls drained answered).map Output.shape = (calls (boot temp led) first).map Output.shape

private theorem first_calls {next : List UInt8} (quiet : newline ∉ next) (short : next.length ≤ 254)
    (temp : Vector UInt8 256) (led : γ) (first : State γ) (received : Receives dev next (boot temp led) first) :
    calls (boot temp led) first = (reply dev led next).2 := by
  rw [(received_calls (boot_asleep temp led) rfl quiet (by omega) received).2, respond_short dev _ short]
  rfl

/-- An overlong line leaves the next one alone exactly when it has 255 bytes, so that its
newline still fits in the ring, or when the next line survives its 256th byte. -/
theorem recovery_iff (dev : Gpio γ) (origin : State γ) (asleep : Asleep origin)
    (fresh : origin.parser.idx = 0) (bytes next : List UInt8) (overlong : 254 < bytes.length)
    (quiet : newline ∉ bytes) (nulFree : 0 ∉ bytes) (short : next.length ≤ 254)
    (nextQuiet : newline ∉ next) (nextNulFree : 0 ∉ next) :
    Recovers dev origin bytes next ↔
      bytes.length = 255 ∨ ∃ byte, bytes[255]? = some byte ∧ Survives byte next := by
  by_cases fits : bytes.length = 255
  · -- The ring holds the whole line and the parser stands between two lines afterwards.
    refine ⟨fun _ => .inl fits, fun _ => ?_⟩
    intro drained answered first second temp led fromBoot received
    have between := (received_calls asleep fresh quiet (by omega) first).1
    rw [(received_calls first.asleep between nextQuiet (by omega) second).2, respond_short dev _ short,
      first_calls nextQuiet short temp led fromBoot received, reply_shape, reply_shape]
  · have long : 255 < bytes.length := by omega
    obtain ⟨byte, last⟩ : ∃ byte, bytes[255]? = some byte := ⟨_, List.getElem?_eq_getElem long⟩
    have member : byte ∈ bytes := List.mem_of_getElem? last
    have joinedFree : 0 ∉ byte :: next := by
      rw [List.mem_cons, not_or]
      exact ⟨fun same => nulFree (same ▸ member), nextNulFree⟩
    constructor
    · intro recovers
      obtain ⟨drained, first⟩ := exists_receives dev quiet asleep
      obtain ⟨answered, second⟩ := exists_receives dev nextQuiet first.asleep
      obtain ⟨fromBoot, received⟩ := exists_receives dev nextQuiet
        (boot_asleep origin.parser.temp origin.parser.board.led)
      obtain ⟨led, joined⟩ := joined_calls asleep fresh quiet nextQuiet short first second last
      have same := recovers drained answered first second _ _ fromBoot received
      rw [joined, first_calls nextQuiet short _ _ fromBoot received] at same
      exact .inr ⟨byte, last, (joined_shape dev led _ joinedFree short).mp same⟩
    · rintro (fits' | ⟨other, found, survives⟩)
      · exact absurd fits' fits
      · cases last.symm.trans found
        intro drained answered first second temp led fromBoot received
        obtain ⟨pin, joined⟩ := joined_calls asleep fresh quiet nextQuiet short first second last
        rw [joined, first_calls nextQuiet short temp led fromBoot received]
        exact (joined_shape dev pin led joinedFree short).mpr survives

theorem recovery_status :
    Recovers workingPin (boot (.replicate 256 0) 0) (List.replicate 255 120) (literal "STATUS") ↔
      (List.replicate 255 (120 : UInt8)).length = 255 ∨
        ∃ byte, (List.replicate 255 (120 : UInt8))[255]? = some byte ∧ Survives byte (literal "STATUS") :=
  recovery_iff workingPin _ (boot_asleep _ 0) rfl _ _ (by rw [List.length_replicate]; decide)
    (by rw [List.mem_replicate]; decide) (by rw [List.mem_replicate]; decide) (by decide) (by decide) (by decide)

theorem stale_byte_refused :
    (∃ drained answered first,
      Receives workingPin (List.replicate 256 120) (boot (.replicate 256 0) 0) drained ∧
      Receives workingPin (literal "LED ON") drained answered ∧
      Receives workingPin (literal "LED ON") (boot (.replicate 256 0) 0) first ∧
      calls drained answered = [.uartSendString .unknownCommand, .uartSendString .prompt] ∧
      calls (boot (.replicate 256 0) 0) first =
        [.gpioPinSetDt 1 0, .uartSendString .ledNowOn, .uartSendString .prompt]) ∧
    ¬ Recovers workingPin (boot (.replicate 256 0) 0) (List.replicate 256 120) (literal "LED ON") := by
  have quiet : newline ∉ List.replicate 256 (120 : UInt8) := by rw [List.mem_replicate]; decide
  have last : (List.replicate 256 (120 : UInt8))[255]? = some 120 := by
    rw [List.getElem?_replicate, if_pos (by decide)]
  have asleep := boot_asleep (.replicate 256 0) (0 : Int)
  obtain ⟨drained, one⟩ := exists_receives workingPin quiet asleep
  obtain ⟨answered, two⟩ := exists_receives workingPin (show newline ∉ literal "LED ON" by decide) one.asleep
  obtain ⟨first, received⟩ := exists_receives workingPin (show newline ∉ literal "LED ON" by decide) asleep
  obtain ⟨led, joined⟩ := joined_calls asleep rfl quiet (by decide) (by decide) one two last
  have refused : calls drained answered = [.uartSendString .unknownCommand, .uartSendString .prompt] := joined
  have obeyed : calls (boot (.replicate 256 0) 0) first =
      [.gpioPinSetDt 1 0, .uartSendString .ledNowOn, .uartSendString .prompt] :=
    first_calls (by decide) (by decide) _ 0 first received
  refine ⟨⟨drained, answered, first, one, two, received, refused, obeyed⟩, ?_⟩
  intro recovers
  have same := recovers drained answered one two _ _ first received
  rw [refused, obeyed] at same
  exact absurd same (by decide)

end ZephyrTutorial.Proofs.UartRecovery
