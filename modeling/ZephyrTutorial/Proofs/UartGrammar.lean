import ZephyrTutorial.Proofs.UartCommands

/-! Which texts are commands. The comparison stops at the first NUL of a line, so the
grammar of the command table is met by every text without one and by few others. -/

namespace ZephyrTutorial.Proofs.UartGrammar
open ZephyrTutorial.Uart CString UartEditor UartCommands

universe u

variable {γ : Type u}

/-- The calls answer the whole text of the line as the command table does. -/
structure MeetsTable (line : List UInt8) (calls : List Output) : Prop where
  on : (∃ ret, .gpioPinSetDt 1 ret ∈ calls) ↔ spells (stripReturn line) "LED ON"
  off : (∃ ret, .gpioPinSetDt 0 ret ∈ calls) ↔ spells (stripReturn line) "LED OFF"
  status : (.uartSendString .stateActive ∈ calls ∨ .uartSendString .stateInactive ∈ calls) ↔
    spells (stripReturn line) "STATUS"
  other : stripReturn line ≠ [] → ¬ Executes (stripReturn line) → .uartSendString .unknownCommand ∈ calls

private theorem sets_iff_shape (value : Int) {calls : List Output} :
    (∃ ret, .gpioPinSetDt value ret ∈ calls) ↔ .gpioPinSetDt value 0 ∈ calls.map Output.shape := by
  rw [List.mem_map]
  constructor
  · rintro ⟨ret, member⟩
    exact ⟨_, member, rfl⟩
  · rintro ⟨call, member, same⟩
    cases call with
    | gpioPinSetDt level ret => cases same; exact ⟨ret, member⟩
    | gpioPinGetDt ret => cases same
    | uartSendString text => cases text <;> cases same

private theorem reports_iff_shape {calls : List Output} :
    (.uartSendString .stateActive ∈ calls ∨ .uartSendString .stateInactive ∈ calls) ↔
      .uartSendString .stateInactive ∈ calls.map Output.shape := by
  rw [List.mem_map]
  constructor
  · rintro (member | member) <;> exact ⟨_, member, rfl⟩
  · rintro ⟨call, member, same⟩
    cases call with
    | gpioPinSetDt level ret => cases same
    | gpioPinGetDt ret => cases same
    | uartSendString text =>
      cases text with
      | stateActive => exact .inl member
      | stateInactive => exact .inr member
      | _ => cases same

private theorem refuses_iff_shape {calls : List Output} :
    .uartSendString .unknownCommand ∈ calls ↔ .uartSendString .unknownCommand ∈ calls.map Output.shape := by
  rw [List.mem_map]
  constructor
  · intro member
    exact ⟨_, member, rfl⟩
  · rintro ⟨call, member, same⟩
    cases call with
    | gpioPinSetDt level ret => cases same
    | gpioPinGetDt ret => cases same
    | uartSendString text =>
      cases text with
      | unknownCommand => exact member
      | _ => cases same

/-- A text spells one word at most, since no two of the words agree. -/
private theorem spells_unique {text : List UInt8} {first second : String}
    (differ : (literal first).map tolower ≠ (literal second).map tolower) (one : spells text first) :
    ¬ spells text second :=
  fun two => differ (one.symm.trans two)

private theorem ne_nil_of_spells {text : List UInt8} {word : String} (filled : literal word ≠ [])
    (spelled : spells text word) : text ≠ [] := by
  rintro rfl
  exact filled (List.map_eq_nil_iff.mp spelled.symm)

private theorem classify_on {text : List UInt8} : classify text = some .ledOn ↔ spells text "LED ON" := by
  unfold classify
  by_cases on : spells text "LED ON"
  · simp [on, ne_nil_of_spells (by decide) on]
  · simp only [on, if_false, iff_false]
    split_ifs <;> nofun

private theorem classify_off {text : List UInt8} : classify text = some .ledOff ↔ spells text "LED OFF" := by
  unfold classify
  by_cases off : spells text "LED OFF"
  · have notOn : ¬ spells text "LED ON" := spells_unique (by decide) off
    simp [off, notOn, ne_nil_of_spells (by decide) off]
  · simp only [off, if_false, iff_false]
    split_ifs <;> nofun

private theorem classify_status {text : List UInt8} : classify text = some .status ↔ spells text "STATUS" := by
  unfold classify
  by_cases status : spells text "STATUS"
  · have notOn : ¬ spells text "LED ON" := spells_unique (by decide) status
    have notOff : ¬ spells text "LED OFF" := spells_unique (by decide) status
    simp [status, notOn, notOff, ne_nil_of_spells (by decide) status]
  · simp only [status, if_false, iff_false]
    split_ifs <;> nofun

private theorem classify_unknown {text : List UInt8} :
    classify text = some .unknown ↔ text ≠ [] ∧ ¬ Executes text := by
  unfold classify Executes
  by_cases empty : text = []
  · simp [empty]
  · by_cases on : spells text "LED ON"
    · simp [empty, on]
    · by_cases off : spells text "LED OFF"
      · simp [empty, on, off]
      · by_cases status : spells text "STATUS" <;> simp [empty, on, off, status]

/-- A short line is answered by the calls that its command text, cut at a NUL, is owed. -/
private theorem line_shape (dev : Gpio γ) {parser : Parser γ} (fresh : parser.idx = 0) {line : List UInt8}
    (quiet : newline ∉ line) (short : line.length ≤ 254) :
    (callsWhile dev parser (line ++ [newline])).map Output.shape = commandShape (classify (lineText line)) := by
  rw [callsWhile, (sequential_line dev fresh line quiet).2, List.drop_left, respond_short dev _ short]
  exact reply_shape dev _ line

private theorem shape_meets_iff {line : List UInt8} {calls : List Output}
    (shape : calls.map Output.shape = commandShape (classify (lineText line))) :
    MeetsTable line calls ↔
      (spells (lineText line) "LED ON" ↔ spells (stripReturn line) "LED ON") ∧
      (spells (lineText line) "LED OFF" ↔ spells (stripReturn line) "LED OFF") ∧
      (spells (lineText line) "STATUS" ↔ spells (stripReturn line) "STATUS") ∧
      (stripReturn line ≠ [] → ¬ Executes (stripReturn line) → lineText line ≠ [] ∧ ¬ Executes (lineText line)) := by
  have on : (∃ ret, .gpioPinSetDt 1 ret ∈ calls) ↔ spells (lineText line) "LED ON" := by
    rw [sets_iff_shape, shape, ← classify_on]
    rcases classify (lineText line) with _ | _ | _ | _ | _ <;> simp [commandShape]
  have off : (∃ ret, .gpioPinSetDt 0 ret ∈ calls) ↔ spells (lineText line) "LED OFF" := by
    rw [sets_iff_shape, shape, ← classify_off]
    rcases classify (lineText line) with _ | _ | _ | _ | _ <;> simp [commandShape]
  have status : (.uartSendString .stateActive ∈ calls ∨ .uartSendString .stateInactive ∈ calls) ↔
      spells (lineText line) "STATUS" := by
    rw [reports_iff_shape, shape, ← classify_status]
    rcases classify (lineText line) with _ | _ | _ | _ | _ <;> simp [commandShape]
  have other : .uartSendString .unknownCommand ∈ calls ↔ lineText line ≠ [] ∧ ¬ Executes (lineText line) := by
    rw [refuses_iff_shape, shape, ← classify_unknown]
    rcases classify (lineText line) with _ | _ | _ | _ | _ <;> simp [commandShape]
  constructor
  · intro meets
    exact ⟨on.symm.trans meets.on, off.symm.trans meets.off, status.symm.trans meets.status,
      fun nonempty refused => other.mp (meets.other nonempty refused)⟩
  · rintro ⟨sameOn, sameOff, sameStatus, refuses⟩
    exact ⟨on.trans sameOn, off.trans sameOff, status.trans sameStatus,
      fun nonempty refused => other.mpr (refuses nonempty refused)⟩

private theorem spells_nulFree {text : List UInt8} {word : String} (nulFree : 0 ∉ (literal word).map tolower)
    (spelled : spells text word) : 0 ∉ text := by
  intro present
  apply nulFree
  rw [← spelled]
  exact List.mem_map.mpr ⟨0, present, tolower_nul⟩

/-- No command has a NUL, so a text with one is none of them. -/
private theorem not_executes_of_nul {text : List UInt8} (nul : 0 ∈ text) : ¬ Executes text := by
  rintro (on | off | status)
  · exact spells_nulFree (by decide) on nul
  · exact spells_nulFree (by decide) off nul
  · exact spells_nulFree (by decide) status nul

/-- The table is met exactly by the texts without a NUL and by those whose part before the
first NUL is not empty and no command either. -/
theorem grammar_iff (dev : Gpio γ) (parser : Parser γ) (line : List UInt8) (fresh : parser.idx = 0)
    (quiet : newline ∉ line) (short : line.length ≤ 254) :
    MeetsTable line (callsWhile dev parser (line ++ [newline])) ↔
      0 ∉ stripReturn line ∨
        contents (stripReturn line) ≠ [] ∧ ¬ Executes (contents (stripReturn line)) := by
  rw [shape_meets_iff (line_shape dev fresh quiet short)]
  by_cases nul : 0 ∈ stripReturn line
  · have refused := not_executes_of_nul nul
    have nonempty : stripReturn line ≠ [] := List.ne_nil_of_mem nul
    have noCommand := not_or.mp refused
    simp only [nul, not_true_eq_false, false_or, noCommand.1, (not_or.mp noCommand.2).1,
      (not_or.mp noCommand.2).2, iff_false, nonempty, ne_eq, not_false_eq_true, refused, forall_const, lineText]
    constructor
    · rintro ⟨_, _, _, unknown⟩
      exact unknown
    · intro unknown
      have absent := not_or.mp unknown.2
      exact ⟨absent.1, (not_or.mp absent.2).1, (not_or.mp absent.2).2, unknown⟩
  · have whole : lineText line = stripReturn line := contents_of_nulFree nul
    rw [whole]
    exact iff_of_true ⟨Iff.rfl, Iff.rfl, Iff.rfl, And.intro⟩ (.inl nul)

theorem grammar_iff_led_on :
    (Parser.start (.replicate 256 0) (0 : Int)).idx = 0 ∧ newline ∉ literal "led on\r" ∧
      (literal "led on\r").length ≤ 254 ∧
      (MeetsTable (literal "led on\r")
          (callsWhile workingPin (.start (.replicate 256 0) 0) (literal "led on\r" ++ [newline])) ↔
        0 ∉ stripReturn (literal "led on\r") ∨ contents (stripReturn (literal "led on\r")) ≠ [] ∧
          ¬ Executes (contents (stripReturn (literal "led on\r")))) :=
  ⟨rfl, by decide, by decide,
    grammar_iff workingPin (.start (.replicate 256 0) 0) (literal "led on\r") rfl (by decide) (by decide)⟩

/-- The command ends at a NUL, and what follows it is ignored. -/
def hiddenTail : List UInt8 := literal "LED ON" ++ [0, 120]

theorem hidden_tail_accepted :
    newline ∉ hiddenTail ∧ hiddenTail.length ≤ 254 ∧
    callsWhile workingPin (.start (.replicate 256 0) 0) (hiddenTail ++ [newline]) =
      [.gpioPinSetDt 1 0, .uartSendString .ledNowOn, .uartSendString .prompt] ∧
    ¬ MeetsTable hiddenTail (callsWhile workingPin (.start (.replicate 256 0) 0) (hiddenTail ++ [newline])) := by
  refine ⟨by decide, by decide, by decide +kernel, fun meets => ?_⟩
  have shape := line_shape workingPin (show (Parser.start (.replicate 256 0) (0 : Int)).idx = 0 from rfl)
    (show newline ∉ hiddenTail by decide) (by decide)
  exact absurd ((shape_meets_iff shape).mp meets).1 (by decide)

end ZephyrTutorial.Proofs.UartGrammar
