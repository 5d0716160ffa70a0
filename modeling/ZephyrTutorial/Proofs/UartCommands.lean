import ZephyrTutorial.Proofs.UartEditor
import ZephyrTutorial.Proofs.UartRefinement

/-! What a line makes the parser do. Every line is answered by `respond`, so a short line
by itself and an overlong line by its tail. -/

namespace ZephyrTutorial.Proofs.UartCommands
open ZephyrTutorial.Uart CString UartEditor UartRefinement

universe u

variable {γ : Type u} (dev : Gpio γ)

theorem sequential_append (parser : Parser γ) (first rest : List UInt8) :
    sequential dev parser (first ++ rest) = sequential dev (sequential dev parser first) rest :=
  List.foldl_append

private theorem fresh_refines {parser : Parser γ} (fresh : parser.idx = 0) :
    Refines parser ⟨[], Nat.zero_le _, parser.board⟩ := ⟨by rw [fresh]; rfl, rfl, rfl⟩

private theorem refines_fresh {parser : Parser γ} {editor : Editor γ} (refined : Refines parser editor)
    (fresh : editor.line = []) : parser.idx = 0 := by
  rw [← UInt8.toNat_inj, refined.idx, fresh]
  rfl

/-- A parser between two lines answers the next one by `respond` and is between two lines
again, whatever `temp` holds. -/
theorem sequential_line {parser : Parser γ} (fresh : parser.idx = 0) (line : List UInt8)
    (quiet : newline ∉ line) :
    (sequential dev parser (line ++ [newline])).idx = 0 ∧
      (sequential dev parser (line ++ [newline])).board =
        ⟨(respond dev parser.board.led line).1, parser.board.out ++ (respond dev parser.board.led line).2⟩ := by
  have refined := sequential_refines dev (fresh_refines fresh) (line ++ [newline])
  obtain ⟨empty, board⟩ := feedAll_line dev ⟨[], Nat.zero_le _, parser.board⟩ rfl line quiet
  exact ⟨refines_fresh refined empty, refined.board.trans board⟩

theorem sequential_unfinished {parser : Parser γ} (fresh : parser.idx = 0) (line : List UInt8)
    (quiet : newline ∉ line) :
    (sequential dev parser line).idx.toNat = line.length % 255 ∧
      (sequential dev parser line).board = ⟨parser.board.led,
        parser.board.out ++ List.replicate (line.length / 255) (.uartSendString .bufferOverflow)⟩ := by
  have refined := sequential_refines dev (fresh_refines fresh) line
  obtain ⟨tail, board⟩ := feedAll_unfinished dev ⟨[], Nat.zero_le _, parser.board⟩ rfl line quiet
  exact ⟨by rw [refined.idx, tail, lineTail_length], refined.board.trans board⟩

private theorem calls_line (temp : Vector UInt8 256) (led : γ) (before line : List UInt8)
    (starts : StartsLine before) (quiet : newline ∉ line) :
    callsWhile dev (sequential dev (.start temp led) before) (line ++ [newline]) =
      (respond dev (sequential dev (.start temp led) before).board.led line).2 := by
  have fresh := refines_fresh (sequential_refines dev (start_refines temp led) before)
    (feedAll_fresh dev led before starts)
  rw [callsWhile, (sequential_line dev fresh line quiet).2]
  exact List.drop_left

private theorem working_board (temp : Vector UInt8 256) (before : List UInt8) :
    (sequential workingPin (.start temp 0) before).board.led =
      levelAfter 0 (sequential workingPin (.start temp 0) before).board.out := by
  rw [(sequential_refines workingPin (start_refines temp 0) before).board]
  exact working_level before

private theorem reference_no_overflow (level : Int) (line : List UInt8) :
    .uartSendString .bufferOverflow ∉ reference level line := by
  simp only [reference]
  repeat' split
  all_goals simp

private theorem reference_shape (level other : Int) (line : List UInt8) :
    (reference level line).map Output.shape = (reference other line).map Output.shape := by
  have same := (reply_shape workingPin level line).trans (reply_shape workingPin other line).symm
  rwa [reply_working, reply_working] at same

/-- A line of at most 254 bytes gets its reference answer at the level of the last LED
command, whatever bytes stand before it in the stream or in the buffer. -/
theorem short_line_reference (temp : Vector UInt8 256) (before line : List UInt8)
    (starts : StartsLine before) (quiet : newline ∉ line) (short : line.length ≤ 254) :
    callsWhile workingPin (sequential workingPin (.start temp 0) before) (line ++ [newline]) =
      reference (levelAfter 0 (sequential workingPin (.start temp 0) before).board.out) line ∧
    .uartSendString .bufferOverflow ∉
      callsWhile workingPin (sequential workingPin (.start temp 0) before) (line ++ [newline]) ∧
    (callsWhile workingPin (sequential workingPin (.start temp 0) before) (line ++ [newline])).map Output.shape =
      (callsWhile workingPin (.start temp 0) (line ++ [newline])).map Output.shape := by
  have answer (before : List UInt8) (starts : StartsLine before) :
      callsWhile workingPin (sequential workingPin (.start temp 0) before) (line ++ [newline]) =
        reference (levelAfter 0 (sequential workingPin (.start temp 0) before).board.out) line := by
    rw [calls_line workingPin temp 0 before line starts quiet, respond_short workingPin _ short,
      reply_working, working_board]
  refine ⟨answer before starts, ?_, ?_⟩
  · rw [answer before starts]
    exact reference_no_overflow _ _
  · have first := answer [] (.inl rfl)
    rw [answer before starts, show Parser.start temp (0 : Int) =
      sequential workingPin (.start temp 0) [] from rfl, first]
    exact reference_shape _ _ _

theorem status_after_led_on :
    callsWhile workingPin
      (sequential workingPin (.start (.replicate 256 0) 0) (literal "led on" ++ [newline]))
      (literal "Status\r" ++ [newline]) =
      [.gpioPinGetDt 1, .uartSendString .stateActive, .uartSendString .prompt] := by
  have on := (short_line_reference (.replicate 256 0) [] (literal "led on") (.inl rfl) (by decide) (by decide)).1
  have transcript : (sequential workingPin (.start (.replicate 256 0) 0) (literal "led on" ++ [newline])).board.out =
      reference 0 (literal "led on") := on
  rw [(short_line_reference (.replicate 256 0) (literal "led on" ++ [newline]) (literal "Status\r")
    (.inr ⟨_, rfl⟩) (by decide) (by decide)).1, transcript]
  decide

private theorem stripReturn_subset (line : List UInt8) : stripReturn line ⊆ line := by
  unfold stripReturn
  split
  · exact List.dropLast_subset line
  · exact List.Subset.refl line

theorem lineText_nulFree {line : List UInt8} (nulFree : 0 ∉ line) : lineText line = stripReturn line :=
  contents_of_nulFree fun present => nulFree (stripReturn_subset line present)

private theorem reply_harmless (led : γ) (line : List UInt8) :
    (∀ call ∈ (reply dev led line).2, Harmless call) ↔ ¬ Executes (lineText line) := by
  unfold reply classify Executes
  by_cases empty : lineText line = []
  · simp [empty, Harmless, spells, literal]
  · by_cases on : spells (lineText line) "LED ON"
    · simp [empty, on, perform, Harmless]
    · by_cases off : spells (lineText line) "LED OFF"
      · simp [empty, on, off, perform, Harmless]
      · by_cases status : spells (lineText line) "STATUS"
        · simp [empty, on, off, status, perform, Harmless]
        · simp [empty, on, off, status, perform, Harmless]

private theorem respond_harmless (led : γ) {line : List UInt8} (nulFree : 0 ∉ line) :
    (∀ call ∈ (respond dev led line).2, Harmless call) ↔ ¬ Executes (stripReturn (lineTail line)) := by
  have tailFree : 0 ∉ lineTail line := fun present => nulFree (List.mem_of_mem_drop present)
  rw [← lineText_nulFree tailFree, ← reply_harmless dev led]
  simp only [respond, List.mem_append, List.mem_replicate]
  constructor
  · intro harmless call member
    exact harmless call (.inr member)
  · intro harmless call member
    rcases member with ⟨_, rfl⟩ | member
    · exact .inl rfl
    · exact harmless call member

/-- The overlong lines of a stream are harmless exactly when none of their tails, the
bytes past the last multiple of 255, is a command. -/
theorem overlong_harmless_iff (temp : Vector UInt8 256) (led : γ) (stream : List UInt8)
    (nulFree : 0 ∉ stream) :
    (∀ before line, OverlongLine stream before line →
      ∀ call ∈ callsWhile dev (sequential dev (.start temp led) before) (line ++ [newline]), Harmless call) ↔
    ∀ before line, OverlongLine stream before line → ¬ Executes (stripReturn (lineTail line)) := by
  have each (before line : List UInt8) (found : OverlongLine stream before line) :
      (∀ call ∈ callsWhile dev (sequential dev (.start temp led) before) (line ++ [newline]), Harmless call) ↔
        ¬ Executes (stripReturn (lineTail line)) := by
    rw [calls_line dev temp led before line found.starts found.quiet]
    apply respond_harmless
    intro present
    obtain ⟨rest, rfl⟩ := found.inside
    exact nulFree (by simp [present])
  constructor
  · intro harmless before line found
    exact (each before line found).mp (harmless before line found)
  · intro absent before line found
    exact (each before line found).mpr (absent before line found)

def smuggled : List UInt8 := List.replicate 255 120 ++ literal "LED ON"

private theorem smuggled_length : smuggled.length = 261 := by
  rw [smuggled, List.length_append, List.length_replicate]
  rfl

private theorem smuggled_found : OverlongLine (smuggled ++ [newline]) [] smuggled := by
  refine ⟨⟨[], rfl⟩, .inl rfl, ?_, by rw [smuggled_length]; decide⟩
  rw [smuggled, List.mem_append, List.mem_replicate]
  decide

private theorem smuggled_nulFree : 0 ∉ smuggled ++ [newline] := by
  rw [smuggled, List.mem_append, List.mem_append, List.mem_replicate]
  decide

private theorem smuggled_tail : lineTail smuggled = literal "LED ON" := by
  rw [lineTail, smuggled_length]
  exact List.drop_left' List.length_replicate

theorem smuggled_iff :
    (∀ before line, OverlongLine (smuggled ++ [newline]) before line →
      ∀ call ∈ callsWhile workingPin (sequential workingPin (.start (.replicate 256 0) 0) before)
        (line ++ [newline]), Harmless call) ↔
    ∀ before line, OverlongLine (smuggled ++ [newline]) before line →
      ¬ Executes (stripReturn (lineTail line)) :=
  overlong_harmless_iff workingPin (.replicate 256 0) 0 (smuggled ++ [newline]) smuggled_nulFree

/-- The command behind the noise switches the LED on. -/
theorem smuggled_executed :
    OverlongLine (smuggled ++ [newline]) [] smuggled ∧ 0 ∉ smuggled ++ [newline] ∧
      callsWhile workingPin (.start (.replicate 256 0) 0) (smuggled ++ [newline]) =
        [.uartSendString .bufferOverflow, .gpioPinSetDt 1 0, .uartSendString .ledNowOn,
          .uartSendString .prompt] := by
  refine ⟨smuggled_found, smuggled_nulFree, ?_⟩
  have calls := calls_line workingPin (.replicate 256 0) 0 [] smuggled (.inl rfl) smuggled_found.quiet
  rw [respond, smuggled_tail, smuggled_length] at calls
  exact calls

end ZephyrTutorial.Proofs.UartCommands
