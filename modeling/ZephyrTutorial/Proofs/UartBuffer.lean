import ZephyrTutorial.Proofs.UartEditor
import ZephyrTutorial.Proofs.UartHandoff
import ZephyrTutorial.UartChecked

/-! The line buffer is safe. The checked parser meets no fault, since the cells below `idx` are the
editor's line and every string that it reads has its NUL among them. -/

namespace ZephyrTutorial.Proofs.UartBuffer
open ZephyrTutorial.Uart Machine CheckedBuffer UartRefinement UartEditor UartHandoff

variable {γ : Type}

private theorem nul_mem_terminated (line : List UInt8) (byte : UInt8) : 0 ∈ terminated line byte := by
  unfold terminated
  split <;> simp

private theorem terminated_length (line : List UInt8) (byte : UInt8) :
    (terminated line byte).length = line.length + 1 := by
  rcases List.eq_nil_or_concat' line with rfl | ⟨front, last, rfl⟩
  · rfl
  · rw [terminated_concat]
    split <;> simp

/-- Both places of the NUL have been written, and so has the byte before the newline. -/
private theorem terminate_ok {temp : Buffer UInt8 256} {idx byte : UInt8} {line : List UInt8}
    (size : idx.toNat = line.length) (holds : temp.Holds (line ++ [byte])) :
    ∃ next, Checked.terminate temp idx = .ok next ∧ next.Holds (terminated line byte) := by
  rcases List.eq_nil_or_concat' line with rfl | ⟨front, last, rfl⟩
  · have zero : ¬ 0 < idx := by rw [UInt8.lt_iff_toNat_lt, size]; simp
    rw [Checked.terminate, if_neg zero, size]
    exact holds.store_over rfl (Nat.zero_lt_one) 0
  · have positive : 0 < idx := by rw [UInt8.lt_iff_toNat_lt, size]; simp
    have place : idx.toNat = front.length + 1 := by rw [size]; simp
    have before : (idx.toNat : Int) - 1 = front.length := by omega
    have read : temp.load (idx.toNat - 1) = .ok last := holds.load_ok before (by simp)
    rw [Checked.terminate, if_pos positive, read, ok_bind, terminated_concat]
    by_cases returned : last = carriageReturn
    · rw [if_pos returned, if_pos returned]
      obtain ⟨next, stored, held⟩ := holds.store_over before (by simp) 0
      refine ⟨next, stored, ?_⟩
      simpa using held
    · rw [if_neg returned, if_neg returned]
      obtain ⟨next, stored, held⟩ := holds.store_over (congrArg Nat.cast place) (by simp) 0
      refine ⟨next, stored, ?_⟩
      simpa using held

/-- The C string functions see the buffer as it is, and nothing but the calls is left of them. -/
structure Consulted (before after : Checked.Parser γ) : Prop where
  temp : after.temp = before.temp
  idx : after.idx = before.idx
  calls : ∀ call ∈ after.calls, call ∈ before.calls ∨ call = ⟨before.temp, before.idx⟩

private theorem consulted_refl (parser : Checked.Parser γ) : Consulted parser parser :=
  ⟨rfl, rfl, fun _ => .inl⟩

theorem Consulted.called {before after : Checked.Parser γ} (consulted : Consulted before after) :
    Consulted before after.called := by
  refine ⟨consulted.temp, consulted.idx, fun call member => ?_⟩
  rcases List.mem_append.mp member with member | member
  · exact consulted.calls call member
  · rw [List.mem_singleton.mp member, consulted.temp, consulted.idx]
    exact .inr rfl

/-- On a terminated buffer the chain of comparisons does what the unchecked one does. -/
private theorem dispatch_ok (dev : Gpio γ) {parser : Checked.Parser γ} {text : List UInt8}
    (holds : parser.temp.Holds text) (ends : 0 ∈ text) (stale : List UInt8) :
    ∃ next, Checked.dispatch dev parser = .ok next ∧ next.board = dispatch dev (text ++ stale) parser.board ∧
      Consulted parser next := by
  have cells := holds.2
  have length : parser.strlen = .ok (CString.strlen (text ++ stale), parser.called) := by
    rw [Checked.Parser.strlen, cells, strlen_ok ends _ stale]
    rfl
  have order (current : Checked.Parser γ) (same : current.temp = parser.temp) (word : String) :
      current.strcasecmp word = .ok (CString.strcasecmp (text ++ stale) (literal word), current.called) := by
    rw [Checked.Parser.strcasecmp, same, cells, strcasecmp_ok ends _ stale]
    rfl
  have one := (consulted_refl parser).called
  have two := one.called
  have three := two.called
  have four := three.called
  unfold Checked.dispatch dispatch
  simp only [length, order _ one.temp, order _ two.temp, order _ three.temp, ok_bind]
  by_cases filled : 0 < CString.strlen (text ++ stale)
  · simp only [if_pos filled]
    by_cases on : CString.strcasecmp (text ++ stale) (literal "LED ON") = 0
    · simp only [if_pos on]
      exact ⟨_, rfl, rfl, two.temp, two.idx, two.calls⟩
    · simp only [if_neg on]
      by_cases off : CString.strcasecmp (text ++ stale) (literal "LED OFF") = 0
      · simp only [if_pos off]
        exact ⟨_, rfl, rfl, three.temp, three.idx, three.calls⟩
      · simp only [if_neg off]
        by_cases status : CString.strcasecmp (text ++ stale) (literal "STATUS") = 0
        · simp only [if_pos status]
          exact ⟨_, rfl, rfl, four.temp, four.idx, four.calls⟩
        · simp only [if_neg status]
          exact ⟨_, rfl, rfl, four.temp, four.idx, four.calls⟩
  · simp only [if_neg filled]
    exact ⟨_, rfl, rfl, one⟩

/-- A written text with a NUL in it is terminated as far as it reaches. -/
private theorem terminated_of_holds {call : Checked.Call} {text : List UInt8} (holds : call.temp.Holds text)
    (ends : 0 ∈ text) (reach : text.length ≤ call.idx.toNat + 1) : call.Terminated := by
  obtain ⟨last, inside, found⟩ := List.mem_iff_getElem.mp ends
  refine ⟨last, by omega, ?_, ?_⟩
  · rw [holds.cell, if_pos inside, List.getElem?_eq_getElem inside, found]
  · intro index before
    have within : index < text.length := by omega
    refine ⟨text[index], ?_⟩
    rw [holds.cell, if_pos within, List.getElem?_eq_getElem within]

/-- After the newline the NUL is set, and no comparison reads past it. -/
private theorem answer_ok (dev : Gpio γ) {checked : Checked.Parser γ} {temp : Buffer UInt8 256} {line : List UInt8}
    {byte : UInt8} (size : checked.idx.toNat = line.length) (holds : temp.Holds (line ++ [byte]))
    (earlier : ∀ call ∈ checked.calls, call.Terminated) (stale : List UInt8) :
    ∃ closed answered, Checked.terminate temp checked.idx = .ok closed ∧
      Checked.dispatch dev { checked with temp := closed } = .ok answered ∧
      answered.board = dispatch dev (terminated line byte ++ stale) checked.board ∧
      ∀ call ∈ answered.calls, call.Terminated := by
  obtain ⟨closed, cut, text⟩ := terminate_ok size holds
  have ends := nul_mem_terminated line byte
  have held : ({ checked with temp := closed } : Checked.Parser γ).temp.Holds (terminated line byte) := text
  obtain ⟨answered, asked, board, consulted⟩ := dispatch_ok dev held ends stale
  refine ⟨closed, answered, cut, asked, board, fun call member => ?_⟩
  rcases consulted.calls call member with before | rfl
  · exact earlier call before
  · have reach : (terminated line byte).length = checked.idx.toNat + 1 := by rw [terminated_length, size]
    exact terminated_of_holds text ends (Nat.le_of_eq reach)

/-- The checked parser has written the editor's line, and it stands where the plain parser does. -/
structure Tracks (checked : Checked.Parser γ) (parser : Parser γ) (editor : Editor γ) : Prop where
  idx : checked.idx = parser.idx
  board : checked.board = parser.board
  holds : checked.temp.Holds editor.line
  refined : Refines parser editor
  terminated : ∀ call ∈ checked.calls, call.Terminated

private theorem start_tracks (temp : Vector UInt8 256) (led : γ) :
    Tracks (.start led) (Parser.start temp led) (Editor.start led) :=
  ⟨rfl, rfl, Buffer.Holds.start, start_refines temp led, nofun⟩

private theorem loopBody_tracks (dev : Gpio γ) {checked : Checked.Parser γ} {parser : Parser γ} {editor : Editor γ}
    (tracks : Tracks checked parser editor) (byte : UInt8) :
    ∃ next, Checked.loopBody dev checked byte = .ok next ∧
      Tracks next (loopBody dev parser byte) (editor.feed dev byte) := by
  have refined := loopBody_refines dev tracks.refined byte
  have size : checked.idx.toNat = editor.line.length := by rw [tracks.idx]; exact tracks.refined.idx
  have place : (checked.idx.toNat : Int) = editor.line.length := congrArg Nat.cast size
  have short := editor.bounded
  obtain ⟨stored, put, held⟩ := tracks.holds.store_next place (by omega) byte
  have read : stored.load checked.idx.toNat = .ok byte := held.load_ok place (by simp)
  obtain ⟨stale, memory⟩ := stored_line parser.temp parser.idx byte editor.line tracks.refined.idx tracks.refined.temp
  have found := get_stored tracks.refined.idx memory
  unfold Checked.loopBody
  rw [put, ok_bind, read, ok_bind]
  by_cases ended : byte = newline
  · obtain ⟨closed, answered, cut, asked, board, terminated⟩ := answer_ok dev size held tracks.terminated stale
    have shape := terminate_toList _ parser.idx byte editor.line stale tracks.refined.idx memory
    have fresh : (editor.feed dev byte).line = [] := by rw [ended]; exact (feed_newline dev editor).1
    rw [if_pos ended, cut, ok_bind, asked, ok_bind]
    refine ⟨_, rfl, ?_, ?_, ?_, refined, terminated⟩
    · simp only [loopBody, found, if_pos ended]
    · simp only [loopBody, found, if_pos ended, shape]
      rw [← tracks.board]
      exact congrArg (Board.send .prompt) board
    · rw [fresh]
      exact Buffer.Holds.start
  · rw [if_neg ended]
    have limit : checked.idx < 254 ↔ editor.line.length < 254 := by
      rw [UInt8.lt_iff_toNat_lt, size]
      rfl
    have plain : parser.idx < 254 ↔ editor.line.length < 254 := by rw [← tracks.idx]; exact limit
    simp only [limit]
    by_cases room : editor.line.length < 254
    · have counted : increment checked.idx = .ok (checked.idx + 1) := if_pos (by omega)
      rw [if_pos room, counted, ok_bind]
      refine ⟨_, rfl, ?_, ?_, ?_, refined, tracks.terminated⟩
      · simp only [loopBody, found, if_neg ended, plain, if_pos room, tracks.idx]
      · simp only [loopBody, found, if_neg ended, plain, if_pos room, tracks.board]
      · rw [(feed_room dev ended room).1]
        exact held
    · rw [if_neg room]
      refine ⟨_, rfl, ?_, ?_, ?_, refined, tracks.terminated⟩
      · simp only [loopBody, found, if_neg ended, plain, if_neg room]
      · simp only [loopBody, found, if_neg ended, plain, if_neg room, ← tracks.board]
        rfl
      · rw [(feed_full dev ended room).1]
        exact Buffer.Holds.start

private theorem sequential_tracks (dev : Gpio γ) {checked : Checked.Parser γ} {parser : Parser γ} {editor : Editor γ}
    (tracks : Tracks checked parser editor) (bytes : List UInt8) :
    ∃ next, Checked.sequential dev checked bytes = .ok next ∧
      Tracks next (sequential dev parser bytes) (editor.feedAll dev bytes) := by
  induction bytes generalizing checked parser editor with
  | nil => exact ⟨checked, rfl, tracks⟩
  | cons byte bytes ih =>
    obtain ⟨middle, first, kept⟩ := loopBody_tracks dev tracks byte
    obtain ⟨next, rest, kept⟩ := ih kept
    refine ⟨next, ?_, kept⟩
    rw [Checked.sequential, List.foldlM_cons, first, ok_bind]
    exact rest

/-- A cell that has been written belongs to the line, and there memory agrees with the editor. -/
private theorem Tracks.matches {checked : Checked.Parser γ} {parser : Parser γ} {editor : Editor γ}
    (tracks : Tracks checked parser editor) : Checked.Matches checked parser := by
  refine ⟨tracks.idx, tracks.board, fun index byte written => ?_⟩
  rw [tracks.holds.cell] at written
  split at written
  next inside =>
    have held := Option.some.inj written
    rw [← tracks.refined.temp, List.getElem?_take_of_lt inside, Vector.getElem?_toList] at held
    exact held
  next => split at written <;> cases written

/-- For every byte stream and every way the thread is suspended: `idx` stays at most 254, and the
checked loop over the consumed bytes ends without a fault where the thread is. No access leaves
the 256 bytes, no increment wraps, no byte is read that was not written since the line began (or
the last overflow), and each string given to `strlen` or `strcasecmp` ends at or before `idx`. -/
theorem buffer_safe (dev : Gpio γ) (temp : Vector UInt8 256) (led : γ) (schedule : List Event) (state : State γ)
    (ran : run (step dev) schedule (boot temp led) = some state) :
    state.parser.idx.toNat ≤ 254 ∧
    ∃ checked, Checked.sequential dev (.start led) state.consumed = .ok checked ∧
      Checked.Matches checked state.parser ∧
      ∀ call ∈ checked.calls, call.Terminated := by
  rw [(run_handoff ran).parser]
  obtain ⟨checked, replayed, tracks⟩ := sequential_tracks dev (start_tracks temp led) state.consumed
  refine ⟨?_, checked, replayed, tracks.matches, tracks.terminated⟩
  rw [tracks.refined.idx]
  exact Editor.bounded _

theorem buffer_safe_status : ∃ state : State Int,
    run (step workingPin) (.uartCallback true true :: delivery (literal "status\r") [] 8) (boot (.replicate 256 0) 0) =
      some state ∧
    state.consumed = literal "status\r" ++ [newline] ∧ state.parser.idx.toNat ≤ 254 ∧
    ∃ checked, Checked.sequential workingPin (.start 0) state.consumed = .ok checked ∧
      Checked.Matches checked state.parser ∧
      ∀ call ∈ checked.calls, call.Terminated := by
  obtain ⟨state, ran, consumed⟩ : ∃ state : State Int,
      run (step workingPin) (.uartCallback true true :: delivery (literal "status\r") [] 8) (boot (.replicate 256 0) 0) =
        some state ∧
      state.consumed = literal "status\r" ++ [newline] := exists_run (by decide +kernel)
  exact ⟨state, ran, consumed, buffer_safe workingPin _ 0 _ state ran⟩

end ZephyrTutorial.Proofs.UartBuffer
