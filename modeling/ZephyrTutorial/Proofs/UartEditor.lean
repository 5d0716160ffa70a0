import Mathlib.Data.List.Induction
import ZephyrTutorial.UartLines

/-! The editor line by line. One lemma about an unfinished line of any length carries
short lines, overlong lines, and their tails alike. -/

namespace ZephyrTutorial.Proofs.UartEditor
open ZephyrTutorial.Uart CString

universe u

variable {γ : Type u} (dev : Gpio γ)

theorem feedAll_append (editor : Editor γ) (first rest : List UInt8) :
    editor.feedAll dev (first ++ rest) = (editor.feedAll dev first).feedAll dev rest :=
  List.foldl_append

theorem feedAll_concat (editor : Editor γ) (bytes : List UInt8) (byte : UInt8) :
    editor.feedAll dev (bytes ++ [byte]) = (editor.feedAll dev bytes).feed dev byte := by
  rw [feedAll_append]
  rfl

theorem feed_newline (editor : Editor γ) :
    (editor.feed dev newline).line = [] ∧
      (editor.feed dev newline).board = editor.board.answer dev editor.line := by
  rw [Editor.feed, if_pos rfl]
  exact ⟨rfl, rfl⟩

theorem feed_room {editor : Editor γ} {byte : UInt8} (other : byte ≠ newline)
    (room : editor.line.length < 254) :
    (editor.feed dev byte).line = editor.line ++ [byte] ∧ (editor.feed dev byte).board = editor.board := by
  rw [Editor.feed, if_neg other, dif_pos room]
  exact ⟨rfl, rfl⟩

theorem feed_full {editor : Editor γ} {byte : UInt8} (other : byte ≠ newline)
    (full : ¬ editor.line.length < 254) :
    (editor.feed dev byte).line = [] ∧
      (editor.feed dev byte).board = editor.board.send .bufferOverflow := by
  rw [Editor.feed, if_neg other, dif_neg full]
  exact ⟨rfl, rfl⟩

theorem lineTail_short {line : List UInt8} (short : line.length ≤ 254) : lineTail line = line := by
  rw [lineTail, Nat.div_eq_of_lt (by omega), Nat.zero_mul, List.drop_zero]

theorem lineTail_length (line : List UInt8) : (lineTail line).length = line.length % 255 := by
  rw [lineTail, List.length_drop, Nat.mod_eq_sub_div_mul]

private theorem lineTail_concat_room {line : List UInt8} (byte : UInt8) (room : line.length % 255 < 254) :
    lineTail (line ++ [byte]) = lineTail line ++ [byte] := by
  have same : (line.length + 1) / 255 = line.length / 255 := by omega
  have inside : line.length / 255 * 255 ≤ line.length := Nat.div_mul_le_self _ _
  rw [lineTail, lineTail, List.length_append, List.length_singleton, same,
    List.drop_append_of_le_length inside]

private theorem lineTail_concat_full {line : List UInt8} (byte : UInt8) (full : ¬ line.length % 255 < 254) :
    lineTail (line ++ [byte]) = [] := by
  apply List.eq_nil_of_length_eq_zero
  rw [lineTail_length, List.length_append, List.length_singleton]
  omega

/-- A line that has not ended leaves its tail in the editor and one notice for every
255 bytes on the wire. -/
theorem feedAll_unfinished (editor : Editor γ) (fresh : editor.line = [])
    (line : List UInt8) (quiet : newline ∉ line) :
    (editor.feedAll dev line).line = lineTail line ∧
      (editor.feedAll dev line).board = ⟨editor.board.led,
        editor.board.out ++ List.replicate (line.length / 255) (.uartSendString .bufferOverflow)⟩ := by
  induction line using List.reverseRecOn with
  | nil => exact ⟨fresh, by simp [Editor.feedAll]⟩
  | append_singleton line byte ih =>
    simp only [List.mem_append, List.mem_singleton, not_or] at quiet
    obtain ⟨tail, board⟩ := ih quiet.1
    have size : (editor.feedAll dev line).line.length = line.length % 255 := by
      rw [tail, lineTail_length]
    rw [feedAll_concat]
    by_cases room : line.length % 255 < 254
    · have same : (line.length + 1) / 255 = line.length / 255 := by omega
      obtain ⟨longer, kept⟩ := feed_room dev (Ne.symm quiet.2) (size ▸ room)
      rw [longer, kept, lineTail_concat_room byte room, tail, board, List.length_append,
        List.length_singleton, same]
      exact ⟨rfl, rfl⟩
    · have more : (line.length + 1) / 255 = line.length / 255 + 1 := by omega
      obtain ⟨emptied, notified⟩ := feed_full dev (Ne.symm quiet.2) (size ▸ room)
      rw [emptied, notified, lineTail_concat_full byte room, board, List.length_append,
        List.length_singleton, more, List.replicate_succ']
      exact ⟨rfl, by simp [Board.send]⟩

theorem feedAll_line (editor : Editor γ) (fresh : editor.line = [])
    (line : List UInt8) (quiet : newline ∉ line) :
    (editor.feedAll dev (line ++ [newline])).line = [] ∧
      (editor.feedAll dev (line ++ [newline])).board =
        ⟨(respond dev editor.board.led line).1,
          editor.board.out ++ (respond dev editor.board.led line).2⟩ := by
  obtain ⟨tail, board⟩ := feedAll_unfinished dev editor fresh line quiet
  obtain ⟨empty, answered⟩ := feed_newline dev (editor.feedAll dev line)
  rw [feedAll_concat, empty, answered, board, tail]
  exact ⟨rfl, by simp [Board.answer, respond]⟩

theorem feedAll_fresh (led : γ) (before : List UInt8)
    (starts : StartsLine before) : ((Editor.start led).feedAll dev before).line = [] := by
  rcases starts with rfl | ⟨earlier, rfl⟩
  · rfl
  · rw [feedAll_concat]
    exact (feed_newline dev _).1

theorem respond_short (led : γ) {line : List UInt8} (short : line.length ≤ 254) :
    respond dev led line = reply dev led line := by
  rw [respond, lineTail_short short, Nat.div_eq_of_lt (by omega)]
  rfl

/-- A line is free of newlines up to the first newline, so a stream is read line by line. -/
theorem stream_induction {property : List UInt8 → Prop}
    (unfinished : ∀ line, newline ∉ line → property line)
    (complete : ∀ line rest, newline ∉ line → property rest → property (line ++ newline :: rest))
    (stream : List UInt8) : property stream := by
  by_cases present : newline ∈ stream
  · obtain ⟨line, rest, shape, quiet⟩ := List.eq_append_cons_of_mem present
    rw [shape]
    exact complete line rest quiet (stream_induction unfinished complete rest)
  · exact unfinished stream present
termination_by stream.length
decreasing_by
  rw [shape, List.length_append, List.length_cons]
  omega

theorem completeLines_unfinished {line : List UInt8} (quiet : newline ∉ line) :
    completeLines line = [] := by
  rw [completeLines, List.splitOn_eq_singleton quiet]
  rfl

theorem completeLines_cons {line : List UInt8} (rest : List UInt8) (quiet : newline ∉ line) :
    completeLines (line ++ newline :: rest) = line :: completeLines rest := by
  rw [completeLines, List.splitOn_append_cons_self_of_not_mem quiet,
    List.dropLast_cons_of_ne_nil (List.splitOn_ne_nil _ _)]
  rfl

private theorem ledActions_append (first rest : List Output) :
    ledActions (first ++ rest) = ledActions first ++ ledActions rest :=
  List.filterMap_append

private theorem ledActions_reply (led : γ) (line : List UInt8) :
    ledActions (reply dev led line).2 = (ledCommand line).toList := by
  unfold reply ledCommand
  cases classify (lineText line) with
  | none => rfl
  | some command => cases command <;> rfl

private theorem ledActions_respond (led : γ) (line : List UInt8) :
    ledActions (respond dev led line).2 = (ledCommand (lineTail line)).toList := by
  have notices (count : Nat) :
      ledActions (List.replicate count (.uartSendString .bufferOverflow)) = [] := by
    induction count with
    | zero => rfl
    | succ count ih => exact ih
  rw [respond, ledActions_append, notices, List.nil_append, ledActions_reply]

/-- Over a whole stream the pin is set once for every complete line whose tail is an
LED command, in order. -/
theorem ledActions_stream (editor : Editor γ) (fresh : editor.line = []) (stream : List UInt8) :
    ledActions (editor.feedAll dev stream).board.out = ledActions editor.board.out ++
      (completeLines stream).filterMap (fun line => ledCommand (lineTail line)) := by
  induction stream using stream_induction generalizing editor with
  | unfinished line quiet =>
    rw [(feedAll_unfinished dev editor fresh line quiet).2, completeLines_unfinished quiet,
      ledActions_append]
    congr 1
    simp [ledActions]
  | complete line rest quiet ih =>
    obtain ⟨empty, board⟩ := feedAll_line dev editor fresh line quiet
    rw [completeLines_cons rest quiet, List.append_cons, feedAll_append, ih _ empty, board,
      ledActions_append, ledActions_respond, List.filterMap_cons]
    cases ledCommand (lineTail line) <;> simp

theorem reply_shape (led : γ) (line : List UInt8) :
    (reply dev led line).2.map Output.shape = commandShape (classify (lineText line)) := by
  unfold reply
  cases classify (lineText line) with
  | none => rfl
  | some command =>
    cases command with
    | ledOn | ledOff | unknown => rfl
    | status =>
      simp only [perform, List.map_append, List.map_cons, List.map_nil]
      split <;> rfl

theorem commandShape_injective {first second : Option Command}
    (same : commandShape first = commandShape second) : first = second := by
  rcases first with _ | _ | _ | _ | _ <;> rcases second with _ | _ | _ | _ | _ <;>
    first | rfl | exact absurd same (by decide)

/-- On a working pin the reply is the reference answer at the pin's level. -/
theorem reply_working (level : Int) (line : List UInt8) :
    reply workingPin level line = (levelAfter level (reference level line), reference level line) := by
  simp only [reply, reference, classify]
  by_cases empty : lineText line = []
  · simp [empty, levelAfter]
  · by_cases on : spells (lineText line) "LED ON"
    · simp [empty, on, perform, workingPin, levelAfter]
    · by_cases off : spells (lineText line) "LED OFF"
      · simp [empty, on, off, perform, workingPin, levelAfter]
      · by_cases status : spells (lineText line) "STATUS"
        · by_cases low : level = 0 <;>
            simp [empty, on, off, status, perform, workingPin, levelAfter, low]
        · simp [empty, on, off, status, perform, levelAfter]

private theorem levelAfter_append (level : Int) (first rest : List Output) :
    levelAfter level (first ++ rest) = levelAfter (levelAfter level first) rest :=
  List.foldl_append

theorem working_level (bytes : List UInt8) :
    ((Editor.start (0 : Int)).feedAll workingPin bytes).board.led =
      levelAfter 0 ((Editor.start (0 : Int)).feedAll workingPin bytes).board.out := by
  induction bytes using List.reverseRecOn with
  | nil => rfl
  | append_singleton bytes byte ih =>
    rw [feedAll_concat, Editor.feed]
    split
    · simp only [Board.answer, reply_working, levelAfter_append, ← ih]
    · split
      · exact ih
      · simp only [Board.send, levelAfter_append, ih]
        rfl

end ZephyrTutorial.Proofs.UartEditor
