import ZephyrTutorial.UartLines

/-! The parser's loop refines the line editor. The first `idx` bytes of `temp` are the
editor's line; whatever stands behind them is never looked at. -/

namespace ZephyrTutorial.Proofs.UartRefinement
open ZephyrTutorial.Uart CString

universe u

variable {γ : Type u}

/-- The parser and the editor agree on everything but the stale part of `temp`. -/
structure Refines (parser : Parser γ) (editor : Editor γ) : Prop where
  idx : parser.idx.toNat = editor.line.length
  temp : parser.temp.toList.take editor.line.length = editor.line
  board : parser.board = editor.board

theorem start_refines (temp : Vector UInt8 256) (led : γ) :
    Refines (Parser.start temp led) (Editor.start led) := ⟨rfl, rfl, rfl⟩

theorem stored_line (temp : Vector UInt8 256) (idx byte : UInt8) (line : List UInt8)
    (size : idx.toNat = line.length) (held : temp.toList.take line.length = line) :
    ∃ rest, (temp.set idx.toNat byte idx.toNat_lt).toList = line ++ byte :: rest := by
  refine ⟨temp.toList.drop (line.length + 1), ?_⟩
  have inside : idx.toNat < temp.toList.length := by rw [Vector.length_toList]; exact idx.toNat_lt
  rw [Vector.toList_set, List.set_eq_take_append_cons_drop, if_pos inside, size, held]

private theorem get_eq_getElem? (temp : Vector UInt8 256) (idx : UInt8) :
    some (temp.get idx.toFin) = temp.toList[idx.toNat]? := by
  have inside : idx.toNat < temp.toList.length := by rw [Vector.length_toList]; exact idx.toNat_lt
  rw [List.getElem?_eq_getElem inside, Vector.getElem_toList]
  rfl

theorem get_stored {temp : Vector UInt8 256} {idx byte : UInt8} {line rest : List UInt8}
    (size : idx.toNat = line.length) (held : temp.toList = line ++ byte :: rest) :
    temp.get idx.toFin = byte := by
  have found := get_eq_getElem? temp idx
  rw [held, size, List.getElem?_append_right (Nat.le_refl _), Nat.sub_self] at found
  exact Option.some.inj found

private theorem sub_one_toNat {idx : UInt8} (positive : 0 < idx) : (idx - 1).toNat = idx.toNat - 1 :=
  UInt8.toNat_sub_of_le _ _ (UInt8.le_iff_toNat_le.mpr (UInt8.lt_iff_toNat_lt.mp positive))

/-- A line with its NUL, which replaces a final carriage return or else the newline. -/
def terminated (line : List UInt8) (byte : UInt8) : List UInt8 :=
  if line.getLast? = some carriageReturn then line.dropLast ++ [0, byte] else line ++ [0]

theorem terminated_concat (front : List UInt8) (last byte : UInt8) :
    terminated (front ++ [last]) byte = if last = carriageReturn then front ++ [0, byte] else front ++ [last] ++ [0] := by
  simp [terminated]

theorem terminate_toList (temp : Vector UInt8 256) (idx byte : UInt8) (line rest : List UInt8)
    (size : idx.toNat = line.length) (held : temp.toList = line ++ byte :: rest) :
    (terminate temp idx).toList = terminated line byte ++ rest := by
  rcases List.eq_nil_or_concat' line with rfl | ⟨front, last, rfl⟩
  · have zero : ¬ 0 < idx := by rw [UInt8.lt_iff_toNat_lt, size]; simp
    rw [terminate, if_neg (fun both => zero both.1), Vector.toList_set, held, size]
    rfl
  · have positive : 0 < idx := by rw [UInt8.lt_iff_toNat_lt, size]; simp
    have before : (idx - 1).toNat = front.length := by rw [sub_one_toNat positive, size]; simp
    have shape : temp.toList = front ++ last :: byte :: rest := by rw [held]; simp
    have final : temp.get (idx - 1).toFin = last := get_stored before shape
    by_cases returned : last = carriageReturn
    · rw [terminate, if_pos ⟨positive, final.trans returned⟩, Vector.toList_set, shape, before,
        List.set_append_right _ _ (Nat.le_refl _), Nat.sub_self, List.set_cons_zero, terminated_concat, if_pos returned]
      simp
    · rw [terminate, if_neg (fun both => returned (final.symm.trans both.2)), Vector.toList_set, held,
        size, List.set_append_right _ _ (Nat.le_refl _), Nat.sub_self, List.set_cons_zero, terminated_concat,
        if_neg returned]
      simp

/-- Whichever byte becomes the NUL, the string before it is the text of the line. -/
private theorem terminate_contents (temp : Vector UInt8 256) (idx byte : UInt8) (line rest : List UInt8)
    (size : idx.toNat = line.length) (held : temp.toList = line ++ byte :: rest) :
    contents (terminate temp idx).toList = lineText line := by
  rw [terminate_toList temp idx byte line rest size held, terminated, lineText, stripReturn]
  split
  · rw [List.append_assoc]
    exact contents_terminated _ _
  · rw [List.append_assoc]
    exact contents_terminated _ _

private theorem literal_text (word : String) (nulFree : 0 ∉ literal word) (temp : List UInt8) :
    strcasecmp temp (literal word) = 0 ↔ spells (contents temp) word := by
  rw [strcasecmp_eq_zero, contents_of_nulFree nulFree]
  rfl

private theorem dispatch_answer (dev : Gpio γ) (temp line : List UInt8) (board : Board γ)
    (text : contents temp = lineText line) :
    (dispatch dev temp board).send .prompt = board.answer dev line := by
  simp only [dispatch, strlen_pos, literal_text "LED ON" (by decide), literal_text "LED OFF" (by decide),
    literal_text "STATUS" (by decide), text, Board.answer, reply, classify]
  by_cases empty : lineText line = []
  · simp [empty, Board.send]
  · by_cases on : spells (lineText line) "LED ON"
    · simp [empty, on, perform, Board.send, Board.gpioPinSetDt]
    · by_cases off : spells (lineText line) "LED OFF"
      · simp [empty, on, off, perform, Board.send, Board.gpioPinSetDt]
      · by_cases status : spells (lineText line) "STATUS"
        · by_cases low : (dev.pinGetDt board.led).1 = 0 <;>
            simp [empty, on, off, status, perform, Board.send, Board.gpioPinGetDt, low]
        · simp [empty, on, off, status, perform, Board.send]

/-- One byte through the loop body is one byte fed to the editor. -/
theorem loopBody_refines (dev : Gpio γ) {parser : Parser γ} {editor : Editor γ}
    (refined : Refines parser editor) (byte : UInt8) :
    Refines (loopBody dev parser byte) (editor.feed dev byte) := by
  obtain ⟨size, held, same⟩ := refined
  obtain ⟨rest, stored⟩ := stored_line parser.temp parser.idx byte editor.line size held
  have read := get_stored size stored
  simp only [loopBody, Editor.feed, read]
  by_cases ended : byte = newline
  · simp only [ended, if_true] at stored ⊢
    refine ⟨rfl, rfl, ?_⟩
    rw [same]
    exact dispatch_answer dev _ _ _ (terminate_contents _ _ _ _ rest size stored)
  · have limit : parser.idx < 254 ↔ editor.line.length < 254 := by
      rw [UInt8.lt_iff_toNat_lt, size]
      rfl
    simp only [if_neg ended, limit]
    by_cases room : editor.line.length < 254
    · simp only [if_pos room, dif_pos room]
      refine ⟨?_, ?_, same⟩
      · simp only [UInt8.toNat_add, size, List.length_append, List.length_singleton]
        change (editor.line.length + 1) % 256 = _
        omega
      · change List.take (editor.line ++ [byte]).length _ = editor.line ++ [byte]
        rw [stored, List.append_cons editor.line byte rest]
        exact List.take_left
    · simp only [if_neg room, dif_neg room]
      exact ⟨rfl, rfl, by rw [same]⟩

theorem sequential_refines (dev : Gpio γ) {parser : Parser γ} {editor : Editor γ}
    (refined : Refines parser editor) (bytes : List UInt8) :
    Refines (sequential dev parser bytes) (editor.feedAll dev bytes) :=
  List.foldl_rel refined fun byte _ _ _ kept => loopBody_refines dev kept byte

end ZephyrTutorial.Proofs.UartRefinement
