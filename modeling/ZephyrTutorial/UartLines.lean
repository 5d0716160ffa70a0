import ZephyrTutorial.Uart

/-! What the parser is for. An editor collects one line of at most 254 bytes and answers
it as a whole; buffers, stale bytes, and terminators do not occur at this level. -/

namespace ZephyrTutorial.Uart
open CString

universe u

variable {γ : Type u}

inductive Command
  | ledOn | ledOff | status | unknown
  deriving DecidableEq, Repr

/-- One final carriage return is not part of the command. -/
def stripReturn (line : List UInt8) : List UInt8 :=
  if line.getLast? = some carriageReturn then line.dropLast else line

theorem stripReturn_concat (front : List UInt8) (last : UInt8) :
    stripReturn (front ++ [last]) = if last = carriageReturn then front else front ++ [last] := by
  simp [stripReturn]

/-- The command text of a line also ends at its first NUL. -/
def lineText (line : List UInt8) : List UInt8 := contents (stripReturn line)

def spells (text : List UInt8) (word : String) : Prop :=
  text.map tolower = (literal word).map tolower

instance (text : List UInt8) (word : String) : Decidable (spells text word) :=
  inferInstanceAs (Decidable (_ = _))

def classify (text : List UInt8) : Option Command :=
  if text = [] then none
  else if spells text "LED ON" then some .ledOn
  else if spells text "LED OFF" then some .ledOff
  else if spells text "STATUS" then some .status
  else some .unknown

/-- The pin afterwards and the calls made for one command. -/
def perform (dev : Gpio γ) (led : γ) : Command → γ × List Output
  | .ledOn =>
    ((dev.pinSetDt 1 led).2, [.gpioPinSetDt 1 (dev.pinSetDt 1 led).1, .uartSendString .ledNowOn])
  | .ledOff =>
    ((dev.pinSetDt 0 led).2, [.gpioPinSetDt 0 (dev.pinSetDt 0 led).1, .uartSendString .ledNowOff])
  | .status =>
    ((dev.pinGetDt led).2, [.gpioPinGetDt (dev.pinGetDt led).1,
      .uartSendString (if (dev.pinGetDt led).1 ≠ 0 then .stateActive else .stateInactive)])
  | .unknown => (led, [.uartSendString .unknownCommand])

/-- The answer to a line that fits ends in one prompt. -/
def reply (dev : Gpio γ) (led : γ) (line : List UInt8) : γ × List Output :=
  match classify (lineText line) with
  | none => (led, [.uartSendString .prompt])
  | some command =>
    ((perform dev led command).1, (perform dev led command).2 ++ [.uartSendString .prompt])

def Board.answer (dev : Gpio γ) (line : List UInt8) (board : Board γ) : Board γ :=
  ⟨(reply dev board.led line).1, board.out ++ (reply dev board.led line).2⟩

structure Editor (γ : Type u) where
  line : List UInt8
  bounded : line.length ≤ 254
  board : Board γ

namespace Editor

def start (led : γ) : Editor γ := ⟨[], Nat.zero_le _, led, []⟩

/-- A byte too many discards the line collected so far, itself included. -/
def feed (dev : Gpio γ) (editor : Editor γ) (byte : UInt8) : Editor γ :=
  if byte = newline then ⟨[], Nat.zero_le _, editor.board.answer dev editor.line⟩
  else if room : editor.line.length < 254 then
    ⟨editor.line ++ [byte], by rw [List.length_append, List.length_singleton]; omega, editor.board⟩
  else ⟨[], Nat.zero_le _, editor.board.send .bufferOverflow⟩

def feedAll (dev : Gpio γ) (editor : Editor γ) (bytes : List UInt8) : Editor γ :=
  bytes.foldl (feed dev) editor

end Editor

/-- What is left of an unfinished line after its overflows: the bytes past the last
multiple of 255. -/
def lineTail (line : List UInt8) : List UInt8 := line.drop (line.length / 255 * 255)

def respond (dev : Gpio γ) (led : γ) (line : List UInt8) : γ × List Output :=
  ((reply dev led (lineTail line)).1,
    List.replicate (line.length / 255) (.uartSendString .bufferOverflow) ++
      (reply dev led (lineTail line)).2)

def StartsLine (before : List UInt8) : Prop := before = [] ∨ ∃ earlier, before = earlier ++ [newline]

structure OverlongLine (stream before line : List UInt8) : Prop where
  inside : ∃ rest, stream = before ++ line ++ newline :: rest
  starts : StartsLine before
  quiet : newline ∉ line
  overlong : 254 < line.length

/-- The three LED commands, all of them answered by a call or a report. -/
def Executes (text : List UInt8) : Prop :=
  spells text "LED ON" ∨ spells text "LED OFF" ∨ spells text "STATUS"

/-- An overflow notice, an error reply, or a prompt. -/
def Harmless (call : Output) : Prop :=
  call = .uartSendString .bufferOverflow ∨ call = .uartSendString .unknownCommand ∨
    call = .uartSendString .prompt

def completeLines (stream : List UInt8) : List (List UInt8) := (stream.splitOn newline).dropLast

def ledCommand (line : List UInt8) : Option Int :=
  match classify (lineText line) with
  | some .ledOn => some 1
  | some .ledOff => some 0
  | _ => none

def ledCommands (stream : List UInt8) : List Int := (completeLines stream).filterMap ledCommand

def ledActions (out : List Output) : List Int :=
  out.filterMap fun
    | .gpioPinSetDt value _ => some value
    | _ => none

def levelAfter (level : Int) (out : List Output) : Int :=
  out.foldl (fun level call => match call with
    | .gpioPinSetDt value _ => value
    | _ => level) level

def reference (level : Int) (line : List UInt8) : List Output :=
  let text := lineText line
  let calls : List Output :=
    if text = [] then []
    else if spells text "LED ON" then [.gpioPinSetDt 1 0, .uartSendString .ledNowOn]
    else if spells text "LED OFF" then [.gpioPinSetDt 0 0, .uartSendString .ledNowOff]
    else if spells text "STATUS" then [.gpioPinGetDt level,
      .uartSendString (if level ≠ 0 then .stateActive else .stateInactive)]
    else [.uartSendString .unknownCommand]
  calls ++ [.uartSendString .prompt]

/-- A call without what the GPIO driver answered, and a status reply without its value. -/
def Output.shape : Output → Output
  | .gpioPinSetDt value _ => .gpioPinSetDt value 0
  | .gpioPinGetDt _ => .gpioPinGetDt 0
  | .uartSendString .stateActive => .uartSendString .stateInactive
  | .uartSendString text => .uartSendString text

def commandShape : Option Command → List Output
  | none => [.uartSendString .prompt]
  | some .ledOn => [.gpioPinSetDt 1 0, .uartSendString .ledNowOn, .uartSendString .prompt]
  | some .ledOff => [.gpioPinSetDt 0 0, .uartSendString .ledNowOff, .uartSendString .prompt]
  | some .status => [.gpioPinGetDt 0, .uartSendString .stateInactive, .uartSendString .prompt]
  | some .unknown => [.uartSendString .unknownCommand, .uartSendString .prompt]

end ZephyrTutorial.Uart
