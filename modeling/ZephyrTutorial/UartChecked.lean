import ZephyrTutorial.CheckedBuffer
import ZephyrTutorial.Uart

/-! The parser's loop with every access to `temp` checked. A line begins with nothing written,
so what an earlier line has left behind is no more readable than the uninitialized array. -/

namespace ZephyrTutorial.Uart.Checked
open CheckedBuffer

variable {γ : Type}

/-- What a C string function is given: `temp`, and `idx` at the time of the call. -/
structure Call where
  temp : Buffer UInt8 256
  idx : UInt8

/-- A NUL stands at `idx` or before it, and every byte up to it has been written. -/
def Call.Terminated (call : Call) : Prop :=
  ∃ last ≤ call.idx.toNat, call.temp.cells[last]? = some (some 0) ∧
    ∀ index ≤ last, ∃ byte, call.temp.cells[index]? = some (some byte)

/-- The locals of `producer_thread`, and the calls of `strlen` and `strcasecmp` so far. -/
structure Parser (γ : Type) where
  temp : Buffer UInt8 256
  idx : UInt8
  board : Board γ
  calls : List Call

def Parser.start (led : γ) : Parser γ := ⟨.unwritten, 0, ⟨led, []⟩, []⟩

namespace Parser

def called (parser : Parser γ) : Parser γ := { parser with calls := parser.calls ++ [⟨parser.temp, parser.idx⟩] }

def strlen (parser : Parser γ) : Except Fault (Nat × Parser γ) := do
  let length ← CheckedBuffer.strlen parser.temp.cells.toList
  pure (length, parser.called)

def strcasecmp (parser : Parser γ) (word : String) : Except Fault (Int × Parser γ) := do
  let order ← CheckedBuffer.strcasecmp parser.temp.cells.toList (literal word)
  pure (order, parser.called)

def send (parser : Parser γ) (text : Text) : Parser γ := { parser with board := parser.board.send text }

def gpioPinSetDt (dev : Gpio γ) (value : Int) (parser : Parser γ) : Parser γ :=
  { parser with board := parser.board.gpioPinSetDt dev value }

def gpioPinGetDt (dev : Gpio γ) (parser : Parser γ) : Int × Parser γ :=
  let (state, board) := parser.board.gpioPinGetDt dev
  (state, { parser with board })

end Parser

/-- The second operand of the `&&` is read only if the first one holds. -/
def terminate (temp : Buffer UInt8 256) (idx : UInt8) : Except Fault (Buffer UInt8 256) := do
  if 0 < idx then
    let last ← temp.load (idx.toNat - 1)
    if last = carriageReturn then temp.store (idx.toNat - 1) 0 else temp.store idx.toNat 0
  else temp.store idx.toNat 0

/-- The comparison chain on the terminated buffer. -/
def dispatch (dev : Gpio γ) (parser : Parser γ) : Except Fault (Parser γ) := do
  let (length, parser) ← parser.strlen
  if 0 < length then
    let (ledOn, parser) ← parser.strcasecmp "LED ON"
    if ledOn = 0 then pure ((parser.gpioPinSetDt dev 1).send .ledNowOn)
    else
      let (ledOff, parser) ← parser.strcasecmp "LED OFF"
      if ledOff = 0 then pure ((parser.gpioPinSetDt dev 0).send .ledNowOff)
      else
        let (status, parser) ← parser.strcasecmp "STATUS"
        if status = 0 then
          let (state, parser) := parser.gpioPinGetDt dev
          pure (parser.send (if state ≠ 0 then .stateActive else .stateInactive))
        else pure (parser.send .unknownCommand)
  else pure parser

/-- The inner loop for one byte. Where `idx` is set to 0 a new line begins. -/
def loopBody (dev : Gpio γ) (parser : Parser γ) (byte : UInt8) : Except Fault (Parser γ) := do
  -- `ring_buf_get` stores the byte at `temp[idx]`.
  let temp ← parser.temp.store parser.idx.toNat byte
  let read ← temp.load parser.idx.toNat
  if read = newline then
    let temp ← terminate temp parser.idx
    let parser ← dispatch dev { parser with temp }
    pure { parser.send .prompt with temp := .unwritten, idx := 0 }
  else if parser.idx < 254 then
    let idx ← increment parser.idx
    pure { parser with temp, idx }
  else pure { parser.send .bufferOverflow with temp := .unwritten, idx := 0 }

def sequential (dev : Gpio γ) (parser : Parser γ) (bytes : List UInt8) : Except Fault (Parser γ) :=
  bytes.foldlM (loopBody dev) parser

/-- The checked parser stands where the plain one does, and every byte that it has written in the
current line is the one in memory. -/
structure Matches (checked : Parser γ) (parser : Uart.Parser γ) : Prop where
  idx : checked.idx = parser.idx
  board : checked.board = parser.board
  temp : ∀ (index : Nat) byte, checked.temp.cells[index]? = some (some byte) → parser.temp[index]? = some byte

end ZephyrTutorial.Uart.Checked
