import ZephyrTutorial.CString
import ZephyrTutorial.Kernel
import ZephyrTutorial.Machine

/-! The UART command parser: the receive interrupt, the ring and the semaphore behind it,
and the parser thread's loop over the received bytes. The GPIO driver is arbitrary, so
its calls may fail at any time. -/

namespace ZephyrTutorial.Uart
open Kernel CString

universe u

def newline : UInt8 := 10

def carriageReturn : UInt8 := 13

/-- The bytes of a string literal, without the terminating NUL. -/
def literal (text : String) : List UInt8 := text.toList.map (fun char => char.toNat.toUInt8)

inductive Text
  | ledNowOn | ledNowOff | stateActive | stateInactive | unknownCommand | prompt | bufferOverflow
  deriving DecidableEq, Repr

def Text.bytes : Text → List UInt8
  | .ledNowOn => literal "[ACK] LED is now ON\r\n"
  | .ledNowOff => literal "[ACK] LED is now OFF\r\n"
  | .stateActive => literal "[STATUS] LED State: ACTIVE\r\n"
  | .stateInactive => literal "[STATUS] LED State: INACTIVE\r\n"
  | .unknownCommand => literal "[ERR] Unknown Command! Use: LED ON | LED OFF | STATUS\r\n"
  | .prompt => literal "> "
  | .bufferOverflow => literal "\r\n[ERR] Buffer overflow\r\n> "

def uartSendString : List UInt8 → List UInt8
  | [] => []
  | char :: str => if char = 0 then [] else char :: uartSendString str

/-- A call that leaves the parser, with the driver's answer. -/
inductive Output
  | gpioPinSetDt (value ret : Int)
  | gpioPinGetDt (ret : Int)
  | uartSendString (text : Text)
  deriving DecidableEq, Repr

def transmitted (out : List Output) : List UInt8 :=
  out.flatMap fun
    | .uartSendString text => uartSendString text.bytes
    | _ => []

/-- No text contains a NUL, so each of them is sent whole. -/
theorem uartSendString_bytes (text : Text) : uartSendString text.bytes = text.bytes := by
  cases text <;> decide +kernel

structure Gpio (γ : Type u) where
  pinSetDt : Int → γ → Int × γ
  pinGetDt : γ → Int × γ

/-- A pin whose calls succeed and that reads back the value it was last set to. -/
def workingPin : Gpio Int where
  pinSetDt value _ := (0, value)
  pinGetDt level := (level, level)

structure Board (γ : Type u) where
  led : γ
  out : List Output

namespace Board
variable {γ : Type u}

def gpioPinSetDt (dev : Gpio γ) (value : Int) (board : Board γ) : Board γ :=
  let answer := dev.pinSetDt value board.led
  ⟨answer.2, board.out ++ [.gpioPinSetDt value answer.1]⟩

def gpioPinGetDt (dev : Gpio γ) (board : Board γ) : Int × Board γ :=
  let answer := dev.pinGetDt board.led
  (answer.1, ⟨answer.2, board.out ++ [.gpioPinGetDt answer.1]⟩)

def send (text : Text) (board : Board γ) : Board γ :=
  { board with out := board.out ++ [.uartSendString text] }

end Board

/-- The locals of `producer_thread`. A `uint8_t` index cannot leave `temp`. -/
structure Parser (γ : Type u) where
  temp : Vector UInt8 256
  idx : UInt8
  board : Board γ

variable {γ : Type u}

/-- `temp` is not initialized before the loop. -/
def Parser.start (temp : Vector UInt8 256) (led : γ) : Parser γ := ⟨temp, 0, led, []⟩

/-- The NUL goes over a trailing '\r' if there is one, and over the newline otherwise. -/
def terminate (temp : Vector UInt8 256) (idx : UInt8) : Vector UInt8 256 :=
  if 0 < idx ∧ temp.get (idx - 1).toFin = carriageReturn then
    temp.set (idx - 1).toNat 0 (idx - 1).toNat_lt
  else temp.set idx.toNat 0 idx.toNat_lt

/-- The comparison chain on the terminated buffer. -/
def dispatch (dev : Gpio γ) (temp : List UInt8) (board : Board γ) : Board γ :=
  if 0 < strlen temp then
    if strcasecmp temp (literal "LED ON") = 0 then
      (board.gpioPinSetDt dev 1).send .ledNowOn
    else if strcasecmp temp (literal "LED OFF") = 0 then
      (board.gpioPinSetDt dev 0).send .ledNowOff
    else if strcasecmp temp (literal "STATUS") = 0 then
      let (state, board) := board.gpioPinGetDt dev
      board.send (if state ≠ 0 then .stateActive else .stateInactive)
    else board.send .unknownCommand
  else board

/-- The inner loop for one byte, which `ring_buf_get` has stored at `temp[idx]`. -/
def loopBody (dev : Gpio γ) (parser : Parser γ) (byte : UInt8) : Parser γ :=
  let idx := parser.idx
  let temp := parser.temp.set idx.toNat byte idx.toNat_lt
  if temp.get idx.toFin = newline then
    let temp := terminate temp idx
    ⟨temp, 0, (dispatch dev temp.toList parser.board).send .prompt⟩
  else if idx < 254 then ⟨temp, idx + 1, parser.board⟩
  else ⟨temp, 0, parser.board.send .bufferOverflow⟩

/-- Outside the callback, inside its read loop, or between the put of a newline and its give. -/
inductive Callback
  | idle | reading | giving
  deriving DecidableEq, Repr

inductive Thread
  | taking | draining
  deriving DecidableEq, Repr

/-- The shared objects, both parties, and the history of the bytes that went through. -/
structure State (γ : Type u) where
  rxBuf : RingBuf UInt8 256
  rxSem : Sem 1
  callback : Callback
  thread : Thread
  parser : Parser γ
  wire : List UInt8
  accepted : List UInt8
  consumed : List UInt8

inductive Event
  /-- `uart_callback` is entered, with the answers of `uart_irq_update` and `uart_irq_rx_ready`. -/
  | uartCallback (update rxReady : Bool)
  /-- `uart_fifo_read` yields a byte, which goes into the ring, or nothing, which ends the loop. -/
  | uartFifoRead (byte : Option UInt8)
  | kSemGive
  | kSemTake
  | ringBufGet
  deriving DecidableEq, Repr

def boot (temp : Vector UInt8 256) (led : γ) : State γ where
  rxBuf := .empty
  rxSem := ⟨0, by decide⟩
  callback := .idle
  thread := .taking
  parser := .start temp led
  wire := []
  accepted := []
  consumed := []

/-- The callback ignores what `ring_buf_put` returns; only the history looks at it. -/
def ringBufPut (byte : UInt8) (state : State γ) : State γ :=
  let (stored, rxBuf) := state.rxBuf.put byte
  { state with
    rxBuf
    callback := if byte = newline then .giving else .reading
    wire := state.wire ++ [byte]
    accepted := state.accepted ++ if stored = 1 then [byte] else [] }

def step (dev : Gpio γ) (event : Event) (state : State γ) : Option (State γ) :=
  match event with
  | .uartCallback update rxReady =>
    if state.callback = .idle then
      some { state with callback := if update && rxReady then .reading else .idle }
    else none
  | .uartFifoRead none =>
    if state.callback = .reading then some { state with callback := .idle } else none
  | .uartFifoRead (some byte) =>
    if state.callback = .reading then some (ringBufPut byte state) else none
  | .kSemGive =>
    if state.callback = .giving then
      some { state with rxSem := state.rxSem.give, callback := .reading }
    else none
  | .kSemTake =>
    if state.thread = .taking then
      state.rxSem.take.map fun rxSem => { state with rxSem, thread := .draining }
    else none
  | .ringBufGet =>
    if state.thread = .draining then
      match state.rxBuf.get with
      | none => some { state with thread := .taking }
      | some (byte, rxBuf) =>
        some { state with
          rxBuf
          parser := loopBody dev state.parser byte
          consumed := state.consumed ++ [byte] }
    else none

def sequential (dev : Gpio γ) (parser : Parser γ) (bytes : List UInt8) : Parser γ :=
  bytes.foldl (loopBody dev) parser

/-- The calls made while the parser consumes the given bytes. -/
def callsWhile (dev : Gpio γ) (parser : Parser γ) (bytes : List UInt8) : List Output :=
  (sequential dev parser bytes).board.out.drop parser.board.out.length

end ZephyrTutorial.Uart
