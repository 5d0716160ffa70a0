import ZephyrTutorial.PrefixCode
import ZephyrTutorial.UartLines

/-! The line from the host's side: what it reads off the bytes that come back, and how it sends
if it waits for the prompt after every line. -/

namespace ZephyrTutorial.Uart
open PrefixCode

universe u

variable {γ : Type u}

def Text.all : List Text :=
  [.ledNowOn, .ledNowOff, .stateActive, .stateInactive, .unknownCommand, .prompt, .bufferOverflow]

def texts (out : List Output) : List Text :=
  out.filterMap fun
    | .uartSendString text => some text
    | _ => none

/-- What the host reads off the bytes that the parser has transmitted. -/
def heard (state : State γ) : List Text := decode Text.all Text.bytes (transmitted state.parser.board.out)

/-- The bytes since the last newline. -/
def unfinished (stream : List UInt8) : List UInt8 := (stream.splitOn newline).getLastD []

/-- A byte goes on the wire only if every line before it has brought its prompt back, and no
line gets longer than 254 bytes. -/
def Lockstep (event : Event) (state : State γ) : Prop :=
  match event with
  | .uartFifoRead (some byte) =>
    (heard state).count .prompt = state.wire.count newline ∧
      (byte ≠ newline → (unfinished state.wire).length < 254)
  | _ => True

instance : (event : Event) → (state : State γ) → Decidable (Lockstep event state)
  | .uartFifoRead (some _), _ => inferInstanceAs (Decidable (_ ∧ _))
  | .uartFifoRead none, _ | .uartCallback _ _, _ | .kSemGive, _ | .kSemTake, _ | .ringBufGet, _ => isTrue trivial

/-- The answers to complete lines of any length, one after the other. -/
def respondAll (dev : Gpio γ) (led : γ) : List (List UInt8) → γ × List Output
  | [] => (led, [])
  | line :: later =>
    let answer := respond dev led line
    let rest := respondAll dev answer.1 later
    (rest.1, answer.2 ++ rest.2)

/-- The answers to lines that fit. -/
def replyAll (dev : Gpio γ) (led : γ) : List (List UInt8) → γ × List Output
  | [] => (led, [])
  | line :: later =>
    let answer := reply dev led line
    let rest := replyAll dev answer.1 later
    (rest.1, answer.2 ++ rest.2)

/-- A step that needs no further byte: of the parser thread, or the give of a newline that has
been read. -/
def Event.Inner : Event → Prop
  | .kSemGive | .kSemTake | .ringBufGet => True
  | .uartCallback _ _ | .uartFifoRead _ => False

end ZephyrTutorial.Uart
