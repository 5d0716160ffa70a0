import ZephyrTutorial.UartHost

/-! The whole UART application: `main` sets the devices up and greets the host on the line on which
the parser thread answers, and a text takes one step for each of its bytes. The console is on the same
line, so that the boot banner and the log may come between any two of these bytes. -/

namespace ZephyrTutorial.UartStartup
open Uart

universe u

variable {γ : Type u}

def greeting : List UInt8 := literal "[init] LED Parser Ready\r\n> "

/-- The next step of `main`. -/
inductive Main
  | isReady | configure | callbackSet | rxEnable
  /-- In `uart_send_string`, with the bytes that it has not sent. -/
  | sending (str : List UInt8)
  | returned (ret : Int)
  deriving DecidableEq, Repr

/-- Both devices have been found ready. -/
def Main.ready : Main → Bool
  | .isReady => false
  | .configure | .callbackSet | .rxEnable | .sending _ => true
  | .returned ret => ret == 0

/-- The interrupt is enabled. -/
def Main.enabled : Main → Bool
  | .isReady | .configure | .callbackSet | .rxEnable => false
  | .sending _ => true
  | .returned ret => ret == 0

/-- The part of the greeting that has not been sent. -/
def Main.unsent : Main → List UInt8
  | .isReady | .configure | .callbackSet | .rxEnable => greeting
  | .sending str => str
  | .returned ret => if ret = 0 then [] else greeting

/-- A byte on the line, with what has sent it. -/
inductive Sent
  | uartSendString (char : UInt8)
  | console (char : UInt8)
  deriving DecidableEq, Repr

structure State (γ : Type u) where
  main : Main
  uart : Uart.State γ
  /-- The bytes that the thread has not sent of its texts. -/
  str : List UInt8
  /-- All bytes that have been sent. -/
  line : List Sent

/-- The bytes of `uart_send_string` on the line, without what the console has put between them. -/
def State.text (state : State γ) : List UInt8 :=
  state.line.filterMap fun
    | .uartSendString char => some char
    | .console _ => none

inductive Event
  /-- The answers of `gpio_is_ready_dt` and `device_is_ready`. -/
  | isReady (gpio device : Bool)
  | gpioPinConfigureDt | uartIrqCallbackSet | uartIrqRxEnable
  /-- `uart_poll_out` of `main`, or its return after the last byte. -/
  | mainPollOut
  /-- `uart_poll_out` of the thread. -/
  | threadPollOut
  /-- A byte of the boot banner, or of a log message of any thread. -/
  | console (char : UInt8)
  | uart (event : Uart.Event)
  deriving DecidableEq, Repr

/-- The LED is as `gpio_pin_configure_dt` leaves it. -/
def boot (temp : Vector UInt8 256) (led : γ) : State γ := ⟨.isReady, Uart.boot temp led, [], []⟩

/-- The callback is entered when the interrupt is enabled, and the thread goes on when its texts are out. -/
def admitted (event : Uart.Event) (state : State γ) : Bool :=
  match event with
  | .uartCallback _ _ => state.main.enabled
  | .kSemTake | .ringBufGet => state.str.isEmpty
  | .uartFifoRead _ | .kSemGive => true

/-- The bytes of the texts that the parser sends between two states. -/
def added (before after : Uart.State γ) : List UInt8 :=
  transmitted (after.parser.board.out.drop before.parser.board.out.length)

def step (dev : Gpio γ) (event : Event) (state : State γ) : Option (State γ) :=
  match event with
  | .isReady gpio device =>
    match state.main with
    | .isReady => some { state with main := if !gpio || !device then .returned (-1) else .configure }
    | _ => none
  | .gpioPinConfigureDt =>
    match state.main with
    | .configure => some { state with main := .callbackSet }
    | _ => none
  | .uartIrqCallbackSet =>
    match state.main with
    | .callbackSet => some { state with main := .rxEnable }
    | _ => none
  | .uartIrqRxEnable =>
    match state.main with
    | .rxEnable => some { state with main := .sending (uartSendString greeting) }
    | _ => none
  | .mainPollOut =>
    match state.main with
    | .sending (char :: str) => some { state with main := .sending str, line := state.line ++ [.uartSendString char] }
    | .sending [] => some { state with main := .returned 0 }
    | _ => none
  | .threadPollOut =>
    match state.str with
    | char :: str => some { state with str, line := state.line ++ [.uartSendString char] }
    | [] => none
  | .console char => some { state with line := state.line ++ [.console char] }
  | .uart event =>
    if admitted event state then
      (Uart.step dev event state.uart).map fun uart => { state with uart, str := state.str ++ added state.uart uart }
    else none

/-- The thread has a lower priority than `main`, which never waits. -/
def Preferred (event : Event) (state : State γ) : Prop :=
  match event with
  | .uart .kSemTake | .uart .ringBufGet | .threadPollOut => ∃ ret, state.main = .returned ret
  | _ => True

/-- The host ends no line before the greeting has come, whatever has come between its bytes. -/
def Patient (event : Event) (state : State γ) : Prop :=
  event = .uart (.uartFifoRead (some newline)) → greeting <+: state.text

instance (event : Event) (state : State γ) : Decidable (Patient event state) := inferInstanceAs (Decidable (_ → _))

/-- What a host that can tell the texts from the console reads after the greeting. -/
def read (state : State γ) : List Text :=
  PrefixCode.decode Text.all Text.bytes (state.text.drop greeting.length)

/-- The host reads the greeting before it sends anything, and the prompt for each line before it goes on, and
no line gets longer than 254 bytes. -/
def Polite (event : Event) (state : State γ) : Prop :=
  match event with
  | .uart (.uartFifoRead (some byte)) =>
    greeting <+: state.text ∧ (read state).count .prompt = state.uart.wire.count newline ∧
      (byte ≠ newline → (unfinished state.uart.wire).length < 254)
  | _ => True

instance : (event : Event) → (state : State γ) → Decidable (Polite event state)
  | .uart (.uartFifoRead (some _)), _ => inferInstanceAs (Decidable (_ ∧ _ ∧ _))
  | .uart (.uartFifoRead none), _ | .uart (.uartCallback _ _), _ | .uart .kSemGive, _ | .uart .kSemTake, _
  | .uart .ringBufGet, _ | .isReady _ _, _ | .gpioPinConfigureDt, _ | .uartIrqCallbackSet, _ | .uartIrqRxEnable, _
  | .mainPollOut, _ | .threadPollOut, _ | .console _, _ => isTrue trivial

/-- A step of `main`, of the thread, or of an interrupt that has read a newline, without an answer from outside. -/
def Event.Own : Event → Prop
  | .isReady _ _ | .console _ => False
  | .uart event => event.Inner
  | .gpioPinConfigureDt | .uartIrqCallbackSet | .uartIrqRxEnable | .mainPollOut | .threadPollOut => True

instance : DecidablePred Event.Own
  | .isReady _ _ | .console _ | .uart (.uartCallback _ _) | .uart (.uartFifoRead _) => isFalse id
  | .uart .kSemGive | .uart .kSemTake | .uart .ringBufGet | .gpioPinConfigureDt | .uartIrqCallbackSet
  | .uartIrqRxEnable | .mainPollOut | .threadPollOut => isTrue trivial

/-- Nothing comes from the host or from the devices. -/
def Event.Undisturbed (event : Event) : Prop := event.Own ∨ ∃ char, event = .console char

end ZephyrTutorial.UartStartup
