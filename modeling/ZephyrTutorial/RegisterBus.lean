import Mathlib.Logic.Function.Basic
import ZephyrTutorial.Guards
import ZephyrTutorial.Machine

/-! `read_register` of the SPI and of the I2C application: any number of threads read registers of one
device over a bus. A transaction takes two transfers, one that tells the device the register and one that
gets its value, and the device keeps in between what it was told last. The device is arbitrary. -/

namespace ZephyrTutorial.RegisterBus

universe u

inductive App
  | spi | i2c
  deriving DecidableEq, Repr

/-- The byte that tells the device which register to send. -/
def App.command : App → UInt8 → UInt8
  | .spi, id => id ||| 0x80
  | .i2c, reg1 => reg1

/-- A device: the byte that it sends, by its registers and by the byte that it was told last. -/
abbrev Sensor := (UInt8 → UInt8) → UInt8 → UInt8

/-- How such devices are addressed. On SPI the highest bit asks for a read, and the others name the register. -/
def App.Addressed : App → Sensor → Prop
  | .spi, sensor => ∀ registers command, 0x80 ≤ command → sensor registers command = registers (command &&& 0x7F)
  | .i2c, sensor => ∀ registers command, sensor registers command = registers command

/-- What the bus leaves room for in a register's name. -/
def App.Names : App → UInt8 → Prop
  | .spi, id => id < 0x80
  | .i2c, _ => True

/-- The read bit leaves the other seven bits to name the register. -/
private theorem spi_register {id : UInt8} (named : id < 0x80) : 0x80 ≤ id ||| 0x80 ∧ (id ||| 0x80) &&& 0x7F = id := by
  have bits : ∀ bits : BitVec 8, bits < 0x80#8 → 0x80#8 ≤ bits ||| 0x80#8 ∧ (bits ||| 0x80#8) &&& 0x7F#8 = bits := by
    decide +kernel
  obtain ⟨read, register⟩ := bits id.toBitVec (UInt8.lt_iff_toBitVec_lt.mp named)
  exact ⟨UInt8.le_iff_toBitVec_le.mpr read, UInt8.toBitVec_inj.mp register⟩

/-- The device sends the register that the application asks for. -/
theorem App.Addressed.asked {app : App} {sensor : Sensor} (addressed : app.Addressed sensor) {id : UInt8}
    (named : app.Names id) (registers : UInt8 → UInt8) : sensor registers (app.command id) = registers id := by
  cases app with
  | spi =>
    obtain ⟨read, register⟩ := spi_register named
    exact (addressed registers _ read).trans (congrArg registers register)
  | i2c => exact addressed registers id

/-- What `main` logs about a call: on SPI its variable in any case, on I2C only after a success. -/
inductive Logged
  | value (byte : UInt8)
  /-- The variable has not been written. -/
  | garbage
  | nothing
  deriving DecidableEq, Repr

/-- A call with its result, and the values that its register had between its begin and its end. -/
structure Line where
  ret : Int
  logged : Logged
  seen : List UInt8

inductive Thread
  | idle
  | locking (id : UInt8)
  | telling (id : UInt8)
  | fetching (id : UInt8)
  | unlocking (ret : Int) (rx : UInt8)
  | logging (ret : Int)
  deriving DecidableEq, Repr

/-- Between the lock and the unlock. -/
def Thread.Critical : Thread → Prop
  | .telling _ | .fetching _ | .unlocking _ _ => True
  | .idle | .locking _ | .logging _ => False

structure State (τ : Type u) where
  registers : UInt8 → UInt8
  /-- What the device was told last. -/
  told : UInt8
  mutex : Kernel.Mutex τ
  threads : τ → Thread
  /-- The variable that each thread passes to `read_register`. -/
  data : τ → Option UInt8
  /-- The register of the thread's call, and the values that it has had since. -/
  register : τ → UInt8
  seen : τ → List UInt8
  lines : τ → List Line

inductive Event (τ : Type u)
  /-- The sensor changes the registers. -/
  | sense (registers : UInt8 → UInt8)
  | readRegister (thread : τ) (id : UInt8)
  | kMutexLock (thread : τ)
  /-- A transfer of the driver with its result. -/
  | transfer (thread : τ) (ret : Int)
  | kMutexUnlock (thread : τ)
  | log (thread : τ)

def boot {τ : Type u} (registers : UInt8 → UInt8) : State τ :=
  ⟨registers, 0, .init, fun _ => .idle, fun _ => none, fun _ => 0, fun _ => [], fun _ => []⟩

section Step
variable {τ : Type u} [DecidableEq τ]

def State.goto (state : State τ) (thread : τ) (place : Thread) : State τ :=
  { state with threads := Function.update state.threads thread place }

def App.logged (app : App) (ret : Int) (data : Option UInt8) : Logged :=
  match app, data with
  | .i2c, _ => if ret = 0 then (match data with | some byte => .value byte | none => .garbage) else .nothing
  | .spi, some byte => .value byte
  | .spi, none => .garbage

def State.line (app : App) (state : State τ) (thread : τ) (ret : Int) : Line :=
  ⟨ret, app.logged ret (state.data thread), state.seen thread⟩

def step (app : App) (sensor : Sensor) (event : Event τ) (state : State τ) : Option (State τ) :=
  match event with
  | .sense registers =>
    some { state with
      registers
      seen := fun thread => state.seen thread ++ [registers (state.register thread)] }
  | .readRegister thread id =>
    match state.threads thread with
    | .idle =>
      some ({ state with
        -- On I2C the variable is declared in the loop.
        data := match app with | .spi => state.data | .i2c => Function.update state.data thread none
        register := Function.update state.register thread id
        seen := Function.update state.seen thread [state.registers id] }.goto thread (.locking id))
    | _ => none
  | .kMutexLock thread =>
    match state.threads thread with
    | .locking id => (state.mutex.lock thread).map fun mutex => { state with mutex }.goto thread (.telling id)
    | _ => none
  | .transfer thread ret =>
    match state.threads thread with
    | .telling id =>
      if ret = 0 then some ({ state with told := app.command id }.goto thread (.fetching id))
      else some (state.goto thread (.unlocking ret 0))
    | .fetching _ =>
      if ret = 0 then
        let byte := sensor state.registers state.told
        some ({ state with
          -- The I2C driver stores into the variable itself.
          data := match app with | .spi => state.data | .i2c => Function.update state.data thread (some byte) }.goto
            thread (.unlocking ret byte))
      else some (state.goto thread (.unlocking ret 0))
    | _ => none
  | .kMutexUnlock thread =>
    match state.threads thread with
    | .unlocking ret rx =>
      some ({ state with
        mutex := state.mutex.unlock thread
        data := match app with
          | .spi => if ret = 0 then Function.update state.data thread (some rx) else state.data
          | .i2c => state.data }.goto thread (.logging ret))
    | _ => none
  | .log thread =>
    match state.threads thread with
    | .logging ret =>
      some ({ state with
        lines := Function.update state.lines thread (state.lines thread ++ [state.line app thread ret]) }.goto
          thread .idle)
    | _ => none

end Step

/-- A thread asks for a register that the bus can name. -/
def App.Asks (app : App) (event : Event τ) : Prop := ∀ thread id, event = .readRegister thread id → app.Names id

/-- What the last line has logged. -/
def latest (lines : List Line) : Logged := (lines.getLast?.map Line.logged).getD .garbage

/-- After a failure nothing is logged on I2C, while on SPI the value of the last line is logged again. -/
def App.failed (app : App) (lines : List Line) : Logged :=
  match app with
  | .spi => latest lines
  | .i2c => .nothing

/-- A success logs a value that the register has had during the call. -/
structure Faithful (app : App) (lines : List Line) : Prop where
  fresh : ∀ line ∈ lines, line.ret = 0 → ∃ byte ∈ line.seen, line.logged = .value byte
  stale : ∀ before line after, lines = before ++ line :: after → line.ret ≠ 0 → line.logged = app.failed before

end ZephyrTutorial.RegisterBus
