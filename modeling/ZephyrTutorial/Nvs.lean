import ZephyrTutorial.Machine

/-! The boot counter over a history of boots. The flash holds the boot count record, every
call may fail, and the power may go at any point; then the next boot starts. -/

namespace ZephyrTutorial.Nvs

def enoent : Int := 2
def enodev : Int := 19

/-- A negative errno, with what the call has left in its buffer. -/
structure Failure where
  code : Int
  buffer : UInt32
  negative : code < 0
  deriving DecidableEq

/-- `init_nvs`, with the results of its three calls. -/
def initNvs (deviceIsReady : Bool) (flashGetPageInfoByOffs nvsMount : Int) : Int :=
  if !deviceIsReady then -enodev
  else if flashGetPageInfoByOffs ≠ 0 then flashGetPageInfoByOffs
  else if nvsMount ≠ 0 then nvsMount
  else 0

/-- The result of `nvs_read` and the new value of `boot_count`: the record with its length, or an error. -/
def nvsRead (failure : Option Failure) (record : Option UInt32) (bootCount : UInt32) : Int × UInt32 :=
  match failure, record with
  | some failure, _ => (failure.code, failure.buffer)
  | none, some count => (4, count)
  | none, none => (-enoent, bootCount)

inductive Main
  | initializing | reading | recovering | counting | writing | reporting | returned
  deriving DecidableEq, Repr

structure State where
  record : Option UInt32
  /-- The record when this boot started. -/
  before : Option UInt32
  main : Main
  ret : Int
  bootCount : UInt32
  deriving DecidableEq

def powerOn (record : Option UInt32) : State where
  record := record
  before := record
  main := .initializing
  ret := 0
  bootCount := 0

inductive Event
  | initNvs (deviceIsReady : Bool) (flashGetPageInfoByOffs nvsMount : Int)
  | nvsRead (failure : Option Failure)
  | recover
  | increment
  | nvsWrite (committed : Bool) (ret : Int)
  | report
  | powerCut
  deriving DecidableEq

def step (event : Event) (state : State) : Option State :=
  match event, state.main with
  | .initNvs deviceIsReady flashGetPageInfoByOffs nvsMount, .initializing =>
    let ret := Nvs.initNvs deviceIsReady flashGetPageInfoByOffs nvsMount
    some { state with ret, main := if ret ≠ 0 then .returned else .reading }
  | .nvsRead failure, .reading =>
    let (ret, bootCount) := Nvs.nvsRead failure state.record state.bootCount
    some { state with ret, bootCount, main := .recovering }
  | .recover, .recovering =>
    -- Both the missing record and every error go through the else branch.
    some { state with bootCount := if state.ret > 0 then state.bootCount else 0, main := .counting }
  | .increment, .counting => some { state with bootCount := state.bootCount + 1, main := .writing }
  | .nvsWrite committed ret, .writing =>
    -- The write replaces the record or leaves it, whatever it returns.
    some { state with record := if committed then some state.bootCount else state.record, ret, main := .reporting }
  | .report, .reporting => some { state with main := .returned }
  | .powerCut, _ => some (powerOn state.record)
  | _, _ => none

/-- What a boot may do to the record. -/
def Lawful (before after : Option UInt32) : Prop :=
  match before with
  | some count => after = some count ∨ after = some (count + 1)
  | none => after = none ∨ after = some 1

/-- A write that reaches the flash comes after a read that worked, or there is no count to lose. -/
def CountRead (event : Event) (state : State) : Prop :=
  match event, state.main with
  | .nvsWrite true _, .writing => 0 < state.ret ∨ ∀ count, state.record = some count → count = 0 ∨ count = 1
  | _, _ => True

end ZephyrTutorial.Nvs
