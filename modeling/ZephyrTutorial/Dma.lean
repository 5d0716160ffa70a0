import Mathlib.Logic.Function.Basic
import ZephyrTutorial.Kernel
import ZephyrTutorial.Machine

/-! The DMA demo: `main` fills a buffer, has it copied and compares the copy, once the interrupt of the
engine has given the semaphore. The engine may copy bytes in any order, and may stop with any status and
any of the bytes not copied. -/

namespace ZephyrTutorial.Dma

inductive Log
  | notReady
  | configFailed (ret : Int) | startFailed (ret : Int)
  | started
  | transferSuccessful | transferFailed (status : Int)
  | mismatch (index : Nat) (src dest : UInt8)
  | passed
  deriving DecidableEq, Repr

/-- The next step of `main`; the two loops are at an index. -/
inductive Main
  | isReady
  | filling (i : Nat)
  | config | start | logStarted
  | semTake
  | comparing (i : Nat)
  | returned
  deriving DecidableEq, Repr

/-- The engine, and `dma_callback` once it has stopped. -/
inductive Engine
  | idle | copying
  | stopped (status : Int)
  | giving
  | quiet
  deriving DecidableEq, Repr

structure State where
  main : Main
  engine : Engine
  srcBuffer : Fin 64 → UInt8
  destBuffer : Fin 64 → UInt8
  dmaSem : Kernel.Sem 1
  /-- The indices that the engine has copied. -/
  copied : List (Fin 64)
  log : List Log

/-- Static buffers hold zeros. -/
def boot : State := ⟨.isReady, .idle, fun _ => 0, fun _ => 0, .down, [], []⟩

inductive Event
  | deviceIsReady (ready : Bool)
  | fill
  | dmaConfig (ret : Int) | dmaStart (ret : Int)
  | logStarted
  | kSemTake
  | compare
  /-- The engine copies a byte, or stops. -/
  | copy (i : Fin 64) | stop (status : Int)
  /-- The two statements of `dma_callback`. -/
  | logTransfer | kSemGive
  deriving DecidableEq, Repr

/-- An iteration of the loop that fills the buffers, or its end. -/
def fillByte (i : Nat) (state : State) : State :=
  if inside : i < 64 then
    { state with
      srcBuffer := Function.update state.srcBuffer ⟨i, inside⟩ i.toUInt8
      destBuffer := Function.update state.destBuffer ⟨i, inside⟩ 0
      main := .filling (i + 1) }
  else { state with main := .config }

/-- An iteration of the loop that compares the buffers, or its end. -/
def compareByte (i : Nat) (state : State) : State :=
  if inside : i < 64 then
    let src := state.srcBuffer ⟨i, inside⟩
    let dest := state.destBuffer ⟨i, inside⟩
    if src ≠ dest then { state with log := state.log ++ [.mismatch i src dest], main := .returned }
    else { state with main := .comparing (i + 1) }
  else { state with log := state.log ++ [.passed], main := .returned }

def step (event : Event) (state : State) : Option State :=
  match event, state.main, state.engine with
  | .deviceIsReady ready, .isReady, _ =>
    if ready then some { state with main := .filling 0 }
    else some { state with log := state.log ++ [.notReady], main := .returned }
  | .fill, .filling i, _ => some (fillByte i state)
  | .dmaConfig ret, .config, _ =>
    if ret ≠ 0 then some { state with log := state.log ++ [.configFailed ret], main := .returned }
    else some { state with main := .start }
  | .dmaStart ret, .start, _ =>
    if ret ≠ 0 then some { state with log := state.log ++ [.startFailed ret], main := .returned }
    else some { state with engine := .copying, main := .logStarted }
  | .logStarted, .logStarted, _ => some { state with log := state.log ++ [.started], main := .semTake }
  | .kSemTake, .semTake, _ => state.dmaSem.take.map fun dmaSem => { state with dmaSem, main := .comparing 0 }
  | .compare, .comparing i, _ => some (compareByte i state)
  | .copy i, _, .copying =>
    some { state with
      destBuffer := Function.update state.destBuffer i (state.srcBuffer i)
      copied := state.copied ++ [i] }
  | .stop status, _, .copying => some { state with engine := .stopped status }
  | .logTransfer, _, .stopped status =>
    some { state with
      log := state.log ++ [if 0 ≤ status then .transferSuccessful else .transferFailed status]
      engine := .giving }
  | .kSemGive, _, .giving => some { state with dmaSem := state.dmaSem.give, engine := .quiet }
  | _, _, _ => none

/-- All bytes are copied but perhaps the first, in which the buffers agree from the start. -/
def Complete (state : State) : Prop := ∀ i : Fin 64, i ≠ 0 → i ∈ state.copied

/-- The first byte that tells the buffers apart. -/
def FirstMissing (state : State) (i : Fin 64) : Prop :=
  i ≠ 0 ∧ i ∉ state.copied ∧ ∀ j < i, j ≠ 0 → j ∈ state.copied

/-- The lines of the log after the callback's are the verdict on what has been copied. -/
structure Judged (state : State) : Prop where
  passed : .passed ∈ state.log → Complete state
  mismatch : ∀ (index : Nat) src dest, .mismatch index src dest ∈ state.log →
    ∃ i : Fin 64, FirstMissing state i ∧ index = i ∧ src = i.val.toUInt8 ∧ dest = 0
  /-- No verdict comes before the report of the transfer. -/
  reported : ∀ before line after, state.log = before ++ line :: after →
    (line = .passed ∨ ∃ index src dest, line = .mismatch index src dest) →
      .transferSuccessful ∈ before ∨ ∃ status < 0, .transferFailed status ∈ before

/-- A step that the processor takes by itself. -/
def Event.Own : Event → Prop
  | .deviceIsReady _ | .dmaConfig _ | .dmaStart _ | .copy _ | .stop _ => False
  | _ => True

end ZephyrTutorial.Dma
