import ZephyrTutorial.CheckedBuffer
import ZephyrTutorial.Interaction

/-! The conversation of `sock` with a server. What is outside of `tcpFunction` answers each call as it
likes, within what is documented of the call; an access to memory that is not there is a call that is
never allowed. -/

namespace ZephyrTutorial.Tcp
open CheckedBuffer Program

inductive Family
  | afInet | afInet6
  deriving DecidableEq

inductive SockType
  | sockStream | sockDgram
  deriving DecidableEq

inductive Protocol
  | ipprotoTcp | ipprotoUdp
  deriving DecidableEq

/-- The fields of `zsock_addrinfo` that say what kind of a socket an address is for. -/
structure Hints where
  aiFamily : Family
  aiSocktype : SockType
  aiProtocol : Protocol
  deriving DecidableEq

inductive Log
  | noAddrInfo (ret : Int) | noSocket (sock : Int) | notConnected (ret : Int)
  | connected
  | notSent (errno : Int) | sent (ret : Int)
  | notReceived (errno : Int) | received (ret : Int) (text : List UInt8)
  deriving DecidableEq

inductive Call
  | getaddrinfo (target port : String) (hints : Hints)
  /-- Reads the three fields behind `res`. -/
  | fields (res : Option Nat)
  | socket (fields : Hints)
  /-- With `res->ai_addr`, which belongs to `res`. -/
  | connect (sock : Int) (res : Option Nat)
  | freeaddrinfo (res : Option Nat)
  | send (sock : Int) (bytes : List UInt8)
  | recv (sock : Int) (room : Nat)
  | close (sock : Int)
  | errno
  | log (line : Log)
  | fault (fault : Fault)

abbrev Reply : Call → Type
  | .getaddrinfo _ _ _ => Int × Option Nat
  | .fields _ => Hints
  | .socket _ | .connect _ _ | .send _ _ | .errno => Int
  | .recv _ _ => Int × List UInt8
  | .freeaddrinfo _ | .close _ | .log _ => Unit
  | .fault _ => Empty

def target : String := "tcpbin.com"

def port : String := "4242"

def hints : Hints := ⟨.afInet, .sockStream, .ipprotoTcp⟩

def msg : List UInt8 := "Hello from Zephyr RTOS on ESP32!\n".toList.map fun char => char.toNat.toUInt8

def check {α : Type} : Except Fault α → Program Call Reply α
  | .ok value => .pure value
  | .error fault => .call (.fault fault) nofun

abbrev call (operation : Call) : Program Call Reply (Reply operation) := request operation

/-- From the call of `zsock_recv` on. -/
def receive (sock : Int) : Program Call Reply Int := do
  let (ret, bytes) ← call (.recv sock (1024 - 1))
  if ret < 0 then
    let errno ← call .errno
    call (.log (.notReceived errno))
    call (.close sock)
    let errno ← call .errno
    return -errno
  else
    let buffer ← check ((.unwritten : Buffer UInt8 1024).storeAll 0 bytes)
    let buffer ← check (buffer.store ret 0)
    let text ← check (string buffer.cells.toList)
    call (.log (.received ret text))
    call (.close sock)
    return 0

/-- From the call of `zsock_send` on. -/
def converse (sock : Int) : Program Call Reply Int := do
  let ret ← call (.send sock (CString.contents msg))
  if ret < 0 then
    let errno ← call .errno
    call (.log (.notSent errno))
    call (.close sock)
    let errno ← call .errno
    return -errno
  else
    call (.log (.sent ret))
    receive sock

def tcpFunction : Program Call Reply Int := do
  let (ret, res) ← call (.getaddrinfo target port hints)
  if ret < 0 then
    call (.log (.noAddrInfo ret))
    return 0
  else
    let fields ← call (.fields res)
    let sock ← call (.socket fields)
    if sock < 0 then
      call (.log (.noSocket sock))
      call (.freeaddrinfo res)
      return 0
    else
      let ret ← call (.connect sock res)
      call (.freeaddrinfo res)
      if ret < 0 then
        call (.log (.notConnected ret))
        call (.close sock)
        return 0
      else
        call (.log .connected)
        converse sock

/-- With the kind of socket it is for. -/
inductive Resource
  | addrinfo (res : Nat) (fields : Hints)
  | socket (sock : Int) (fields : Hints)
  deriving DecidableEq

structure State where
  /-- What the caller holds and the function has got and not given back. -/
  own : List Resource
  errno : Int
  /-- The bytes of the connection so far. -/
  sent : List UInt8
  received : List UInt8
  log : List Log

/-- The address list that `res` points to has not been freed. -/
def State.Live (state : State) (res : Option Nat) (fields : Hints) : Prop :=
  ∃ place, res = some place ∧ .addrinfo place fields ∈ state.own

def State.Open (state : State) (sock : Int) (fields : Hints) : Prop := .socket sock fields ∈ state.own

/-- The library. A lookup that fails returns one of the codes in `failure` and no list, and `peer`
says which bytes the server may answer to those it has got. -/
def library (failure : Int → Prop) (peer : List UInt8 → List UInt8 → Prop) : Environment Call Reply State where
  Allowed
    | .getaddrinfo _ _ _, _ | .socket _, _ | .errno, _ | .log _, _ => True
    | .fields res, state | .freeaddrinfo res, state => ∃ fields, state.Live res fields
    | .connect sock res, state => ∃ fields, state.Live res fields ∧ state.Open sock fields
    | .send sock _, state | .close sock, state => ∃ fields, state.Open sock fields
    | .recv sock room, state => (∃ fields, state.Open sock fields) ∧ room ≤ 1024
    | .fault _, _ => False
  Answers
    | .getaddrinfo _ _ hints, state, (ret, res), after =>
      (ret = 0 ∧ ∃ place, res = some place ∧ (∀ fields, .addrinfo place fields ∉ state.own) ∧
        after = { state with own := .addrinfo place hints :: state.own }) ∨
      (failure ret ∧ res = none ∧ after = state)
    | .fields res, state, fields, after => state.Live res fields ∧ after = state
    | .socket fields, state, sock, after =>
      (0 ≤ sock ∧ (∀ fields, .socket sock fields ∉ state.own) ∧
        after = { state with own := .socket sock fields :: state.own }) ∨
      (sock < 0 ∧ ∃ errno, after = { state with errno })
    | .connect _ _, state, ret, after =>
      (ret = 0 ∧ after = { state with sent := [], received := [] }) ∨
      (ret < 0 ∧ ∃ errno, after = { state with errno })
    | .freeaddrinfo res, state, _, after =>
      ∃ place fields, res = some place ∧ .addrinfo place fields ∈ state.own ∧
        after = { state with own := state.own.erase (.addrinfo place fields) }
    | .send _ bytes, state, ret, after =>
      (0 ≤ ret ∧ ret ≤ bytes.length ∧ after = { state with sent := state.sent ++ bytes.take ret.toNat }) ∨
      (ret < 0 ∧ ∃ errno, after = { state with errno })
    | .recv _ room, state, (ret, bytes), after =>
      (ret = bytes.length ∧ bytes.length ≤ room ∧ peer state.sent (state.received ++ bytes) ∧
        after = { state with received := state.received ++ bytes }) ∨
      (ret < 0 ∧ ∃ errno, after = { state with errno })
    | .close sock, state, _, after =>
      ∃ fields errno, state.Open sock fields ∧
        after = { state with own := state.own.erase (.socket sock fields), errno }
    | .errno, state, errno, after => errno = state.errno ∧ after = state
    | .log line, state, _, after => after = { state with log := state.log ++ [line] }
    | .fault _, _, _, _ => False

end ZephyrTutorial.Tcp
