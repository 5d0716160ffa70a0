import ZephyrTutorial.Kernel
import ZephyrTutorial.Machine

/-! Two applications that wait for the network with one semaphore for the Wi-Fi connect result
and one for the address: `wifi` then reports that it is online, `sock` talks to a server. The
network may deliver its events to the callbacks between any two steps of `main`. -/

namespace ZephyrTutorial.Network

inductive App
  | wifi | sock
  deriving DecidableEq, Repr

/-- The events that the callbacks are registered for. A connect result has the status that
`cb->info` points to, nonzero when the association failed. -/
inductive NetEvent
  | wifiConnectResult (status : Int)
  | wifiDisconnectResult
  | ipv4AddrAdd
  deriving DecidableEq, Repr

/-- The next call of `main`. -/
inductive Main
  /-- `net_mgmt_add_event_callback`, for `wifi_cb` and then for `ip_cb`. -/
  | addWifiCallback | addIpCallback
  | netIfGetDefault
  /-- The connect request. -/
  | netMgmt
  | kSemTakeWifi | kSemTakeIp
  | logReady
  /-- Only `sock` gets here. -/
  | tcpFunction
  /-- Inside `tcp_function`, which waits for the server without a limit. -/
  | inTcpFunction
  /-- In the endless loop at the end. -/
  | sleeping
  | returned
  deriving DecidableEq, Repr

structure State where
  main : Main
  wifiConnected : Kernel.Sem 1
  ipReady : Kernel.Sem 1
  /-- The events delivered so far. -/
  history : List NetEvent
  /-- The history at the moment at which `main` took itself to be online. -/
  online : Option (List NetEvent)
  deriving DecidableEq

def boot : State := ⟨.addWifiCallback, .down, .down, [], none⟩

/-- The event belongs to the mask of a callback that has been added. -/
def registered (main : Main) : NetEvent → Bool
  | .wifiConnectResult _ | .wifiDisconnectResult => main != .addWifiCallback
  | .ipv4AddrAdd => main != .addWifiCallback && main != .addIpCallback

/-- The status of a connect result is not looked at, and a disconnect is only logged. -/
def wifiCallback (event : NetEvent) (state : State) : State :=
  match event with
  | .wifiConnectResult _ => { state with wifiConnected := state.wifiConnected.give }
  | .wifiDisconnectResult | .ipv4AddrAdd => state

def ipCallback (event : NetEvent) (state : State) : State :=
  match event with
  | .ipv4AddrAdd => { state with ipReady := state.ipReady.give }
  | .wifiConnectResult _ | .wifiDisconnectResult => state

inductive Event
  | deliver (event : NetEvent)
  | netMgmtAddEventCallback
  | netIfGetDefault (found : Bool)
  | netMgmt (ret : Int)
  | kSemTake
  /-- The 20 seconds of a `k_sem_take` are over. -/
  | timeout
  | logInf
  /-- `tcp_function` is called. -/
  | tcpFunction
  /-- `tcp_function` comes back, which it need not do. -/
  | tcpReturn
  deriving DecidableEq, Repr

def step (app : App) (event : Event) (state : State) : Option State :=
  match event, state.main with
  | .deliver event, main =>
    if registered main event then
      some (ipCallback event (wifiCallback event { state with history := state.history ++ [event] }))
    else none
  | .netMgmtAddEventCallback, .addWifiCallback => some { state with main := .addIpCallback }
  | .netMgmtAddEventCallback, .addIpCallback => some { state with main := .netIfGetDefault }
  | .netIfGetDefault found, .netIfGetDefault =>
    -- Without an interface `wifi` gives up, while `sock` logs an error and goes on.
    some { state with main := if found || app == .sock then .netMgmt else .returned }
  | .netMgmt ret, .netMgmt => some { state with main := if ret ≠ 0 then .returned else .kSemTakeWifi }
  | .kSemTake, .kSemTakeWifi =>
    state.wifiConnected.take.map fun wifiConnected => { state with wifiConnected, main := .kSemTakeIp }
  | .kSemTake, .kSemTakeIp =>
    state.ipReady.take.map fun ipReady => { state with ipReady, main := .logReady }
  | .timeout, .kSemTakeWifi =>
    if state.wifiConnected.count = 0 then some { state with main := .returned } else none
  | .timeout, .kSemTakeIp =>
    if state.ipReady.count = 0 then some { state with main := .returned } else none
  | .logInf, .logReady =>
    match app with
    | .wifi => some { state with main := .sleeping, online := some state.history }
    | .sock => some { state with main := .tcpFunction }
  | .tcpFunction, .tcpFunction => some { state with main := .inTcpFunction, online := some state.history }
  | .tcpReturn, .inTcpFunction => some { state with main := .sleeping }
  | _, _ => none

def NetEvent.Association : NetEvent → Prop
  | .wifiConnectResult _ | .wifiDisconnectResult => True
  | .ipv4AddrAdd => False

/-- The latest association event is a successful connect, and an address was added after it. -/
def Connected (history : List NetEvent) : Prop :=
  ∃ early late, history = early ++ .wifiConnectResult 0 :: late ∧
    (∀ event ∈ late, ¬ event.Association) ∧ .ipv4AddrAdd ∈ late

/-- Whenever `main` took itself to be online it was connected. -/
def Truthful (state : State) : Prop := ∀ history, state.online = some history → Connected history

/-- Both semaphores have been given at some time. -/
def Complete (history : List NetEvent) : Prop :=
  (∃ status, .wifiConnectResult status ∈ history) ∧ .ipv4AddrAdd ∈ history

/-- Nothing but addresses has come since a successful connect, and none before it. -/
def InOrder (history : List NetEvent) : Prop :=
  ∃ early late, history = early ++ .wifiConnectResult 0 :: late ∧
    .ipv4AddrAdd ∉ early ∧ ∀ event ∈ late, event = .ipv4AddrAdd

/-- `main` has neither come to its last loop, or to `tcp_function` before it, nor returned. -/
def Main.starting : Main → Bool
  | .inTcpFunction | .sleeping | .returned => false
  | _ => true

/-- An event that reaches `main` while it is starting up leaves the history in order, unless
one of the two kinds of events that `main` waits for has not come yet. -/
def Orderly (event : Event) (state : State) : Prop :=
  ∀ delivered, event = .deliver delivered → registered state.main delivered = true →
    state.main.starting = true → Complete (state.history ++ [delivered]) →
      InOrder (state.history ++ [delivered])

/-- A step of `main` itself. -/
def Event.Own (event : Event) : Prop := ∀ delivered, event ≠ .deliver delivered

instance : DecidablePred Event.Own
  | .deliver delivered => isFalse fun own => own delivered rfl
  | .netMgmtAddEventCallback | .netIfGetDefault _ | .netMgmt _ | .kSemTake | .timeout | .logInf | .tcpFunction
  | .tcpReturn => isTrue (by simp [Event.Own])

/-- The interface is there, and it accepts the connect request. -/
def Event.Granted : Event → Prop
  | .netIfGetDefault found => found = true
  | .netMgmt ret => ret = 0
  | .deliver _ | .netMgmtAddEventCallback | .kSemTake | .timeout | .logInf | .tcpFunction | .tcpReturn => True

end ZephyrTutorial.Network
