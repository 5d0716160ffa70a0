import ZephyrTutorial.Proofs.NetworkOnline

/-! The way of `main` to its endless loop: it waits for nothing that has already come. -/

namespace ZephyrTutorial.Proofs.NetworkStartup
open ZephyrTutorial.Network Machine Kernel NetworkOnline

variable {app : App} {event : Event} {state next : State}

/-- How many steps are still ahead of `main`, the return from `tcp_function` included. -/
def ahead : Main → Nat
  | .addWifiCallback => 9
  | .addIpCallback => 8
  | .netIfGetDefault => 7
  | .netMgmt => 6
  | .kSemTakeWifi => 5
  | .kSemTakeIp => 4
  | .logReady => 3
  | .tcpFunction => 2
  | .inTcpFunction => 1
  | .sleeping | .returned => 0

/-- The moves of `main` alone, as `Took` lists them, all go forward. -/
private theorem ahead_move : ∀ pair ∈ [(Main.addWifiCallback, Main.addIpCallback), (.addIpCallback, .netIfGetDefault),
    (.netIfGetDefault, .netMgmt), (.netIfGetDefault, .returned), (.netMgmt, .kSemTakeWifi), (.netMgmt, .returned),
    (.kSemTakeWifi, .returned), (.kSemTakeIp, .returned), (.logReady, .tcpFunction), (.inTcpFunction, .sleeping)],
    ahead pair.2 < ahead pair.1 := by
  decide

private theorem ahead_report : ∀ pair ∈ [(Main.logReady, Main.sleeping), (.tcpFunction, .inTcpFunction)],
    ahead pair.2 < ahead pair.1 := by
  decide

private theorem ahead_lower (event : Event) (state next : State) (own : event.Own)
    (taken : step app event state = some next) : ahead next.main < ahead state.main := by
  cases step_took taken with
  | connect | disconnect | address => exact absurd rfl (own _)
  | takeWifi here =>
    rw [here]
    exact Nat.lt_succ_self 4
  | takeIp here =>
    rw [here]
    exact Nat.lt_succ_self 3
  | @report _ main _ onward => exact ahead_report (state.main, main) onward
  | @move _ main _ onward => exact ahead_move (state.main, main) onward

private theorem ahead_quiet (event : Event) (state next : State) (other : ¬ event.Own)
    (taken : step app event state = some next) : ahead next.main ≤ ahead state.main := by
  cases step_took taken with
  | connect | disconnect | address => exact Nat.le_refl _
  | takeWifi | takeIp => exact absurd (by simp [Event.Own]) other
  | report own | move own => exact absurd own other

/-- Where `main` may be after it has taken itself to be online. -/
def Arrived (app : App) (main : Main) : Prop := main = .sleeping ∨ app = .sock ∧ main = .inTcpFunction

/-- Both kinds of events have come, and `main` is on its way or has seen at least this history. -/
structure Onward (app : App) (history : List NetEvent) (state : State) : Prop where
  tracks : Tracks state
  grown : history <+: state.history
  complete : Complete state.history
  sock : state.main = .tcpFunction → app = .sock
  online : state.main.starting = false → Arrived app state.main ∧ ∃ seen, state.online = some seen ∧ history <+: seen

variable {history : List NetEvent}

/-- What `main` does alone leaves the history, and only its last steps set what it has seen. -/
private theorem Onward.goOn (onward : Onward app history state) {later : State} (tracks : Tracks later)
    (same : later.history = state.history) (starting : later.main.starting = true)
    (sock : later.main = .tcpFunction → app = .sock) : Onward app history later where
  tracks := tracks
  grown := same ▸ onward.grown
  complete := same ▸ onward.complete
  sock := sock
  online past := absurd (starting.symm.trans past) (by decide)

theorem Onward.report (onward : Onward app history state) {main : Main} (arrived : Arrived app main)
    (tracks : Tracks { state with main, online := some state.history }) :
    Onward app history { state with main, online := some state.history } where
  tracks := tracks
  grown := onward.grown
  complete := onward.complete
  sock here := by rcases arrived with rfl | ⟨_, rfl⟩ <;> cases here
  online _ := ⟨arrived, state.history, rfl, onward.grown⟩

/-- When `tcp_function` comes back, what `main` has seen stays. -/
private theorem Onward.comeBack (onward : Onward app history state) (here : state.main = .inTcpFunction)
    (tracks : Tracks { state with main := .sleeping }) : Onward app history { state with main := .sleeping } where
  tracks := tracks
  grown := onward.grown
  complete := onward.complete
  sock := nofun
  online _ := ⟨.inl rfl, (onward.online (by rw [here]; rfl)).2⟩

private theorem complete_append {delivered : NetEvent} (complete : Complete state.history) :
    Complete (state.history ++ [delivered]) := by
  obtain ⟨⟨status, associated⟩, addressed⟩ := complete
  exact ⟨⟨status, List.mem_append_left _ associated⟩, List.mem_append_left _ addressed⟩

/-- What the network does leaves `main` where it is. -/
private theorem deliver_frame {delivered : NetEvent} (taken : step app (.deliver delivered) state = some next) :
    next.main = state.main ∧ next.online = state.online ∧ next.history = state.history ++ [delivered] := by
  cases step_took taken with
  | connect | disconnect | address => exact ⟨rfl, rfl, rfl⟩
  | report own | move own => exact absurd rfl (own delivered)

theorem Onward.deliver (onward : Onward app history state) {delivered : NetEvent}
    (taken : step app (.deliver delivered) state = some next) : Onward app history next := by
  obtain ⟨main, online, grown⟩ := deliver_frame taken
  exact {
    tracks := tracks_step onward.tracks (step_took taken)
    grown := grown ▸ onward.grown.trans (List.prefix_append _ _)
    complete := grown ▸ complete_append onward.complete
    sock := main ▸ onward.sock
    online := main ▸ online ▸ onward.online }

/-- A `k_sem_take` whose semaphore is up does not run out of time. -/
private theorem Onward.timely (onward : Onward app history state) : step app .timeout state = none := by
  obtain ⟨associated, addressed⟩ := onward.complete
  unfold step
  cases here : state.main with
  | kSemTakeWifi =>
    have up := onward.tracks.kept (by rw [here]; rfl) associated
    simp [up]
  | kSemTakeIp =>
    have up := onward.tracks.keptIp (by rw [here]; rfl) addressed
    simp [up]
  | _ => rfl

private theorem onward_step (event : Event) (state next : State) (onward : Onward app history state)
    (granted : event.Granted) (taken : step app event state = some next) : Onward app history next := by
  have tracks := tracks_step onward.tracks (step_took taken)
  have heard (delivered : NetEvent) (same : event = .deliver delivered) : Onward app history next := by
    subst same
    exact onward.deliver taken
  have untimed : event ≠ .timeout := by
    rintro rfl
    rw [onward.timely] at taken
    cases taken
  unfold step at taken
  split at taken
  next delivered => exact heard delivered rfl
  next here => cases taken; exact onward.goOn tracks rfl rfl (by simp)
  next here => cases taken; exact onward.goOn tracks rfl rfl (by simp)
  next found here =>
    cases (granted : found = true)
    cases taken
    exact onward.goOn tracks rfl rfl (by simp)
  next ret here =>
    cases (granted : ret = 0)
    cases taken
    exact onward.goOn tracks rfl rfl (by simp)
  next here =>
    obtain ⟨wifiConnected, counted, rfl⟩ := Option.map_eq_some_iff.mp taken
    exact onward.goOn tracks rfl rfl (by simp)
  next here =>
    obtain ⟨ipReady, counted, rfl⟩ := Option.map_eq_some_iff.mp taken
    exact onward.goOn tracks rfl rfl (by simp)
  next => exact absurd rfl untimed
  next => exact absurd rfl untimed
  next here =>
    cases app with
    | wifi => cases taken; exact onward.report (.inl rfl) tracks
    | sock => cases taken; exact onward.goOn tracks rfl rfl fun _ => rfl
  next here => cases taken; exact onward.report (.inr ⟨onward.sock here, rfl⟩) tracks
  next here => cases taken; exact onward.comeBack here tracks
  next => cases taken

/-- Wherever `main` is on its way, its next call goes through. -/
private theorem Onward.able (onward : Onward app history state) (starting : state.main.starting = true) :
    ∃ event later, event.Own ∧ event.Granted ∧ step app event state = some later := by
  obtain ⟨associated, addressed⟩ := onward.complete
  cases here : state.main with
  | addWifiCallback => exact ⟨.netMgmtAddEventCallback, _, by simp [Event.Own], trivial, by simp only [step, here]; rfl⟩
  | addIpCallback => exact ⟨.netMgmtAddEventCallback, _, by simp [Event.Own], trivial, by simp only [step, here]; rfl⟩
  | netIfGetDefault => exact ⟨.netIfGetDefault true, _, by simp [Event.Own], rfl, by simp only [step, here]; rfl⟩
  | netMgmt => exact ⟨.netMgmt 0, _, by simp [Event.Own], rfl, by simp only [step, here]; rfl⟩
  | kSemTakeWifi =>
    have up := onward.tracks.kept (by rw [here]; rfl) associated
    obtain ⟨wifiConnected, took⟩ := state.wifiConnected.exists_take (by omega)
    exact ⟨.kSemTake, _, by simp [Event.Own], trivial, by simp only [step, here, took]; rfl⟩
  | kSemTakeIp =>
    have up := onward.tracks.keptIp (by rw [here]; rfl) addressed
    obtain ⟨ipReady, took⟩ := state.ipReady.exists_take (by omega)
    exact ⟨.kSemTake, _, by simp [Event.Own], trivial, by simp only [step, here, took]; rfl⟩
  | logReady =>
    cases app with
    | wifi => exact ⟨.logInf, _, by simp [Event.Own], trivial, by simp only [step, here]; rfl⟩
    | sock => exact ⟨.logInf, _, by simp [Event.Own], trivial, by simp only [step, here]; rfl⟩
  | tcpFunction => exact ⟨.tcpFunction, _, by simp [Event.Own], trivial, by simp only [step, here]; rfl⟩
  | inTcpFunction | sleeping | returned =>
    rw [here] at starting
    cases starting

/-- The callback for the address is the last that `main` adds. -/
private theorem ahead_of_complete (tracks : Tracks state) (complete : Complete state.history) :
    ahead state.main ≤ 7 := by
  have first : state.main ≠ .addWifiCallback := fun here => tracks.deaf (.inl here) complete.2
  have second : state.main ≠ .addIpCallback := fun here => tracks.deaf (.inr here) complete.2
  cases here : state.main with
  | addWifiCallback => exact absurd here first
  | addIpCallback => exact absurd here second
  | _ => simp [ahead]

private theorem tcp_step (event : Event) (state next : State) (sock : state.main = .tcpFunction → app = .sock)
    (taken : step app event state = some next) : next.main = .tcpFunction → app = .sock := by
  intro here
  cases step_took taken with
  | connect | disconnect | address => exact sock here
  | takeWifi | takeIp => cases here
  | report own onward =>
    simp only [List.mem_cons, Prod.mk.injEq, List.not_mem_nil, or_false] at onward
    rcases onward with ⟨_, rfl⟩ | ⟨_, rfl⟩ <;> cases here
  | move own onward =>
    cases (here : _ = Main.tcpFunction)
    have ready : state.main = .logReady := by simpa using onward
    cases app with
    | sock => rfl
    | wifi =>
      cases event with
      | deliver delivered => exact absurd rfl (own delivered)
      | _ => simp [step, ready] at taken

/-- Once a connect result and an address have both come while `main` is still starting up, no wait
of it can run out of time, whatever else the network delivers. If the interface is there and
accepts the request, each call that is left goes through, until `main` is online with a history
that goes on from the one in which both had come: in its endless loop, or with `sock` in
`tcp_function`, from which it need not come back. At most seven steps of its own are left, the
return from `tcp_function` included. -/
theorem waits_for_nothing_past (app : App) {before more : List Event} {middle final : State}
    (reached : run (step app) before boot = some middle) (starting : middle.main.starting = true)
    (complete : Complete middle.history) (granted : ∀ event ∈ more, event.Granted)
    (ran : run (step app) more middle = some final) :
    .timeout ∉ more ∧ (more.filter (Event.Own ·)).length ≤ 7 ∧
      if final.main.starting then
        ∃ event later, event.Own ∧ event.Granted ∧ step app event final = some later
      else
        (final.main = .sleeping ∨ app = .sock ∧ final.main = .inTcpFunction) ∧
          ∃ seen, final.online = some seen ∧ middle.history <+: seen := by
  have tracks : Tracks middle := by
    refine invariant (fun event state next tracks taken => ?_) tracks_boot reached
    exact tracks_step tracks (step_took taken)
  have sock : middle.main = .tcpFunction → app = .sock :=
    invariant tcp_step (fun here => by cases here) reached
  have onward : Onward app middle.history middle :=
    ⟨tracks, List.prefix_rfl, complete, sock, fun past => absurd (starting.symm.trans past) (by decide)⟩
  have kept {first : List Event} (part : ∀ event ∈ first, event.Granted) {state : State}
      (ran : run (step app) first middle = some state) : Onward app middle.history state :=
    invariant_along onward_step (along_of_forall (fun event member _ => part event member) middle) onward ran
  refine ⟨fun timed => ?_, ?_, ?_⟩
  · obtain ⟨first, rest, rfl⟩ := List.append_of_mem timed
    obtain ⟨state, early, late⟩ := run_split ran
    obtain ⟨next, taken, -⟩ := run_cons.mp late
    have timely := kept (fun event member => granted event (List.mem_append_left _ member)) early
    rw [timely.timely] at taken
    cases taken
  · have counted := filter_le_measure ahead_lower ahead_quiet (fun event _ => Decidable.em event.Own) ran
    have left := ahead_of_complete tracks complete
    omega
  · have last := kept granted ran
    split
    next awake => exact last.able awake
    next done => exact last.online (Bool.eq_false_iff.mpr done)

/-- The results come before `sock` asks for its connection, and a disconnect comes while it waits. -/
theorem waits_for_nothing_past_sock :
    let more : List Event := [.netIfGetDefault true, .netMgmt 0, .kSemTake, .deliver .wifiDisconnectResult, .kSemTake,
      .logInf, .tcpFunction]
    .timeout ∉ more ∧ (more.filter (Event.Own ·)).length ≤ 7 ∧ ∃ final,
      run (step .sock) more ⟨.netIfGetDefault, Sem.down.give, Sem.down.give,
        [.wifiConnectResult 0, .ipv4AddrAdd], none⟩ = some final ∧
      final.main = .inTcpFunction ∧ ∃ seen, final.online = some seen ∧ [.wifiConnectResult 0, .ipv4AddrAdd] <+: seen := by
  intro more
  have reached : run (step .sock) [.netMgmtAddEventCallback, .netMgmtAddEventCallback,
      .deliver (.wifiConnectResult 0), .deliver .ipv4AddrAdd] boot =
      some ⟨.netIfGetDefault, Sem.down.give, Sem.down.give, [.wifiConnectResult 0, .ipv4AddrAdd], none⟩ := rfl
  have granted : ∀ event ∈ more, event.Granted := by simp [more, Event.Granted]
  obtain ⟨timely, few, _, online⟩ := waits_for_nothing_past .sock reached rfl ⟨⟨0, by simp⟩, by simp⟩ granted rfl
  exact ⟨timely, few, _, rfl, rfl, online⟩

end ZephyrTutorial.Proofs.NetworkStartup
