import ZephyrTutorial.Network

/-! When online means connected. A semaphore remembers that an event has come, and neither
its status nor what came after it, so only the order of the events can make the report true. -/

namespace ZephyrTutorial.Proofs.NetworkOnline
open ZephyrTutorial.Network Machine Kernel

variable {app : App} {event : Event} {state next : State}

/-- Everything that a step can do. The last case are the moves of `main` alone. -/
inductive Took (app : App) (state : State) : Event → State → Prop
  | connect (status : Int) (added : state.main ≠ .addWifiCallback) :
    Took app state (.deliver (.wifiConnectResult status))
      { state with
        wifiConnected := state.wifiConnected.give
        history := state.history ++ [.wifiConnectResult status] }
  | disconnect (added : state.main ≠ .addWifiCallback) :
    Took app state (.deliver .wifiDisconnectResult)
      { state with history := state.history ++ [.wifiDisconnectResult] }
  | address (added : state.main ≠ .addWifiCallback ∧ state.main ≠ .addIpCallback) :
    Took app state (.deliver .ipv4AddrAdd)
      { state with ipReady := state.ipReady.give, history := state.history ++ [.ipv4AddrAdd] }
  | takeWifi {wifiConnected : Sem 1} (here : state.main = .kSemTakeWifi)
    (counted : state.wifiConnected.count = wifiConnected.count + 1) :
    Took app state .kSemTake { state with wifiConnected, main := .kSemTakeIp }
  | takeIp {ipReady : Sem 1} (here : state.main = .kSemTakeIp)
    (counted : state.ipReady.count = ipReady.count + 1) :
    Took app state .kSemTake { state with ipReady, main := .logReady }
  | report {event : Event} {main : Main} (own : event.Own)
    (onward : (state.main, main) ∈ [(.logReady, .sleeping), (.tcpFunction, .inTcpFunction)]) :
    Took app state event { state with main, online := some state.history }
  | move {event : Event} {main : Main} (own : event.Own)
    (onward : (state.main, main) ∈ [(.addWifiCallback, .addIpCallback), (.addIpCallback, .netIfGetDefault),
      (.netIfGetDefault, .netMgmt), (.netIfGetDefault, .returned), (.netMgmt, .kSemTakeWifi),
      (.netMgmt, .returned), (.kSemTakeWifi, .returned), (.kSemTakeIp, .returned), (.logReady, .tcpFunction),
      (.inTcpFunction, .sleeping)]) :
    Took app state event { state with main }

theorem step_took (taken : step app event state = some next) : Took app state event next := by
  unfold step at taken
  split at taken
  next delivered =>
    split at taken
    next added =>
      cases taken
      cases delivered with
      | wifiConnectResult status => exact .connect status (by simpa [registered] using added)
      | wifiDisconnectResult => exact .disconnect (by simpa [registered] using added)
      | ipv4AddrAdd => exact .address (by simpa [registered] using added)
    next => cases taken
  next here => cases taken; exact .move nofun (by simp [here])
  next here => cases taken; exact .move nofun (by simp [here])
  next found here => cases taken; exact .move nofun (by rw [here]; split <;> decide)
  next ret here => cases taken; exact .move nofun (by rw [here]; split <;> decide)
  next here =>
    obtain ⟨wifiConnected, counted, rfl⟩ := Option.map_eq_some_iff.mp taken
    exact .takeWifi here (Sem.take_eq_some.mp counted)
  next here =>
    obtain ⟨ipReady, counted, rfl⟩ := Option.map_eq_some_iff.mp taken
    exact .takeIp here (Sem.take_eq_some.mp counted)
  next here =>
    split at taken
    · cases taken
      exact .move nofun (by simp [here])
    · cases taken
  next here =>
    split at taken
    · cases taken
      exact .move nofun (by simp [here])
    · cases taken
  next here =>
    cases app with
    | wifi => cases taken; exact .report nofun (by simp [here])
    | sock => cases taken; exact .move nofun (by simp [here])
  next here => cases taken; exact .report nofun (by simp [here])
  next here => cases taken; exact .move nofun (by simp [here])
  next => cases taken

/-- `main` has not taken its first semaphore. -/
def beforeWifi : Main → Bool
  | .addWifiCallback | .addIpCallback | .netIfGetDefault | .netMgmt | .kSemTakeWifi => true
  | .kSemTakeIp | .logReady | .tcpFunction | .inTcpFunction | .sleeping | .returned => false

/-- `main` has not taken its second semaphore. -/
def beforeIp : Main → Bool
  | .addWifiCallback | .addIpCallback | .netIfGetDefault | .netMgmt | .kSemTakeWifi | .kSemTakeIp => true
  | .logReady | .tcpFunction | .inTcpFunction | .sleeping | .returned => false

def Associated (history : List NetEvent) : Prop := ∃ status, .wifiConnectResult status ∈ history

/-- What the semaphores and the place of `main` tell about the history. -/
structure Tracks (state : State) : Prop where
  given : state.wifiConnected.count ≠ 0 → Associated state.history
  givenIp : state.ipReady.count ≠ 0 → .ipv4AddrAdd ∈ state.history
  kept : beforeWifi state.main = true → Associated state.history → state.wifiConnected.count = 1
  keptIp : beforeIp state.main = true → .ipv4AddrAdd ∈ state.history → state.ipReady.count = 1
  taken : state.main.starting = true → beforeWifi state.main = false → Associated state.history
  takenIp : state.main.starting = true → beforeIp state.main = false → .ipv4AddrAdd ∈ state.history
  deaf : state.main = .addWifiCallback ∨ state.main = .addIpCallback → .ipv4AddrAdd ∉ state.history

theorem tracks_boot : Tracks boot where
  given up := absurd rfl up
  givenIp up := absurd rfl up
  kept _ known := by
    obtain ⟨_, member⟩ := known
    cases member
  keptIp _ member := by cases member
  taken _ before := by cases before
  takenIp _ before := by cases before
  deaf _ member := by cases member

private theorem give_one (sem : Sem 1) : sem.give.count = 1 := by
  have positive := sem.give_pos (by decide)
  have bounded := sem.give.bounded
  omega

private theorem associated_append {history : List NetEvent} {event : NetEvent} :
    Associated (history ++ [event]) ↔ Associated history ∨ ∃ status, event = .wifiConnectResult status := by
  simp only [Associated, List.mem_append, List.mem_singleton, exists_or, eq_comm]

/-- The moves of `main` alone are steps of the starting phase and take no semaphore. -/
theorem tracks_move (tracks : Tracks state) {main : Main}
    (starting : main.starting = true → state.main.starting = true)
    (wifi : main.starting = true → beforeWifi main = beforeWifi state.main)
    (ip : main.starting = true → beforeIp main = beforeIp state.main)
    (waiting : beforeWifi main = true → beforeWifi state.main = true)
    (waitingIp : beforeIp main = true → beforeIp state.main = true)
    (deaf : main = .addWifiCallback ∨ main = .addIpCallback →
      state.main = .addWifiCallback ∨ state.main = .addIpCallback) : Tracks { state with main } where
  given := tracks.given
  givenIp := tracks.givenIp
  kept before := tracks.kept (waiting before)
  keptIp before := tracks.keptIp (waitingIp before)
  taken start after := tracks.taken (starting start) ((wifi start).symm.trans after)
  takenIp start after := tracks.takenIp (starting start) ((ip start).symm.trans after)
  deaf early := tracks.deaf (deaf early)

theorem tracks_step (tracks : Tracks state) (took : Took app state event next) : Tracks next := by
  have sooner {delivered : NetEvent} (known : Associated state.history) : Associated (state.history ++ [delivered]) :=
    associated_append.mpr (.inl known)
  cases took with
  | connect status added =>
    have now : Associated (state.history ++ [.wifiConnectResult status]) :=
      associated_append.mpr (.inr ⟨status, rfl⟩)
    exact {
      given := fun _ => now
      givenIp := fun up => List.mem_append_left _ (tracks.givenIp up)
      kept := fun _ _ => give_one _
      keptIp := fun before member => tracks.keptIp before (by simpa using member)
      taken := fun _ _ => now
      takenIp := fun start after => List.mem_append_left _ (tracks.takenIp start after)
      deaf := fun early member => tracks.deaf early (by simpa using member) }
  | disconnect added =>
    exact {
      given := fun up => sooner (tracks.given up)
      givenIp := fun up => List.mem_append_left _ (tracks.givenIp up)
      kept := fun before known => tracks.kept before (by simpa [associated_append] using known)
      keptIp := fun before member => tracks.keptIp before (by simpa using member)
      taken := fun start after => sooner (tracks.taken start after)
      takenIp := fun start after => List.mem_append_left _ (tracks.takenIp start after)
      deaf := fun early member => tracks.deaf early (by simpa using member) }
  | address added =>
    have now : .ipv4AddrAdd ∈ state.history ++ [.ipv4AddrAdd] := by simp
    exact {
      given := fun up => sooner (tracks.given up)
      givenIp := fun _ => now
      kept := fun before known => tracks.kept before (by simpa [associated_append] using known)
      keptIp := fun _ _ => give_one _
      taken := fun start after => sooner (tracks.taken start after)
      takenIp := fun _ _ => now
      deaf := fun early _ => early.elim added.1 added.2 }
  | takeWifi here counted =>
    have known : Associated state.history := tracks.given (by omega)
    exact {
      given := fun _ => known
      givenIp := tracks.givenIp
      kept := fun before => by cases before
      keptIp := fun _ => tracks.keptIp (by rw [here]; rfl)
      taken := fun _ _ => known
      takenIp := fun _ after => by cases after
      deaf := fun early => by rcases early with early | early <;> cases early }
  | takeIp here counted =>
    have known : Associated state.history := tracks.taken (by rw [here]; rfl) (by rw [here]; rfl)
    have addressed : .ipv4AddrAdd ∈ state.history := tracks.givenIp (by omega)
    exact {
      given := tracks.given
      givenIp := fun _ => addressed
      kept := fun before => by cases before
      keptIp := fun before => by cases before
      taken := fun _ _ => known
      takenIp := fun _ _ => addressed
      deaf := fun early => by rcases early with early | early <;> cases early }
  | report own onward =>
    simp only [List.mem_cons, Prod.mk.injEq, List.not_mem_nil, or_false] at onward
    rcases onward with ⟨_, rfl⟩ | ⟨_, rfl⟩ <;> exact {
      given := tracks.given
      givenIp := tracks.givenIp
      kept := fun before => by cases before
      keptIp := fun before => by cases before
      taken := fun start => by cases start
      takenIp := fun start => by cases start
      deaf := fun early => by rcases early with early | early <;> cases early }
  | @move event main own onward =>
    simp only [List.mem_cons, Prod.mk.injEq, List.not_mem_nil, or_false] at onward
    rcases onward with ⟨here, rfl⟩ | ⟨here, rfl⟩ | ⟨here, rfl⟩ | ⟨here, rfl⟩ | ⟨here, rfl⟩ | ⟨here, rfl⟩ |
      ⟨here, rfl⟩ | ⟨here, rfl⟩ | ⟨here, rfl⟩ | ⟨here, rfl⟩ <;>
      apply tracks_move tracks <;> simp [here, Main.starting, beforeWifi, beforeIp]

/-- By steps of its own `main` can come to take itself to be online with the present history. -/
def Reports (app : App) (state : State) : Prop :=
  ∃ drain final, (∀ event ∈ drain, event.Own) ∧ run (step app) drain state = some final ∧
    final.online = some state.history

theorem Reports.before (taken : step app event state = some next) (own : event.Own)
    (same : next.history = state.history) (later : Reports app next) : Reports app state := by
  obtain ⟨drain, final, owns, ran, online⟩ := later
  refine ⟨event :: drain, final, ?_, run_cons.mpr ⟨next, taken, ran⟩, online.trans (congrArg some same)⟩
  intro other member
  rcases List.mem_cons.mp member with rfl | member
  · exact own
  · exact owns other member

private theorem reports_now {final : State} (taken : step app event state = some final) (own : event.Own)
    (online : final.online = some state.history) : Reports app state := by
  refine ⟨[event], final, fun other member => ?_, run_cons.mpr ⟨final, taken, rfl⟩, online⟩
  rw [List.mem_singleton.mp member]
  exact own

private theorem reports_tcpFunction (here : state.main = .tcpFunction) : Reports app state := by
  have taken : step app .tcpFunction state =
      some { state with main := .inTcpFunction, online := some state.history } := by
    simp [step, here]
  exact reports_now taken nofun rfl

private theorem reports_ready (here : state.main = .logReady) : Reports app state := by
  cases app with
  | wifi =>
    have taken : step .wifi .logInf state = some { state with main := .sleeping, online := some state.history } := by
      simp [step, here]
    exact reports_now taken nofun rfl
  | sock =>
    have taken : step .sock .logInf state = some { state with main := .tcpFunction } := by
      simp [step, here]
    exact .before taken nofun rfl (reports_tcpFunction rfl)

private theorem reports_takeIp (here : state.main = .kSemTakeIp) (up : state.ipReady.count = 1) :
    Reports app state := by
  obtain ⟨ipReady, took⟩ := state.ipReady.exists_take (by omega)
  have taken : step app .kSemTake state = some { state with ipReady, main := .logReady } := by
    simp [step, here, took]
  exact .before taken nofun rfl (reports_ready rfl)

private theorem reports_takeWifi (here : state.main = .kSemTakeWifi) (up : state.wifiConnected.count = 1)
    (upIp : state.ipReady.count = 1) : Reports app state := by
  obtain ⟨wifiConnected, took⟩ := state.wifiConnected.exists_take (by omega)
  have taken : step app .kSemTake state = some { state with wifiConnected, main := .kSemTakeIp } := by
    simp [step, here, took]
  exact .before taken nofun rfl (reports_takeIp rfl upIp)

private theorem reports_request (here : state.main = .netMgmt) (up : state.wifiConnected.count = 1)
    (upIp : state.ipReady.count = 1) : Reports app state := by
  have taken : step app (.netMgmt 0) state = some { state with main := .kSemTakeWifi } := by
    simp [step, here]
  exact .before taken nofun rfl (reports_takeWifi rfl up upIp)

/-- Once both kinds of events have come, nothing but its own steps is between `main` and its report. -/
private theorem reports_of_complete (app : App) (tracks : Tracks state) (starting : state.main.starting = true)
    (complete : Complete state.history) : Reports app state := by
  obtain ⟨associated, addressed⟩ := complete
  cases here : state.main with
  | addWifiCallback => exact absurd addressed (tracks.deaf (.inl here))
  | addIpCallback => exact absurd addressed (tracks.deaf (.inr here))
  | netIfGetDefault =>
    have taken : step app (.netIfGetDefault true) state = some { state with main := .netMgmt } := by
      simp [step, here]
    have up := tracks.kept (by rw [here]; rfl) associated
    exact .before taken nofun rfl (reports_request rfl up (tracks.keptIp (by rw [here]; rfl) addressed))
  | netMgmt =>
    have up := tracks.kept (by rw [here]; rfl) associated
    exact reports_request here up (tracks.keptIp (by rw [here]; rfl) addressed)
  | kSemTakeWifi =>
    have up := tracks.kept (by rw [here]; rfl) associated
    exact reports_takeWifi here up (tracks.keptIp (by rw [here]; rfl) addressed)
  | kSemTakeIp => exact reports_takeIp here (tracks.keptIp (by rw [here]; rfl) addressed)
  | logReady => exact reports_ready here
  | tcpFunction => exact reports_tcpFunction here
  | inTcpFunction | sleeping | returned =>
    rw [here] at starting
    cases starting

private theorem connected_of_inOrder {history : List NetEvent} (addressed : .ipv4AddrAdd ∈ history)
    (inOrder : InOrder history) : Connected history := by
  obtain ⟨early, late, rfl, none, addresses⟩ := inOrder
  refine ⟨early, late, rfl, fun event member => ?_, ?_⟩
  · rw [addresses event member]
    exact id
  · rcases List.mem_append.mp addressed with before | after
    · exact absurd before none
    · rcases List.mem_cons.mp after with impossible | after
      · cases impossible
      · exact after

/-- What makes a connected history of one that was in order was one more address. -/
private theorem inOrder_of_connected {history : List NetEvent} {last : NetEvent}
    (ordered : Complete history → InOrder history) (connected : Connected (history ++ [last])) :
    InOrder (history ++ [last]) := by
  obtain ⟨early, late, shape, quiet, addressed⟩ := connected
  rcases List.eq_nil_or_concat' late with rfl | ⟨middle, final, rfl⟩
  · cases addressed
  · rw [← List.cons_append, ← List.append_assoc] at shape
    obtain ⟨rfl, same⟩ := List.append_inj' shape rfl
    cases same
    have address : last = .ipv4AddrAdd := by
      cases last with
      | ipv4AddrAdd => rfl
      | wifiConnectResult status => exact absurd trivial (quiet (.wifiConnectResult status) (by simp))
      | wifiDisconnectResult => exact absurd trivial (quiet .wifiDisconnectResult (by simp))
    subst address
    by_cases before : .ipv4AddrAdd ∈ early ++ .wifiConnectResult 0 :: middle
    · obtain ⟨first, rest, whole, none, addresses⟩ := ordered ⟨⟨0, by simp⟩, before⟩
      refine ⟨first, rest ++ [.ipv4AddrAdd], by rw [whole]; simp, none, fun event member => ?_⟩
      rcases List.mem_append.mp member with member | member
      · exact addresses event member
      · exact List.mem_singleton.mp member
    · refine ⟨early, middle ++ [.ipv4AddrAdd], by simp, fun member => before (List.mem_append_left _ member), ?_⟩
      intro event member
      rcases List.mem_append.mp member with member | member
      · cases event with
        | ipv4AddrAdd => rfl
        | wifiConnectResult status => exact absurd trivial (quiet _ (List.mem_append_left _ member))
        | wifiDisconnectResult => exact absurd trivial (quiet _ (List.mem_append_left _ member))
      · exact List.mem_singleton.mp member

structure Settled (state : State) : Prop where
  tracks : Tracks state
  ordered : state.main.starting = true → Complete state.history → InOrder state.history
  truthful : Truthful state

private theorem settled_boot : Settled boot :=
  ⟨tracks_boot, (fun _ complete => by cases complete.2), (fun _ impossible => by cases impossible)⟩

theorem settled_step (event : Event) (state next : State) (settled : Settled state) (orderly : Orderly event state)
    (taken : step app event state = some next) : Settled next := by
  have took := step_took taken
  have tracks := tracks_step settled.tracks took
  cases took with
  | connect status added => exact ⟨tracks, orderly _ rfl (by simpa [registered] using added), settled.truthful⟩
  | disconnect added => exact ⟨tracks, orderly _ rfl (by simpa [registered] using added), settled.truthful⟩
  | address added => exact ⟨tracks, orderly _ rfl (by simpa [registered] using added), settled.truthful⟩
  | takeWifi here counted => exact ⟨tracks, fun _ => settled.ordered (by rw [here]; rfl), settled.truthful⟩
  | takeIp here counted => exact ⟨tracks, fun _ => settled.ordered (by rw [here]; rfl), settled.truthful⟩
  | @report event main own onward =>
    simp only [List.mem_cons, Prod.mk.injEq, List.not_mem_nil, or_false] at onward
    have here : state.main = .logReady ∨ state.main = .tcpFunction := onward.imp And.left And.left
    have past : main.starting = false := by rcases onward with ⟨_, rfl⟩ | ⟨_, rfl⟩ <;> rfl
    refine ⟨tracks, (fun impossible => absurd (past.symm.trans impossible) (by decide)), fun history same => ?_⟩
    cases same
    have starting : state.main.starting = true := by rcases here with here | here <;> rw [here] <;> rfl
    have associated := settled.tracks.taken starting (by rcases here with here | here <;> rw [here] <;> rfl)
    have addressed := settled.tracks.takenIp starting (by rcases here with here | here <;> rw [here] <;> rfl)
    exact connected_of_inOrder addressed (settled.ordered starting ⟨associated, addressed⟩)
  | @move event main own onward =>
    have starting : main.starting = true → state.main.starting = true := by
      simp only [List.mem_cons, Prod.mk.injEq, List.not_mem_nil, or_false] at onward
      rcases onward with ⟨here, rfl⟩ | ⟨here, rfl⟩ | ⟨here, rfl⟩ | ⟨here, rfl⟩ | ⟨here, rfl⟩ | ⟨here, rfl⟩ |
        ⟨here, rfl⟩ | ⟨here, rfl⟩ | ⟨here, rfl⟩ | ⟨here, rfl⟩ <;> simp [here, Main.starting]
    exact ⟨tracks, fun start => settled.ordered (starting start), settled.truthful⟩

private theorem deliver_next (app : App) {delivered : NetEvent} (added : registered state.main delivered = true) :
    ∃ next, step app (.deliver delivered) state = some next ∧ next.main = state.main ∧
      next.history = state.history ++ [delivered] := by
  refine ⟨_, by rw [step]; exact if_pos added, ?_⟩
  cases delivered <;> exact ⟨rfl, rfl⟩

private theorem orderly_tight (app : App) : Tight (step app) Orderly Settled Truthful Event.Own where
  preserved := settled_step
  enough _ settled := settled.truthful
  free event own _ delivered same := absurd same (own delivered)
  exposed event state settled disordered := by
    simp only [Orderly, not_forall] at disordered
    obtain ⟨delivered, rfl, added, starting, complete, wrong⟩ := disordered
    obtain ⟨next, taken, main, history⟩ := deliver_next app added
    have tracks := tracks_step settled.tracks (step_took taken)
    obtain ⟨drain, final, owns, drained, online⟩ :=
      reports_of_complete app tracks (main ▸ starting) (history ▸ complete)
    refine ⟨drain, final, owns, run_cons.mpr ⟨next, taken, drained⟩, fun truthful => wrong ?_⟩
    have connected := truthful next.history online
    rw [history] at connected
    exact inOrder_of_connected (settled.ordered starting) connected

/-- Whenever and in whatever order the events come: the report is true, and would be if `main`
went on to it from any state of the run, exactly when the events come in order. -/
theorem online_truthful_iff (app : App) (schedule : List Event) :
    (∀ first rest drain state, schedule = first ++ rest → (∀ event ∈ drain, event.Own) →
      run (step app) (first ++ drain) boot = some state → Truthful state) ↔
    Along (step app) Orderly schedule boot :=
  (orderly_tight app).iff_along settled_boot schedule

/-- A failed association and an address, with `main` at its semaphores. -/
def failedAssociation : List Event :=
  [.netMgmtAddEventCallback, .netMgmtAddEventCallback, .netIfGetDefault true, .netMgmt 0,
    .deliver (.wifiConnectResult 1), .kSemTake, .deliver .ipv4AddrAdd, .kSemTake, .logInf]

private theorem not_connected_failed : ¬ Connected [.wifiConnectResult 1, .ipv4AddrAdd] := by
  rintro ⟨early, late, shape, quiet, -⟩
  rcases early with _ | ⟨first, _ | ⟨second, rest⟩⟩
  · cases shape
  · cases shape
  · simp at shape

/-- Both applications take themselves to be online after a connect that failed. -/
theorem online_after_failure :
    (∃ state, run (step .wifi) failedAssociation boot = some state ∧ ¬ Truthful state) ∧
    ∃ state, run (step .sock) (failedAssociation ++ [.tcpFunction]) boot = some state ∧ ¬ Truthful state := by
  refine ⟨⟨_, rfl, fun truthful => ?_⟩, ⟨_, rfl, fun truthful => ?_⟩⟩
  · exact not_connected_failed (truthful _ rfl)
  · exact not_connected_failed (truthful _ rfl)

end ZephyrTutorial.Proofs.NetworkOnline
