import ZephyrTutorial.RegisterBus

/-! The mutex keeps the two transfers of a transaction together, so each success returns a value that the
register has had during the call. -/

namespace ZephyrTutorial.Proofs.RegisterBusFresh
open ZephyrTutorial.RegisterBus Kernel Machine

universe u

variable {τ : Type u} {app : App} {sensor : Sensor} {state next : State τ}

/-- On SPI the variable holds what the last line has logged. -/
def Stale (app : App) (data : Option UInt8) (lines : List Line) : Prop :=
  app = .spi → (data.map Logged.value).getD .garbage = latest lines

/-- What a thread has got at its place. -/
def Got (app : App) (data : Option UInt8) (seen : List UInt8) (lines : List Line) : Thread → Prop
  | .idle | .locking _ | .telling _ | .fetching _ => Stale app data lines
  | .unlocking ret rx =>
    Stale app data lines ∧ (ret = 0 → rx ∈ seen ∧ (app = .i2c → data = some rx))
  | .logging ret => (ret = 0 → ∃ byte ∈ seen, data = some byte) ∧ (ret ≠ 0 → Stale app data lines)

def Thread.target : Thread → Option UInt8
  | .locking id | .telling id | .fetching id => some id
  | .idle | .unlocking _ _ | .logging _ => none

structure Coherent (app : App) (state : State τ) : Prop where
  guards : state.mutex.Guards fun thread => (state.threads thread).Critical
  current : ∀ thread, state.threads thread ≠ .idle → state.registers (state.register thread) ∈ state.seen thread
  target : ∀ thread id, Thread.target (state.threads thread) = some id → state.register thread = id ∧ app.Names id
  told : ∀ thread id, state.threads thread = .fetching id → state.told = app.command id
  got : ∀ thread, Got app (state.data thread) (state.seen thread) (state.lines thread) (state.threads thread)
  faithful : ∀ thread, Faithful app (state.lines thread)

private theorem got_seen {data : Option UInt8} {seen : List UInt8} {lines : List Line} {place : Thread}
    (got : Got app data seen lines place) (byte : UInt8) : Got app data (seen ++ [byte]) lines place := by
  cases place with
  | idle | locking | telling | fetching => exact got
  | unlocking ret rx => exact ⟨got.1, fun success => ⟨List.mem_append_left _ (got.2 success).1, (got.2 success).2⟩⟩
  | logging ret =>
    refine ⟨fun success => ?_, got.2⟩
    obtain ⟨byte, member, stored⟩ := got.1 success
    exact ⟨byte, List.mem_append_left _ member, stored⟩

/-- A step of one thread leaves the others what they have. -/
theorem Coherent.move (coherent : Coherent app state) {thread : τ} {place : Thread}
    (here : next.threads thread = place) (elsewhere : ∀ other, other ≠ thread → next.threads other = state.threads other)
    (registers : next.registers = state.registers)
    (kept : ∀ other, other ≠ thread → next.data other = state.data other ∧ next.seen other = state.seen other ∧
      next.lines other = state.lines other ∧ next.register other = state.register other)
    (told : ∀ other, other ≠ thread → ∀ id, state.threads other = .fetching id → next.told = state.told)
    (guards : next.mutex.Guards fun thread => (next.threads thread).Critical)
    (current : place ≠ .idle → next.registers (next.register thread) ∈ next.seen thread)
    (target : ∀ id, Thread.target place = some id → next.register thread = id ∧ app.Names id)
    (toldHere : ∀ id, place = .fetching id → next.told = app.command id)
    (got : Got app (next.data thread) (next.seen thread) (next.lines thread) place)
    (faithful : Faithful app (next.lines thread)) : Coherent app next := by
  refine ⟨guards, fun other => ?_, fun other => ?_, fun other => ?_, fun other => ?_, fun other => ?_⟩ <;>
    by_cases same : other = thread
  · subst same
    rwa [here]
  · obtain ⟨_, seen, _, register⟩ := kept other same
    rw [elsewhere other same, registers, seen, register]
    exact coherent.current other
  · subst same
    rwa [here]
  · obtain ⟨_, _, _, register⟩ := kept other same
    rw [elsewhere other same, register]
    exact coherent.target other
  · subst same
    rwa [here]
  · rw [elsewhere other same]
    intro id there
    rw [told other same id there]
    exact coherent.told other id there
  · subst same
    rwa [here]
  · obtain ⟨data, seen, lines, _⟩ := kept other same
    rw [elsewhere other same, data, seen, lines]
    exact coherent.got other
  · subst same
    exact faithful
  · obtain ⟨_, _, lines, _⟩ := kept other same
    rw [lines]
    exact coherent.faithful other

private theorem latest_append (lines : List Line) (line : Line) : latest (lines ++ [line]) = line.logged := by
  rw [latest, List.getLast?_concat]
  rfl

private theorem logged_spi (ret : Int) (data : Option UInt8) :
    App.spi.logged ret data = (data.map Logged.value).getD .garbage := by
  cases data <;> rfl

private theorem faithful_append {lines : List Line} {line : Line} (faithful : Faithful app lines)
    (fresh : line.ret = 0 → ∃ byte ∈ line.seen, line.logged = .value byte)
    (stale : line.ret ≠ 0 → line.logged = app.failed lines) :
    Faithful app (lines ++ [line]) := by
  refine ⟨fun found member => ?_, fun before found after split => ?_⟩
  · rcases List.mem_append.mp member with early | last
    · exact faithful.fresh found early
    · rw [List.mem_singleton.mp last]
      exact fresh
  · rcases List.eq_nil_or_concat after with rfl | ⟨more, final, rfl⟩
    · obtain ⟨rfl, same⟩ := List.append_inj' split rfl
      cases same
      exact stale
    · rw [List.concat_eq_append, ← List.cons_append, ← List.append_assoc] at split
      exact faithful.stale before found more (List.append_inj' split rfl).1

private theorem boot_coherent (registers : UInt8 → UInt8) : Coherent app (boot registers : State τ) where
  guards := .init fun _ => id
  current := fun _ running => absurd rfl running
  target := nofun
  told := nofun
  got := fun _ _ => rfl
  faithful := fun _ => ⟨nofun, fun before line after split => by cases before <;> cases split⟩

private theorem line_faithful (coherent : Coherent app state) {thread : τ} {ret : Int}
    (here : state.threads thread = .logging ret) :
    Faithful app (state.lines thread ++ [state.line app thread ret]) := by
  have got := coherent.got thread
  rw [here] at got
  refine faithful_append (coherent.faithful thread) (fun success => ?_) fun failure => ?_
  · obtain ⟨byte, member, stored⟩ := got.1 success
    refine ⟨byte, member, ?_⟩
    show app.logged ret (state.data thread) = _
    rw [stored]
    cases app with
    | spi => rfl
    | i2c => exact if_pos success
  · show app.logged ret (state.data thread) = _
    cases app with
    | spi =>
      rw [logged_spi]
      exact got.2 failure rfl
    | i2c => exact if_neg failure

section Step
variable [DecidableEq τ]

private theorem moved_other (threads : τ → Thread) {thread other : τ} (place : Thread) (different : other ≠ thread) :
    (Function.update threads thread place other).Critical ↔ (threads other).Critical := by
  rw [Function.update_of_ne different]

private theorem moved_self (threads : τ → Thread) (thread : τ) (place : Thread) :
    (Function.update threads thread place thread).Critical ↔ place.Critical := by
  rw [Function.update_self]

private theorem moved_stay {threads : τ → Thread} {thread : τ} {place : Thread}
    (same : place.Critical ↔ (threads thread).Critical) (other : τ) :
    (Function.update threads thread place other).Critical ↔ (threads other).Critical := by
  by_cases own : other = thread
  · rw [own, Function.update_self]
    exact same
  · exact moved_other threads place own

private theorem called (coherent : Coherent app state) {thread : τ} {id : UInt8} (here : state.threads thread = .idle)
    (named : app.Names id) {data : τ → Option UInt8} (others : ∀ other, other ≠ thread → data other = state.data other)
    (stale : Stale app (data thread) (state.lines thread)) :
    Coherent app ({ state with
      data
      register := Function.update state.register thread id
      seen := Function.update state.seen thread [state.registers id] }.goto thread (.locking id)) := by
  refine coherent.move (Function.update_self ..) (fun other different => Function.update_of_ne different ..) rfl
    (fun other different => ⟨others other different, Function.update_of_ne different .., rfl,
      Function.update_of_ne different ..⟩) (fun _ _ _ _ => rfl) ?_ (fun _ => ?_) (fun found same => ?_) nofun stale
    (coherent.faithful thread)
  · exact coherent.guards.stay (moved_stay (by rw [here]; rfl))
  · simp only [State.goto, Function.update_self, List.mem_singleton]
  · cases same
    exact ⟨Function.update_self .., named⟩

private theorem locked (coherent : Coherent app state) {thread : τ} {id : UInt8}
    (here : state.threads thread = .locking id) {mutex : Mutex τ} (taken : state.mutex.lock thread = some mutex) :
    Coherent app ({ state with mutex }.goto thread (.telling id)) := by
  have got := coherent.got thread
  rw [here] at got
  refine coherent.move (Function.update_self ..) (fun other different => Function.update_of_ne different ..) rfl
    (fun _ _ => ⟨rfl, rfl, rfl, rfl⟩) (fun _ _ _ _ => rfl) ?_ (fun _ => coherent.current thread (by rw [here]; nofun))
    (fun found same => coherent.target thread found (by rw [here]; exact same)) nofun got (coherent.faithful thread)
  refine coherent.guards.lock (by rw [here]; nofun) taken ?_ fun other => moved_other state.threads _
  exact (moved_self state.threads thread _).mpr trivial

/-- The first transfer has told the device which register to send. -/
private theorem told (coherent : Coherent app state) {thread : τ} {id : UInt8}
    (here : state.threads thread = .telling id) :
    Coherent app ({ state with told := app.command id }.goto thread (.fetching id)) := by
  have got := coherent.got thread
  rw [here] at got
  refine coherent.move (Function.update_self ..) (fun other different => Function.update_of_ne different ..) rfl
    (fun _ _ => ⟨rfl, rfl, rfl, rfl⟩) (fun other different found there => ?_)
    (coherent.guards.stay (moved_stay (by rw [here]; rfl))) (fun _ => coherent.current thread (by rw [here]; nofun))
    (fun found same => coherent.target thread found (by rw [here]; exact same)) (fun found same => ?_) got
    (coherent.faithful thread)
  · have alone := coherent.guards.alone (by rw [here]; trivial) (show (state.threads other).Critical by rw [there]; trivial)
    exact absurd alone different
  · cases same
    rfl

/-- A transfer has failed, or is the second one. -/
private theorem transferred (coherent : Coherent app state) {thread : τ} (inside : (state.threads thread).Critical)
    {data : τ → Option UInt8} (others : ∀ other, other ≠ thread → data other = state.data other) {ret : Int} {rx : UInt8}
    (got : Got app (data thread) (state.seen thread) (state.lines thread) (.unlocking ret rx)) :
    Coherent app ({ state with data }.goto thread (.unlocking ret rx)) := by
  refine coherent.move (Function.update_self ..) (fun other different => Function.update_of_ne different ..) rfl
    (fun other different => ⟨others other different, rfl, rfl, rfl⟩) (fun _ _ _ _ => rfl)
    (coherent.guards.stay (moved_stay ⟨fun _ => inside, fun _ => trivial⟩)) (fun _ => coherent.current thread ?_) nofun nofun
    got (coherent.faithful thread)
  intro outside
  rw [outside] at inside
  exact inside

private theorem unlocked (coherent : Coherent app state) {thread : τ} {ret : Int} {rx : UInt8}
    (here : state.threads thread = .unlocking ret rx) {data : τ → Option UInt8}
    (others : ∀ other, other ≠ thread → data other = state.data other)
    (got : Got app (data thread) (state.seen thread) (state.lines thread) (.logging ret)) :
    Coherent app ({ state with mutex := state.mutex.unlock thread, data }.goto thread (.logging ret)) := by
  refine coherent.move (Function.update_self ..) (fun other different => Function.update_of_ne different ..) rfl
    (fun other different => ⟨others other different, rfl, rfl, rfl⟩) (fun _ _ _ _ => rfl) ?_
    (fun _ => coherent.current thread (by rw [here]; nofun)) nofun nofun got (coherent.faithful thread)
  refine coherent.guards.unlock (by rw [here]; trivial) ?_ fun other => moved_other state.threads _
  exact (moved_self state.threads thread (.logging ret)).mp

private theorem logged (coherent : Coherent app state) {thread : τ} {ret : Int}
    (here : state.threads thread = .logging ret) : Coherent app ({ state with
      lines := Function.update state.lines thread (state.lines thread ++ [state.line app thread ret]) }.goto
        thread .idle) := by
  have lines : Function.update state.lines thread (state.lines thread ++ [state.line app thread ret]) thread =
    state.lines thread ++ [state.line app thread ret] := Function.update_self ..
  refine coherent.move (Function.update_self ..) (fun other different => Function.update_of_ne different ..) rfl
    (fun other different => ⟨rfl, rfl, Function.update_of_ne different .., rfl⟩) (fun _ _ _ _ => rfl)
    (coherent.guards.stay (moved_stay (by rw [here]; rfl))) (fun running => absurd rfl running) nofun nofun ?_ ?_
  · intro same
    subst same
    simp only [State.goto, lines, latest_append]
    exact (logged_spi ret (state.data thread)).symm
  · simp only [State.goto, lines]
    exact line_faithful coherent here

private theorem coherent_step (addressed : app.Addressed sensor) (event : Event τ) (state next : State τ)
    (coherent : Coherent app state) (asks : app.Asks event) (taken : step app sensor event state = some next) :
    Coherent app next := by
  unfold step at taken
  split at taken
  next registers =>
    cases taken
    refine ⟨coherent.guards, fun thread _ => List.mem_append_right _ List.mem_cons_self, coherent.target, coherent.told,
      fun thread => got_seen (coherent.got thread) _, coherent.faithful⟩
  next thread id =>
    split at taken
    next here =>
      cases taken
      have got := coherent.got thread
      rw [here] at got
      refine called coherent here (asks thread id rfl) (fun other different => ?_) ?_
      · cases app with
        | spi => rfl
        | i2c => exact Function.update_of_ne different ..
      · cases app with
        | spi => exact got
        | i2c => nofun
    next => cases taken
  next thread =>
    split at taken
    next id here =>
      obtain ⟨mutex, free, rfl⟩ := Option.map_eq_some_iff.mp taken
      exact locked coherent here free
    next => cases taken
  next thread ret =>
    split at taken
    next id here =>
      have got := coherent.got thread
      rw [here] at got
      split at taken
      next success =>
        cases taken
        exact told coherent here
      next failure =>
        cases taken
        exact transferred coherent (by rw [here]; trivial) (fun _ _ => rfl) ⟨got, fun success => absurd success failure⟩
    next id here =>
      have got := coherent.got thread
      rw [here] at got
      split at taken
      next success =>
        cases taken
        obtain ⟨register, named⟩ := coherent.target thread id (by rw [here]; rfl)
        have byte : sensor state.registers state.told = state.registers (state.register thread) := by
          rw [coherent.told thread id here, addressed.asked named, register]
        have fresh := coherent.current thread (by rw [here]; nofun)
        rw [← byte] at fresh
        refine transferred coherent (by rw [here]; trivial) (fun other different => ?_) ?_
        · cases app with
          | spi => rfl
          | i2c => exact Function.update_of_ne different ..
        · cases app with
          | spi => exact ⟨got, fun _ => ⟨fresh, nofun⟩⟩
          | i2c => exact ⟨nofun, fun _ => ⟨fresh, fun _ => Function.update_self ..⟩⟩
      next failure =>
        cases taken
        exact transferred coherent (by rw [here]; trivial) (fun _ _ => rfl) ⟨got, fun success => absurd success failure⟩
    next => cases taken
  next thread =>
    split at taken
    next ret rx here =>
      cases taken
      have got := coherent.got thread
      rw [here] at got
      refine unlocked coherent here (fun other different => ?_) ?_
      · cases app with
        | spi =>
          dsimp only
          split
          · exact Function.update_of_ne different ..
          · rfl
        | i2c => rfl
      · cases app with
        | spi =>
          refine ⟨fun success => ⟨rx, (got.2 success).1, ?_⟩, fun failure => ?_⟩
          · dsimp only
            rw [if_pos success, Function.update_self]
          · dsimp only
            rw [if_neg failure]
            exact got.1
        | i2c => exact ⟨fun success => ⟨rx, (got.2 success).1, (got.2 success).2 rfl⟩, fun _ => nofun⟩
    next => cases taken
  next thread =>
    split at taken
    next ret here =>
      cases taken
      exact logged coherent here
    next => cases taken

end Step

/-- A thread waits for the other's transaction, its register changes, and its second call fails. -/
def twoReaders : List (Event Bool) :=
  [.readRegister true 0, .readRegister false 1, .kMutexLock true, .transfer true 0, .sense fun _ => 7, .transfer true 0,
    .kMutexUnlock true, .kMutexLock false, .transfer false (-5), .log true, .kMutexUnlock false, .log false,
    .readRegister true 0, .kMutexLock true, .transfer true 0, .transfer true (-5), .kMutexUnlock true, .log true]

/-- A device that sends zeros until it is asked for a read. -/
def spiSensor : Sensor := fun registers command => if 0x80 ≤ command then registers (command &&& 0x7F) else 0

end ZephyrTutorial.Proofs.RegisterBusFresh
