import ZephyrTutorial.LedQueue

/-! While no submission is coalesced the handlers run in the order of the submissions. The
first one that is coalesced leaves an older request of the other kind as the last to run. -/

namespace ZephyrTutorial.Proofs.LedQueueOrder
open ZephyrTutorial.LedQueue Machine

private theorem handler_request (app : App) (item : Item) : app.handler item = item.request := by
  cases app <;> cases item <;> rfl

private theorem other_ne (item : Item) : item.other ≠ item := by
  cases item <;> decide

def waiting : Worker → List Item
  | .entering item => [item]
  | .idle | .leaving => []

/-- `main` never submits the same item twice in a row. -/
def Alternates (submitted : List Item) : Main → Prop
  | .submitting item => submitted.getLast? ≠ some item
  | .sleeping item => submitted.getLast? = some item
  | .returned => True

/-- Every submission has been handled, in order, or waits for its turn. -/
structure InOrder (state : State) : Prop where
  alternates : Alternates state.submitted state.main
  handled : ∃ past, state.submitted = past ++ (waiting state.worker ++ state.work.items) ∧
    ∀ item, past.getLast? = some item → state.level = item.request

private theorem inOrder_boot (gpioIsReady : Bool) (ret : Int) : InOrder (boot gpioIsReady ret) where
  alternates := by
    simp only [boot, Main.start]
    split
    next => split <;> simp [Alternates]
    next => trivial
  handled := ⟨[], rfl, nofun⟩

theorem InOrder.settled {state : State} (inOrder : InOrder state) : Settled state := by
  intro empty idle item last
  obtain ⟨past, whole, level⟩ := inOrder.handled
  rw [empty, idle, waiting, List.nil_append, List.append_nil] at whole
  exact level item (whole ▸ last)

/-- Everything that a step can do, with the place that its thread was at. -/
inductive Took (app : App) : Event → State → State → Prop
  | submit {state : State} {item : Item} (here : state.main = .submitting item) :
    Took app .kWorkSubmit state { state with
      main := .sleeping item
      work := state.work.submit item
      submitted := state.submitted ++ [item] }
  | wake {state : State} {item : Item} (here : state.main = .sleeping item) :
    Took app .wake state { state with main := .submitting item.other }
  | dequeue {state : State} {item : Item} {work : Kernel.WorkQueue Item} (here : state.worker = .idle)
    (stored : state.work.items = item :: work.items) :
    Took app .dequeue state { state with work, worker := .entering item }
  | handle {state : State} {item : Item} (here : state.worker = .entering item) :
    Took app .handle state { state with level := app.handler item, worker := .leaving }
  | leave {state : State} (here : state.worker = .leaving) :
    Took app .leave state { state with worker := .idle }

theorem step_took {app : App} {event : Event} {state next : State} (taken : step app event state = some next) :
    Took app event state next := by
  unfold step at taken
  split at taken <;> split at taken <;> cases taken
  next item here => exact .submit here
  next item here => exact .wake here
  next item work here fetched => exact .dequeue here (Kernel.WorkQueue.take_eq_some fetched)
  next item here => exact .handle here
  next here => exact .leave here

private theorem inOrder_step (app : App) (event : Event) (state next : State) (inOrder : InOrder state)
    (fresh : Fresh event state) (taken : step app event state = some next) : InOrder next := by
  have alternates := inOrder.alternates
  obtain ⟨past, whole, level⟩ := inOrder.handled
  cases step_took taken with
  | submit here =>
    simp only [Fresh, here] at fresh
    refine ⟨List.getLast?_concat, past, ?_, level⟩
    rw [Kernel.WorkQueue.submit_fresh fresh, whole, List.append_assoc, List.append_assoc]
  | @wake _ item here =>
    rw [here] at alternates
    refine ⟨?_, past, whole, level⟩
    intro last
    exact other_ne item (Option.some.inj (last.symm.trans alternates))
  | dequeue here stored =>
    refine ⟨alternates, past, ?_, level⟩
    rw [whole, here, stored]
    rfl
  | @handle _ item here =>
    refine ⟨alternates, past ++ [item], ?_, ?_⟩
    · rw [whole, here, List.append_assoc]
      rfl
    · intro last same
      rw [List.getLast?_concat] at same
      cases same
      exact handler_request app item
  | leave here =>
    refine ⟨alternates, past, ?_, level⟩
    rw [whole, here]
    rfl

def flush : Worker → List Event
  | .idle => []
  | .entering _ => [.handle, .leave]
  | .leaving => [.leave]

def oneItem : List Event := [.dequeue, .handle, .leave]

private theorem run_flush (app : App) (state : State) : ∃ next, run (step app) (flush state.worker) state = some next ∧
    next.worker = .idle ∧ next.work = state.work ∧ next.submitted = state.submitted := by
  cases place : state.worker with
  | idle => exact ⟨state, rfl, place, rfl, rfl⟩
  | entering item =>
    refine ⟨{ state with worker := .idle, level := app.handler item }, ?_, rfl, rfl, rfl⟩
    simp [flush, run, step, place]
  | leaving =>
    refine ⟨{ state with worker := .idle }, ?_, rfl, rfl, rfl⟩
    simp [flush, run, step, place]

private theorem run_oneItem (app : App) {state : State} {item : Item} {later : List Item}
    (idle : state.worker = .idle) (stored : state.work.items = item :: later) :
    ∃ next, run (step app) oneItem state = some next ∧ next.worker = .idle ∧ next.work.items = later ∧
      next.level = item.request ∧ next.submitted = state.submitted := by
  obtain ⟨rest, fetched, remaining⟩ := Kernel.WorkQueue.take_cons stored
  refine ⟨{ state with work := rest, worker := .idle, level := app.handler item }, ?_, rfl, remaining,
    handler_request app item, rfl⟩
  simp [oneItem, run, step, idle, fetched]

private theorem queue_of_coalesced {items : List Item} {item : Item} (distinct : items.Nodup)
    (queued : item ∈ items) (last : items.getLast? ≠ some item) : items = [item, item.other] := by
  match items with
  | [] => cases queued
  | [first] => simp_all
  | [first, second] => cases item <;> cases first <;> cases second <;> simp_all [Item.other]
  | first :: second :: third :: _ => cases first <;> cases second <;> cases third <;> simp_all

/-- Left alone after a coalesced submission, the queue ends with the request before it. -/
private theorem coalesced_unsettled (app : App) {state : State} {item : Item} (inOrder : InOrder state)
    (submitting : state.main = .submitting item) (queued : item ∈ state.work.items) :
    ∃ drain final, (∀ event ∈ drain, event ≠ .kWorkSubmit) ∧
      run (step app) (.kWorkSubmit :: drain) state = some final ∧ ¬ Settled final := by
  have alternates := inOrder.alternates
  rw [submitting] at alternates
  obtain ⟨past, whole, -⟩ := inOrder.handled
  have filled : state.work.items ≠ [] := List.ne_nil_of_mem queued
  have pair : state.work.items = [item, item.other] := by
    apply queue_of_coalesced state.work.distinct queued
    intro last
    apply alternates
    rw [whole, List.getLast?_append_of_ne_nil _ (by simp [filled]), List.getLast?_append_of_ne_nil _ filled, last]
  have submitted : step app .kWorkSubmit state = some { state with
      main := .sleeping item
      submitted := state.submitted ++ [item] } := by
    simp only [step, submitting, Kernel.WorkQueue.submit_queued queued]
  obtain ⟨flushed, ranFlush, idle, work, history⟩ := run_flush app { state with
      main := .sleeping item
      submitted := state.submitted ++ [item] }
  obtain ⟨first, ranFirst, idleFirst, restFirst, -, historyFirst⟩ := run_oneItem app idle (work ▸ pair)
  obtain ⟨second, ranSecond, idleSecond, restSecond, level, historySecond⟩ := run_oneItem app idleFirst restFirst
  refine ⟨flush state.worker ++ (oneItem ++ oneItem), second, ?_, ?_, ?_⟩
  · cases state.worker <;> simp [flush, oneItem]
  · exact run_cons.mpr ⟨_, submitted, run_trans ranFlush (run_trans ranFirst ranSecond)⟩
  · intro settled
    have last : second.submitted.getLast? = some item := by
      rw [historySecond, historyFirst, history, List.getLast?_concat]
    have wrong := level.symm.trans (settled restSecond idleSecond item last)
    cases item <;> cases wrong

private theorem fresh_tight (app : App) : Tight (step app) Fresh InOrder Settled (· ≠ .kWorkSubmit) where
  preserved := inOrder_step app
  enough _ inOrder := inOrder.settled
  free event silent state := by
    cases event with
    | kWorkSubmit => exact absurd rfl silent
    | _ => trivial
  exposed event state inOrder stale := by
    cases event with
    | kWorkSubmit =>
      cases place : state.main with
      | submitting item =>
        have queued : item ∈ state.work.items := by simpa [Fresh, place] using stale
        exact coalesced_unsettled app inOrder place queued
      | sleeping item => exact absurd (by simp [Fresh, place]) stale
      | returned => exact absurd (by simp [Fresh, place]) stale
    | _ => exact absurd trivial stale

/-- The level is right in every quiet state of every run, and would be if `main` stopped at any
point, exactly when no submission finds its item queued. -/
theorem settled_iff (app : App) (gpioIsReady : Bool) (ret : Int) (schedule : List Event) :
    (∀ first rest drain state, schedule = first ++ rest → .kWorkSubmit ∉ drain →
      run (step app) (first ++ drain) (boot gpioIsReady ret) = some state → Settled state) ↔
    Along (step app) Fresh schedule (boot gpioIsReady ret) := by
  have rule := (fresh_tight app).iff_along (inOrder_boot gpioIsReady ret) schedule
  simpa only [ne_eq, List.forall_mem_ne'] using rule

/-- Three submissions while the queue thread is held up, and then the whole backlog. -/
def backlog : List Event := [.kWorkSubmit, .wake, .kWorkSubmit, .wake, .kWorkSubmit] ++ (oneItem ++ oneItem)

/-- The last submission asks for the LED on, and both applications end with the LED off. -/
theorem last_request_lost :
    (∃ state, run (step .workqueue) backlog (boot true 0) = some state ∧
      state.submitted = [.ledOn, .ledOff, .ledOn] ∧ state.level = false ∧ ¬ Settled state) ∧
    ∃ state, run (step .customq) backlog (boot true 0) = some state ∧
      state.submitted = [.ledOn, .ledOff, .ledOn] ∧ state.level = false ∧ ¬ Settled state := by
  refine ⟨⟨_, rfl, rfl, rfl, fun settled => ?_⟩, ⟨_, rfl, rfl, rfl, fun settled => ?_⟩⟩
  · cases settled rfl rfl .ledOn rfl
  · cases settled rfl rfl .ledOn rfl

end ZephyrTutorial.Proofs.LedQueueOrder
