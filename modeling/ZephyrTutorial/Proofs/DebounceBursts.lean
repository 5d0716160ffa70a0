import ZephyrTutorial.Bursts
import ZephyrTutorial.Debounce

/-! At most one toggle for each burst. A burst pays for one timeout, and its payment goes from
the timeout to the queue, to the handler, and to the toggle, whatever the latencies are. -/

namespace ZephyrTutorial.Proofs.DebounceBursts
open ZephyrTutorial.Debounce Machine Kernel

universe u

variable {T : Type u} {button : T → Int} {event : Event T} {state next : State T}

private theorem onTime_iff [LinearOrder T] {pending : Option T} {time : T} :
    onTime pending time = true ↔ ∀ due, pending = some due → time ≤ due := by
  cases pending with
  | none => simp [onTime]
  | some due => simp [onTime]

variable [Ring T]

/-- The toggles that are owed to the given bursts. -/
def answers (button : T → Int) (groups : List (List T)) : List T := groups.filterMap (answer button)

private theorem answers_append (first rest : List (List T)) :
    answers button (first ++ rest) = answers button first ++ answers button rest := List.filterMap_append

private theorem answers_last {burst : List T} {last : T} (ends : burst.getLast? = some last) :
    answers button [burst] = if button (last + 500) = 1 then [last + 500] else [] := by
  by_cases active : button (last + 500) = 1 <;> simp [answers, answer, ends, active]

variable [LinearOrder T]

/-- Everything that an event can do, with the conditions under which it does it. -/
inductive Took (button : T → Int) (state : State T) : Event T → State T → Prop
  | edge {time : T} (ordered : state.now ≤ time) (early : ∀ due, state.pending = some due → time < due) :
    Took button state ⟨time, .isrHandle⟩
      { state with now := time, pending := some (time + 500), edges := state.edges ++ [time] }
  | expire {time : T} (ordered : state.now ≤ time) (due : state.pending = some time) :
    Took button state ⟨time, .expire⟩
      { state with now := time, pending := none, work := state.work.submit .workStruct }
  | dequeue {time : T} {item : Item} {work : WorkQueue Item} (ordered : state.now ≤ time)
    (before : ∀ due, state.pending = some due → time ≤ due) (idle : state.worker = .idle)
    (queued : state.work.items = item :: work.items) :
    Took button state ⟨time, .dequeue⟩ { state with now := time, work, worker := .entering }
  | toggle {time : T} (ordered : state.now ≤ time) (before : ∀ due, state.pending = some due → time ≤ due)
    (entering : state.worker = .entering) (active : button time = 1) :
    Took button state ⟨time, .workHandle⟩
      { state with now := time, led := !state.led, toggles := state.toggles ++ [time], worker := .leaving }
  | skip {time : T} (ordered : state.now ≤ time) (before : ∀ due, state.pending = some due → time ≤ due)
    (entering : state.worker = .entering) (inactive : button time ≠ 1) :
    Took button state ⟨time, .workHandle⟩ { state with now := time, worker := .leaving }
  | leave {time : T} (ordered : state.now ≤ time) (before : ∀ due, state.pending = some due → time ≤ due)
    (leaving : state.worker = .leaving) :
    Took button state ⟨time, .leave⟩ { state with now := time, worker := .idle }

theorem step_took (taken : step button event state = some next) : Took button state event next := by
  obtain ⟨time, action⟩ := event
  simp only [step] at taken
  split at taken
  next timely =>
    obtain ⟨ordered, before⟩ := timely
    rw [onTime_iff] at before
    cases action with
    | isrHandle =>
      simp only at taken
      split at taken
      next => cases taken
      next strict =>
        cases taken
        refine .edge ordered fun due pending => lt_of_le_of_ne (before due pending) ?_
        rintro rfl
        exact strict pending
    | expire =>
      simp only at taken
      split at taken
      next due => cases taken; exact .expire ordered due
      next => cases taken
    | dequeue =>
      simp only at taken
      split at taken
      next idle queued => cases taken; exact .dequeue ordered before idle (WorkQueue.take_eq_some queued)
      next => cases taken
    | workHandle =>
      simp only [workHandle] at taken
      split at taken
      next entering =>
        cases taken
        by_cases active : button time = 1
        · rw [if_pos active]
          exact .toggle ordered before entering active
        · rw [if_neg active]
          exact .skip ordered before entering active
      next => cases taken
    | leave =>
      simp only at taken
      split at taken
      next leaving => cases taken; exact .leave ordered before leaving
      next => cases taken
  next => cases taken

private theorem led_iff {start : T} {schedule : List (Event T)}
    (ran : run (step button) schedule (boot start) = some state) : state.led = true ↔ state.toggles.length % 2 = 1 := by
  have preserved (event : Event T) (state next : State T) (parity : state.led = true ↔ state.toggles.length % 2 = 1)
      (taken : step button event state = some next) : next.led = true ↔ next.toggles.length % 2 = 1 := by
    cases step_took taken with
    | toggle ordered before entering active =>
      rw [Bool.not_eq_true', ← Bool.not_eq_true, parity, List.length_append, List.length_singleton]
      omega
    | _ => exact parity
  exact invariant preserved (by decide : false = true ↔ 0 % 2 = 1) ran

/-- The last edge and the timeout: while it is pending it is due 500 ms after that edge, and
afterwards that time has passed. -/
structure Timed (state : State T) : Prop where
  due : ∀ due, state.pending = some due → state.now ≤ due ∧ ∃ last, state.edges.getLast? = some last ∧ due = last + 500
  expired : state.pending = none → ∀ last ∈ state.edges.getLast?, last + 500 ≤ state.now

private theorem timed_boot (start : T) : Timed (boot start) := ⟨nofun, nofun⟩

/-- An event that leaves edges and timeout alone only lets time pass. -/
private theorem Timed.pass (timed : Timed state) {time : T} (ordered : state.now ≤ time)
    (before : ∀ due, state.pending = some due → time ≤ due) (after : State T) (now : after.now = time)
    (pending : after.pending = state.pending) (edges : after.edges = state.edges) : Timed after where
  due due same := by
    rw [pending] at same
    rw [now, edges]
    exact ⟨before due same, (timed.due due same).2⟩
  expired none last ends := by
    rw [pending] at none
    rw [edges] at ends
    rw [now]
    exact (timed.expired none last ends).trans ordered

private theorem timed_step [IsStrictOrderedRing T] (timed : Timed state) (took : Took button state event next) :
    Timed next := by
  cases took with
  | @edge time ordered early =>
    refine ⟨fun due same => ?_, nofun⟩
    cases same
    exact ⟨le_add_of_nonneg_right (Nat.ofNat_nonneg 500), time, List.getLast?_concat, rfl⟩
  | expire ordered due =>
    refine ⟨nofun, fun _ last ends => ?_⟩
    obtain ⟨-, other, same, at_due⟩ := timed.due _ due
    cases same.symm.trans ends
    exact at_due.ge
  | dequeue ordered before idle queued => exact timed.pass ordered before _ rfl rfl rfl
  | toggle ordered before entering active => exact timed.pass ordered before _ rfl rfl rfl
  | skip ordered before entering inactive => exact timed.pass ordered before _ rfl rfl rfl
  | leave ordered before leaving => exact timed.pass ordered before _ rfl rfl rfl

/-- An edge before the pending timeout belongs to the burst of the edge that started it. -/
private theorem edge_joins {time due : T} (timed : Timed state) (pending : state.pending = some due)
    (early : time < due) : ∃ done burst, bursts state.edges = done ++ [burst] ∧
      bursts (state.edges ++ [time]) = done ++ [burst ++ [time]] := by
  obtain ⟨-, last, ends, rfl⟩ := timed.due due pending
  apply Bursts.splitBy_join ends
  exact decide_eq_true early

private theorem edge_begins {time : T} (timed : Timed state) (none : state.pending = none)
    (ordered : state.now ≤ time) : bursts (state.edges ++ [time]) = bursts state.edges ++ [[time]] := by
  apply Bursts.splitBy_start
  intro last ends
  exact decide_eq_false (not_lt.mpr ((timed.expired none last ends).trans ordered))

/-- What a burst still has to its account: a timeout, a queued item, or a handler before its read. -/
def account (state : State T) : Nat :=
  (if state.pending = none then 0 else 1) + state.work.items.length + if state.worker = .entering then 1 else 0

def Paid (state : State T) : Prop := state.toggles.length + account state ≤ (bursts state.edges).length

private theorem submit_length (work : WorkQueue Item) (item : Item) :
    (work.submit item).items.length ≤ work.items.length + 1 := by
  by_cases queued : item ∈ work.items
  · rw [WorkQueue.submit_queued queued]
    exact Nat.le_succ _
  · rw [WorkQueue.submit_fresh queued, List.length_append, List.length_singleton]

private theorem paid_step (paid : Paid state) (timed : Timed state) (took : Took button state event next) :
    Paid next := by
  unfold Paid account at paid ⊢
  cases took with
  | @edge time ordered early =>
    simp only [reduceCtorEq, if_false]
    cases pending : state.pending with
    | none =>
      rw [edge_begins timed pending ordered, List.length_append, List.length_singleton]
      rw [if_pos pending] at paid
      omega
    | some due =>
      obtain ⟨done, burst, before, after⟩ := edge_joins timed pending (early due pending)
      rw [before, List.length_append, List.length_singleton, if_neg (by rw [pending]; nofun)] at paid
      rw [after, List.length_append, List.length_singleton]
      omega
  | expire ordered due =>
    have queued := submit_length state.work .workStruct
    rw [if_neg (by rw [due]; nofun)] at paid
    simp only [if_true]
    omega
  | dequeue ordered before idle queued =>
    have resting : state.worker ≠ .entering := by rw [idle]; nofun
    rw [queued, List.length_cons, if_neg resting] at paid
    simp only [if_true]
    omega
  | toggle ordered before entering active =>
    rw [if_pos entering] at paid
    simp only [List.length_append, List.length_singleton, reduceCtorEq, if_false]
    omega
  | skip ordered before entering inactive =>
    simp only [reduceCtorEq, if_false]
    omega
  | leave ordered before leaving =>
    simp only [reduceCtorEq, if_false]
    omega

/-- Where a run without latency is: in a burst, at its expiry, or between two bursts. -/
inductive Stage (button : T → Int) (state : State T) : Prop
  | waiting {due : T} (pending : state.pending = some due) (settled : Settled state)
    (answered : state.toggles = answers button (bursts state.edges).dropLast)
  | serving {last : T} (none : state.pending = none) (ends : state.edges.getLast? = some last)
    (now : state.now = last + 500)
    (busy : state.work.items = [.workStruct] ∧ state.worker = .idle ∨
      state.work.items = [] ∧ state.worker = .entering)
    (answered : state.toggles = answers button (bursts state.edges).dropLast)
  | quiet (none : state.pending = none) (empty : state.work.items = []) (beyond : state.worker ≠ .entering)
    (answered : state.toggles = answers button (bursts state.edges))

private theorem stage_boot (start : T) : Stage button (boot start) := .quiet rfl rfl nofun rfl

/-- The read at the expiry answers the burst that has just ended. -/
private theorem served {last : T} (ends : state.edges.getLast? = some last)
    (answered : state.toggles = answers button (bursts state.edges).dropLast) :
    answers button (bursts state.edges) =
      state.toggles ++ if button (last + 500) = 1 then [last + 500] else [] := by
  obtain ⟨done, burst, split, final⟩ := Bursts.splitBy_last near ends
  have shape : bursts state.edges = done ++ [burst] := split
  rw [answered, shape, List.dropLast_concat, answers_append, answers_last final]

/-- The handler reads the button at the expiry of the burst that has just ended. -/
theorem Stage.reading (stage : Stage button state) (entering : state.worker = .entering) :
    ∃ last, state.pending = none ∧ state.edges.getLast? = some last ∧ state.now = last + 500 ∧
      state.work.items = [] ∧ state.toggles = answers button (bursts state.edges).dropLast := by
  cases stage with
  | waiting pending settled answered => exact absurd (entering.symm.trans settled.2) nofun
  | serving none ends now busy answered =>
    rcases busy with ⟨-, idle⟩ | ⟨empty, -⟩
    · exact absurd (entering.symm.trans idle) nofun
    · exact ⟨_, none, ends, now, empty, answered⟩
  | quiet none empty beyond answered => exact absurd entering beyond

private theorem stage_step (stage : Stage button state) (timed : Timed state) (prompt : Prompt event state)
    (took : Took button state event next) : Stage button next := by
  cases took with
  | @edge time ordered early =>
    have settled : Settled state := prompt
    cases stage with
    | @waiting due pending _ answered =>
      obtain ⟨done, burst, before, after⟩ := edge_joins timed pending (early due pending)
      refine .waiting rfl settled ?_
      rw [answered, before, after, List.dropLast_concat, List.dropLast_concat]
    | serving none ends now busy answered =>
      rcases busy with ⟨queued, -⟩ | ⟨-, entering⟩
      · exact absurd (queued.symm.trans settled.1) nofun
      · exact absurd (entering.symm.trans settled.2) nofun
    | quiet none empty beyond answered =>
      refine .waiting rfl settled ?_
      rw [answered, edge_begins timed none ordered, List.dropLast_concat]
  | expire ordered due =>
    cases stage with
    | waiting pending settled answered =>
      obtain ⟨-, last, ends, at_due⟩ := timed.due _ due
      refine .serving rfl ends at_due (.inl ⟨?_, settled.2⟩) answered
      rw [WorkQueue.submit_fresh (by rw [settled.1]; exact List.not_mem_nil), settled.1]
      rfl
    | serving none ends now busy answered => exact absurd (none.symm.trans due) nofun
    | quiet none empty beyond answered => exact absurd (none.symm.trans due) nofun
  | dequeue ordered before idle queued =>
    cases stage with
    | waiting pending settled answered => exact absurd (queued.symm.trans settled.1) nofun
    | serving none ends now busy answered =>
      rcases busy with ⟨one, -⟩ | ⟨empty, -⟩
      · have rest := (List.cons.inj (queued.symm.trans one)).2
        exact .serving none ends (prompt.trans now) (.inr ⟨rest, rfl⟩) answered
      · exact absurd (queued.symm.trans empty) nofun
    | quiet none empty beyond answered => exact absurd (queued.symm.trans empty) nofun
  | toggle ordered before entering active =>
    obtain ⟨last, none, ends, now, empty, answered⟩ := stage.reading entering
    obtain rfl := prompt.trans now
    refine .quiet none empty nofun ?_
    rw [served ends answered, if_pos active]
  | skip ordered before entering inactive =>
    obtain ⟨last, none, ends, now, empty, answered⟩ := stage.reading entering
    obtain rfl := prompt.trans now
    refine .quiet none empty nofun ?_
    rw [served ends answered, if_neg inactive, List.append_nil]
  | leave ordered before leaving =>
    cases stage with
    | waiting pending settled answered => exact absurd (leaving.symm.trans settled.2) nofun
    | serving none ends now busy answered =>
      rcases busy with ⟨-, idle⟩ | ⟨-, entering⟩
      · exact absurd (leaving.symm.trans idle) nofun
      · exact absurd (leaving.symm.trans entering) nofun
    | quiet none empty beyond answered => exact .quiet none empty nofun answered

/-- Without latency and without another edge the current burst comes to its end. -/
def Completes (button : T → Int) (state : State T) : Prop :=
  ∃ rest final, (∀ event ∈ rest, event.action ≠ .isrHandle) ∧ Along (step button) Prompt rest state ∧
    run (step button) rest state = some final ∧ final.edges = state.edges ∧ final.pending = none ∧ Settled final

theorem Completes.before (taken : step button event state = some next) (prompt : Prompt event state)
    (quiet : event.action ≠ .isrHandle) (edges : next.edges = state.edges) (later : Completes button next) :
    Completes button state := by
  obtain ⟨rest, final, silent, prompts, ran, same, none, settled⟩ := later
  refine ⟨event :: rest, final, ?_, ⟨prompt, ?_⟩, run_cons.mpr ⟨next, taken, ran⟩, same.trans edges, none, settled⟩
  · intro other member
    rcases List.mem_cons.mp member with rfl | member
    · exact quiet
    · exact silent other member
  · intro other found
    cases taken.symm.trans found
    exact prompts

private theorem completes_settled (none : state.pending = none) (settled : Settled state) : Completes button state :=
  ⟨[], state, nofun, trivial, rfl, rfl, none, settled⟩

private theorem completes_leaving (none : state.pending = none) (empty : state.work.items = [])
    (leaving : state.worker = .leaving) : Completes button state := by
  have taken : step button ⟨state.now, .leave⟩ state = some { state with worker := .idle } := by
    simp [step, onTime, none, leaving]
  exact .before taken rfl nofun rfl (completes_settled none ⟨empty, rfl⟩)

private theorem completes_entering (none : state.pending = none) (empty : state.work.items = [])
    (entering : state.worker = .entering) : Completes button state := by
  by_cases active : button state.now = 1
  · have taken : step button ⟨state.now, .workHandle⟩ state = some { state with
        led := !state.led, toggles := state.toggles ++ [state.now], worker := .leaving } := by
      simp [step, workHandle, onTime, none, entering, active]
    exact .before taken rfl nofun rfl (completes_leaving none empty rfl)
  · have taken : step button ⟨state.now, .workHandle⟩ state = some { state with worker := .leaving } := by
      simp [step, workHandle, onTime, none, entering, active]
    exact .before taken rfl nofun rfl (completes_leaving none empty rfl)

private theorem completes_queued (none : state.pending = none) (queued : state.work.items = [.workStruct])
    (idle : state.worker = .idle) : Completes button state := by
  obtain ⟨work, fetched, rest⟩ := WorkQueue.take_cons queued
  have taken : step button ⟨state.now, .dequeue⟩ state = some { state with work, worker := .entering } := by
    simp [step, onTime, none, idle, fetched]
  exact .before taken rfl nofun rfl (completes_entering none rest rfl)

private theorem completes_of_stage (timed : Timed state) (stage : Stage button state) : Completes button state := by
  cases stage with
  | @waiting due pending settled answered =>
    have taken : step button ⟨due, .expire⟩ state =
        some { state with now := due, pending := none, work := state.work.submit .workStruct } := by
      simp [step, onTime, pending, (timed.due due pending).1]
    have queued : (state.work.submit .workStruct).items = [.workStruct] := by
      rw [WorkQueue.submit_fresh (by rw [settled.1]; exact List.not_mem_nil), settled.1]
      rfl
    exact .before taken settled nofun rfl (completes_queued rfl queued settled.2)
  | serving none ends now busy answered =>
    rcases busy with ⟨queued, idle⟩ | ⟨empty, entering⟩
    · exact completes_queued none queued idle
    · exact completes_entering none empty entering
  | quiet none empty beyond answered =>
    cases place : state.worker with
    | idle => exact completes_settled none ⟨empty, place⟩
    | entering => exact absurd place beyond
    | leaving => exact completes_leaving none empty place

/-- What a run without latency has toggled. -/
structure Debounced (button : T → Int) (state : State T) : Prop where
  ended : state.pending = none → Settled state → state.toggles = answers button (bursts state.edges)
  unfinished : state.pending ≠ none → state.toggles = answers button (bursts state.edges).dropLast
  completes : Completes button state
  /-- The LED is on after an odd number of toggles. -/
  led : state.led = true ↔ state.toggles.length % 2 = 1

private theorem debounced_of_stage (timed : Timed state) (stage : Stage button state)
    (led : state.led = true ↔ state.toggles.length % 2 = 1) : Debounced button state := by
  refine ⟨fun none settled => ?_, fun pending => ?_, completes_of_stage timed stage, led⟩
  · cases stage with
    | waiting pending _ _ => exact absurd (none.symm.trans pending) nofun
    | serving _ _ _ busy _ =>
      rcases busy with ⟨queued, -⟩ | ⟨-, entering⟩
      · exact absurd (queued.symm.trans settled.1) nofun
      · exact absurd (entering.symm.trans settled.2) nofun
    | quiet _ _ _ answered => exact answered
  · cases stage with
    | waiting _ _ answered => exact answered
    | serving none _ _ _ _ => exact absurd none pending
    | quiet none _ _ _ => exact absurd none pending

variable [IsStrictOrderedRing T]

private theorem timed_next (event : Event T) (state next : State T) (timed : Timed state)
    (taken : step button event state = some next) : Timed next := timed_step timed (step_took taken)

/-- Any latencies: no more toggles than bursts. No latency: one toggle for each burst whose
button is active 500 ms after its last edge, at that time, and no other, so that the LED is on
after an odd number of them. -/
theorem debounced (button : T → Int) (start : T) (schedule : List (Event T)) (state : State T)
    (ran : run (step button) schedule (boot start) = some state) :
    state.toggles.length ≤ (bursts state.edges).length ∧
      (Along (step button) Prompt schedule (boot start) → Debounced button state) := by
  constructor
  · have preserved (event : Event T) (state next : State T) (kept : Timed state ∧ Paid state)
        (taken : step button event state = some next) : Timed next ∧ Paid next :=
      ⟨timed_next event state next kept.1 taken, paid_step kept.2 kept.1 (step_took taken)⟩
    have paid := (invariant preserved ⟨timed_boot start, Nat.le_refl 0⟩ ran).2
    exact (Nat.le_add_right _ _).trans paid
  · intro prompts
    have preserved (event : Event T) (state next : State T) (kept : Timed state ∧ Stage button state)
        (prompt : Prompt event state) (taken : step button event state = some next) :
        Timed next ∧ Stage button next :=
      ⟨timed_next event state next kept.1 taken, stage_step kept.2 kept.1 prompt (step_took taken)⟩
    obtain ⟨timed, stage⟩ := invariant_along preserved prompts ⟨timed_boot start, stage_boot start⟩ ran
    exact debounced_of_stage timed stage (led_iff ran)

/-- A bouncing press at 0 and 100 ms, answered at 600 ms. -/
def bouncingPress : List (Event Int) :=
  [⟨0, .isrHandle⟩, ⟨100, .isrHandle⟩, ⟨600, .expire⟩, ⟨600, .dequeue⟩, ⟨600, .workHandle⟩, ⟨600, .leave⟩]

theorem debounced_press : ∃ state, run (step fun _ => 1) bouncingPress (boot 0) = some state ∧
    state.toggles = [600] ∧ state.toggles.length ≤ (bursts state.edges).length := by
  refine ⟨_, rfl, rfl, ?_⟩
  exact (debounced (fun _ => 1) 0 bouncingPress _ rfl).1

end ZephyrTutorial.Proofs.DebounceBursts
