import Mathlib.Algebra.Order.Ring.Defs
import Mathlib.Tactic.Linarith
import ZephyrTutorial.Proofs.MsgqDelivery

/-! The pace at which the receiver has to get messages so that no put ever times out. The sender
pauses for 500 ms before each put and then waits for 1000 ms, so a buffer that is full when the put
begins has not been served for 1500 ms when the put fails. -/

namespace ZephyrTutorial.Proofs.MsgqPace
open ZephyrTutorial.Msgq Machine MsgqDelivery

universe u

variable {T : Type u} {event : Event T} {state next : State T}

private theorem success_next {before : List (UInt32 × Bool)} (success : ∀ outcome ∈ before, outcome.2 = true)
    (i : UInt32) : ∀ outcome ∈ before ++ [(i, true)], outcome.2 = true := by
  intro outcome member
  rcases List.mem_append.mp member with earlier | last
  · exact success outcome earlier
  · rw [List.mem_singleton.mp last]

variable [CommRing T] [LinearOrder T]

/-- For how long a full buffer has waited at the least, at each place of the sender. -/
def Waited (now served : T) : Sender T → Prop
  | .putting => served + kMsec 500 ≤ now
  | .waiting due => served + kMsec 1500 ≤ due
  | .sleeping due => served + kMsec 500 ≤ due
  | .logging _ | .returned => True

structure Timely (state : State T) : Prop where
  served : state.served ≤ state.now
  waited : state.myMsgq.items.length = 5 → Waited state.now state.served state.sender
  success : ∀ outcome ∈ outcomes state, outcome.2 = true

theorem Waited.later {now time served : T} {sender : Sender T} (waited : Waited now served sender)
    (ordered : now ≤ time) : Waited time served sender := by
  cases sender with
  | putting => exact le_trans waited ordered
  | waiting | logging | sleeping | returned => exact waited

/-- A writer that waits has a full buffer in front of it, so it is released before its time is over. -/
private theorem no_timeout {n : Nat} (flow : Flow state n) (timely : Timely state) {time due : T}
    (kept : Served ⟨time, .timeout⟩ state) (here : state.sender = .waiting due) (late : due ≤ time) : False := by
  have writers := flow.writers
  rw [here] at writers
  have full : state.myMsgq.items.length = 5 := state.myMsgq.full (writers ▸ List.cons_ne_nil _ _)
  have waited := timely.waited full
  rw [here] at waited
  have filled : state.myMsgq.items ≠ [] := by
    intro empty
    rw [empty] at full
    cases full
  have early := kept filled
  have long : state.served + kMsec 1500 ≤ due := waited
  exact absurd (lt_of_lt_of_le early (le_trans long late)) (lt_irrefl time)

private theorem timely_step [IsStrictOrderedRing T] {n : Nat} (flow : Flow state n) (timely : Timely state)
    (kept : Served event state) (taken : step event state = some next) : Timely next := by
  obtain ⟨served, waited, success⟩ := timely
  cases step_took taken with
  | @store time _ ordered here noReader items noWriter noReaders =>
    simp only [outcomes, here, Sender.report, List.append_nil] at success
    refine ⟨?_, fun _ => trivial, success_next success state.i⟩
    show (if state.myMsgq.items = [] then time else state.served) ≤ time
    split
    · exact le_refl time
    · exact le_trans served ordered
  | hand ordered here waiting items noWriter =>
    simp only [outcomes, here, Sender.report, List.append_nil] at success
    exact ⟨le_trans served ordered, fun _ => trivial, success_next success state.i⟩
  | block ordered here full items blocked noReaders =>
    rw [outcomes, here] at success
    refine ⟨le_trans served ordered, fun _ => ?_, success⟩
    have paused := waited full
    rw [here] at paused
    show state.served + kMsec 1500 ≤ _ + kMsec 1000
    have whole : (kMsec 1500 : T) = kMsec 500 + kMsec 1000 := Nat.cast_add 500 1000
    have long : state.served + kMsec 500 ≤ state.now := paused
    linarith
  | timeout ordered here late => exact (no_timeout flow ⟨served, waited, success⟩ kept here late).elim
  | logPut ordered here =>
    refine ⟨le_trans served ordered, fun _ => ?_, ?_⟩
    · show state.served + kMsec 500 ≤ _ + kMsec 500
      linarith
    · rw [outcomes, reports_logPut here]
      simpa [Sender.report] using success
  | wake ordered here late =>
    rw [outcomes, here] at success
    refine ⟨le_trans served ordered, fun full => ?_, ?_⟩
    · have slept := waited full
      rw [here] at slept
      show Waited _ state.served (if state.i + 1 < 1000 then .putting else .returned)
      split
      · exact le_trans slept late
      · trivial
    · show ∀ outcome ∈ reports state.log ++
        Sender.report (state.i + 1) (if state.i + 1 < 1000 then .putting else .returned : Sender T), outcome.2 = true
      split <;> exact success
  | fetch ordered here items noWriter noWriters sameReaders =>
    refine ⟨le_refl _, fun full => ?_, success⟩
    have bounded := state.myMsgq.bounded
    rw [items, List.length_cons, full] at bounded
    omega
  | release ordered here stored blocked items sameReaders =>
    have writers := flow.writers
    rw [blocked] at writers
    cases place : state.sender with
    | putting | logging | sleeping | returned => rw [place] at writers; cases writers
    | waiting due =>
      rw [place] at writers
      obtain ⟨pair, last⟩ := List.cons.inj writers
      obtain ⟨rfl, rfl⟩ := Prod.mk.inj pair
      simp only [outcomes, place, Sender.report, List.append_nil] at success
      exact ⟨le_refl _, fun _ => trivial, success_next success state.i⟩
  | idle ordered here items sameWriters newReaders =>
    refine ⟨le_trans served ordered, fun full => ?_, success⟩
    rw [items.2] at full
    cases full
  | logGet ordered here =>
    refine ⟨le_trans served ordered, fun full => (waited full).later ordered, ?_⟩
    rw [outcomes, reports_logGet]
    exact success

private theorem boot_timely (start : T) : Timely (boot start) := ⟨le_refl start, nofun, nofun⟩

/-- The messages with the ids below `count`. -/
def messages (count : Nat) : List MsgData := (List.range count).map fun n => msgData (UInt32.ofNat n)

private theorem accepted_all {outcomes : List (UInt32 × Bool)} (success : ∀ outcome ∈ outcomes, outcome.2 = true) :
    accepted outcomes = (outcomes.map Prod.fst).map msgData := by
  induction outcomes with
  | nil => rfl
  | cons outcome outcomes ih =>
    obtain ⟨first, rest⟩ := List.forall_mem_cons.mp success
    rw [accepted, List.filterMap_cons, first, ← accepted, ih rest]
    rfl

/-- A step of the receiver. -/
def OfReceiver (event : Event T) : Prop := event.action = .kMsgqGet ∨ event.action = .logGet

def effort (state : State T) : Nat :=
  3 * (state.myMsgq.items.length + state.myMsgq.writers.length) +
    match state.receiver with | .logging _ => 2 | .getting => 1 | .waiting => 0

private theorem effort_lower (event : Event T) (state next : State T) (own : OfReceiver event)
    (taken : step event state = some next) : effort next < effort state := by
  cases step_took taken with
  | store | hand | block | timeout | logPut | wake => rcases own with own | own <;> cases own
  | fetch ordered here items noWriter noWriters sameReaders =>
    simp only [effort, here, items, noWriter, noWriters, List.length_cons]
    omega
  | release ordered here stored blocked items sameReaders =>
    simp only [effort, here, stored, blocked, items, List.length_cons, List.length_append, List.length_nil]
    omega
  | idle ordered here items sameWriters newReaders =>
    simp only [effort, here, items.1, items.2, sameWriters]
    omega
  | logGet ordered here =>
    simp only [effort, here]
    omega

/-- After the last put only the receiver is left. -/
structure Draining (state : State T) : Prop where
  flow : ∃ n, Flow state n
  returned : state.sender = .returned
  success : ∀ outcome ∈ outcomes state, outcome.2 = true

private theorem draining_step (event : Event T) (state next : State T) (draining : Draining state)
    (own : OfReceiver event) (taken : step event state = some next) : Draining next := by
  obtain ⟨⟨n, flow⟩, returned, success⟩ := draining
  have flows := flow_step flow taken
  have writers := flow.writers
  rw [returned] at writers
  cases step_took taken with
  | store | hand | block | timeout | logPut | wake => rcases own with own | own <;> cases own
  | fetch | idle => exact ⟨flows, returned, success⟩
  | release ordered here stored blocked items sameReaders => exact absurd (blocked.symm.trans writers) nofun
  | logGet ordered here =>
    refine ⟨flows, returned, ?_⟩
    rw [outcomes, reports_logGet]
    exact success

omit [CommRing T] [LinearOrder T] in
private theorem Draining.effort_le {state : State T} (draining : Draining state) : effort state ≤ 17 := by
  obtain ⟨⟨n, flow⟩, returned, _⟩ := draining
  have writers := flow.writers
  rw [returned] at writers
  have none : state.myMsgq.writers = [] := writers
  have bounded := state.myMsgq.bounded
  simp only [effort, none, List.length_nil]
  split <;> omega

theorem Draining.received {state : State T} (draining : Draining state)
    (exhausted : ∀ event : Event T, OfReceiver event → step event state = none) :
    received state.log = messages 1000 := by
  obtain ⟨⟨n, flow⟩, returned, success⟩ := draining
  have waiting : state.receiver = .waiting := by
    cases place : state.receiver with
    | waiting => rfl
    | getting =>
      have stuck := exhausted ⟨state.now, .kMsgqGet⟩ (.inl rfl)
      simp [step, place] at stuck
    | logging msg =>
      have stuck := exhausted ⟨state.now, .logGet⟩ (.inr rfl)
      simp [step, place] at stuck
  have readers := flow.readers
  rw [waiting] at readers
  have empty : state.myMsgq.items = [] := state.myMsgq.empty (readers ▸ List.cons_ne_nil _ _)
  have order := flow.order
  have attempts := flow.attempts
  rw [returned, flow.ended returned] at attempts
  rw [waiting, empty, accepted_all success, attempts, List.map_map] at order
  simpa [Receiver.hand, messages, concluded, Function.comp_def] using order

/-- As long as a message never lies in the buffer for 1500 ms without any get, no put fails: what has
been received, what the receiver has in hand and what lies in the buffer are the messages 0, 1, 2
and so on, and once the sender has returned the receiver comes to the end of all 1000 with at most
17 steps, whenever it takes them. -/
theorem no_loss [IsStrictOrderedRing T] (start : T) (schedule : List (Event T)) (state : State T)
    (kept : Along step Served schedule (boot start)) (ran : run step schedule (boot start) = some state) :
    (∀ outcome ∈ outcomes state, outcome.2 = true) ∧
    (∃ count ≤ 1000, received state.log ++ (state.receiver.hand ++ state.myMsgq.items) = messages count) ∧
    (state.sender = .returned →
      (∃ drain final, (∀ event ∈ drain, OfReceiver event) ∧ run step drain state = some final ∧
        ∀ event : Event T, OfReceiver event → step event final = none) ∧
      ∀ drain final, (∀ event ∈ drain, OfReceiver event) → run step drain state = some final →
        drain.length ≤ 17 ∧
        ((∀ event : Event T, OfReceiver event → step event final = none) → received final.log = messages 1000)) := by
  have reached : (∃ n, Flow state n) ∧ Timely state := by
    apply invariant_along _ kept ⟨⟨0, boot_flow start⟩, boot_timely start⟩ ran
    rintro event state next ⟨⟨n, flow⟩, timely⟩ served taken
    exact ⟨flow_step flow taken, timely_step flow timely served taken⟩
  obtain ⟨⟨n, flow⟩, timely⟩ := reached
  obtain ⟨⟨count, bound, attempts⟩, order⟩ := flow.delivered
  refine ⟨timely.success, ⟨count, bound, ?_⟩, fun returned => ?_⟩
  · rw [order, accepted_all timely.success, attempts, List.map_map]
    rfl
  · have last : Draining state := ⟨⟨n, flow⟩, returned, timely.success⟩
    refine ⟨exists_exhausted effort_lower state, fun drain final own drained => ⟨?_, fun exhausted => ?_⟩⟩
    · have total := length_le_measure effort_lower own drained
      have bound := last.effort_le
      omega
    · have draining : Draining final :=
        invariant_along draining_step (along_of_forall (fun event member _ => own event member) state) last drained
      exact draining.received exhausted

theorem no_loss_two : ∃ state : State Int, run step (put 0 ++ put 500) (boot 0) = some state ∧
    (∀ outcome ∈ outcomes state, outcome.2 = true) ∧
    ∃ count ≤ 1000, received state.log ++ (state.receiver.hand ++ state.myMsgq.items) = messages count := by
  obtain ⟨state, ran⟩ := Option.isSome_iff_exists.mp
    (show (run step (put 0 ++ put 500) (boot (0 : Int))).isSome by decide +kernel)
  have kept : Along step Served (put 0 ++ put 500) (boot (0 : Int)) := by decide +kernel
  obtain ⟨success, order, _⟩ := no_loss 0 _ state kept ran
  exact ⟨state, ran, success, order⟩

/-- Puts at 0, 500, 1000, … fill the buffer, with one get after the third of them and one after the sixth. -/
def lateGet : List (Event Int) :=
  put 0 ++ put 500 ++ [⟨1000, .kMsgqPut⟩, ⟨1000, .logPut⟩] ++ get 1400 ++ [⟨1500, .wake⟩] ++
    put 1500 ++ put 2000 ++ [⟨2500, .kMsgqPut⟩, ⟨2500, .logPut⟩] ++ get 2800 ++ [⟨3000, .wake⟩] ++ put 3000 ++
    [⟨3500, .kMsgqPut⟩] ++ get 4300 ++
    [⟨4300, .logPut⟩, ⟨4800, .wake⟩, ⟨4800, .kMsgqPut⟩, ⟨5800, .timeout⟩]

/-- 1500 ms themselves are too much: the put that finds the buffer full 500 ms after a get fails after
another 1000. -/
theorem later_get_fails : ∃ state,
    Along step (fun event state => state.myMsgq.items ≠ [] → event.time ≤ state.served + kMsec 1500) lateGet (boot 0) ∧
    run step lateGet (boot 0) = some state ∧ (8, false) ∈ outcomes state := by
  obtain ⟨state, ran, failed⟩ : ∃ state : State Int, run step lateGet (boot 0) = some state ∧
      (8, false) ∈ outcomes state := exists_run (by decide +kernel)
  exact ⟨state, by decide +kernel, ran, failed⟩

end ZephyrTutorial.Proofs.MsgqPace
