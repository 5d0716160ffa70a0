import Mathlib.Algebra.Order.Ring.Int
import Mathlib.Data.List.Range
import ZephyrTutorial.Msgq

/-! Delivery through the message queue. At each point of the sender's loop the buffer, the message in
the receiver's hand and the log hold the messages of all puts that have succeeded. -/

namespace ZephyrTutorial.Proofs.MsgqDelivery
open ZephyrTutorial.Msgq Machine

universe u

variable {T : Type u} {event : Event T} {state next : State T}

private theorem received_append (first rest : List Log) : received (first ++ rest) = received first ++ received rest :=
  List.filterMap_append

private theorem reports_append (first rest : List Log) : reports (first ++ rest) = reports first ++ reports rest :=
  List.filterMap_append

private theorem accepted_append (first rest : List (UInt32 × Bool)) :
    accepted (first ++ rest) = accepted first ++ accepted rest := List.filterMap_append

/-- What the sender has in the queue's wait list. -/
def offer (i : UInt32) : Sender T → List (ThreadId × MsgData)
  | .waiting _ => [(.threadSend, msgData i)]
  | .putting | .logging _ | .sleeping _ | .returned => []

def waits : Receiver → List ThreadId
  | .waiting => [.threadGet]
  | .getting | .logging _ => []

/-- Whether the put for the current id is over. -/
def concluded : Sender T → Nat
  | .logging _ | .sleeping _ => 1
  | .putting | .waiting _ | .returned => 0

/-- The sender is at the id `n`. -/
structure Flow (state : State T) (n : Nat) : Prop where
  index : state.i = UInt32.ofNat n
  bound : n ≤ 1000
  more : state.sender ≠ .returned → n < 1000
  ended : state.sender = .returned → n = 1000
  writers : state.myMsgq.writers = offer state.i state.sender
  readers : state.myMsgq.readers = waits state.receiver
  attempts : (outcomes state).map Prod.fst = (List.range (n + concluded state.sender)).map UInt32.ofNat
  order : received state.log ++ (state.receiver.hand ++ state.myMsgq.items) = accepted (outcomes state)

/-- A report that is logged is no longer pending. -/
theorem reports_logPut {success : Bool} (here : state.sender = .logging success) :
    reports (state.log ++ [if success then .sent state.i else .failed state.i]) = outcomes state := by
  rw [reports_append, outcomes, here]
  cases success <;> rfl

theorem reports_logGet (msg : MsgData) : reports (state.log ++ [.received msg.id msg.count]) = reports state.log := by
  rw [reports_append]
  exact List.append_nil _

theorem boot_flow (start : T) : Flow (boot start) 0 :=
  ⟨rfl, Nat.zero_le _, fun _ => by decide, nofun, rfl, rfl, rfl, rfl⟩

theorem Flow.delivered {n : Nat} (flow : Flow state n) : Delivered state := by
  refine ⟨⟨n + concluded state.sender, ?_, flow.attempts⟩, flow.order⟩
  have bound := flow.bound
  have more := flow.more
  cases place : state.sender with
  | putting | waiting | returned => exact bound
  | logging | sleeping =>
    rw [place] at more
    exact more nofun

private theorem attempts_next {n : Nat} {before : List (UInt32 × Bool)} (index : state.i = UInt32.ofNat n)
    (attempts : before.map Prod.fst = (List.range n).map UInt32.ofNat) (success : Bool) :
    (before ++ [(state.i, success)]).map Prod.fst = (List.range (n + 1)).map UInt32.ofNat := by
  rw [List.map_append, attempts, List.range_succ, List.map_append, index]
  rfl

section Step
variable [Ring T] [LinearOrder T]

/-- Everything that an event can do, with the conditions under which it does it. -/
inductive Took (state : State T) : Event T → State T → Prop
  | store {time : T} {myMsgq : MessageQueue ThreadId MsgData 5} (ordered : state.now ≤ time)
    (here : state.sender = .putting) (noReader : state.myMsgq.readers = [])
    (items : myMsgq.items = state.myMsgq.items ++ [msgData state.i]) (writers : myMsgq.writers = [])
    (readers : myMsgq.readers = []) :
    Took state ⟨time, .kMsgqPut⟩
      { state with
        now := time, myMsgq, sender := .logging true
        served := if state.myMsgq.items = [] then time else state.served }
  | hand {time : T} {reader : ThreadId} {myMsgq : MessageQueue ThreadId MsgData 5} (ordered : state.now ≤ time)
    (here : state.sender = .putting) (waits : state.myMsgq.readers = reader :: myMsgq.readers)
    (items : state.myMsgq.items = [] ∧ myMsgq.items = []) (writers : myMsgq.writers = []) :
    Took state ⟨time, .kMsgqPut⟩
      { state with now := time, myMsgq, sender := .logging true, receiver := .logging (msgData state.i) }
  | block {time : T} {myMsgq : MessageQueue ThreadId MsgData 5} (ordered : state.now ≤ time)
    (here : state.sender = .putting) (full : state.myMsgq.items.length = 5)
    (items : myMsgq.items = state.myMsgq.items)
    (writers : myMsgq.writers = state.myMsgq.writers ++ [(.threadSend, msgData state.i)])
    (readers : myMsgq.readers = state.myMsgq.readers) :
    Took state ⟨time, .kMsgqPut⟩ { state with now := time, myMsgq, sender := .waiting (time + kMsec 1000) }
  | timeout {time due : T} (ordered : state.now ≤ time) (here : state.sender = .waiting due) (late : due ≤ time) :
    Took state ⟨time, .timeout⟩
      { state with now := time, myMsgq := state.myMsgq.cancel .threadSend, sender := .logging false }
  | logPut {time : T} {success : Bool} (ordered : state.now ≤ time) (here : state.sender = .logging success) :
    Took state ⟨time, .logPut⟩
      { state with
        now := time, log := state.log ++ [if success then .sent state.i else .failed state.i]
        sender := .sleeping (time + kMsec 500) }
  | wake {time due : T} (ordered : state.now ≤ time) (here : state.sender = .sleeping due) (late : due ≤ time) :
    Took state ⟨time, .wake⟩
      { state with now := time, i := state.i + 1, sender := if state.i + 1 < 1000 then .putting else .returned }
  | fetch {time : T} {msg : MsgData} {myMsgq : MessageQueue ThreadId MsgData 5} (ordered : state.now ≤ time)
    (here : state.receiver = .getting) (items : state.myMsgq.items = msg :: myMsgq.items)
    (noWriter : state.myMsgq.writers = []) (writers : myMsgq.writers = [])
    (readers : myMsgq.readers = state.myMsgq.readers) :
    Took state ⟨time, .kMsgqGet⟩ { state with now := time, myMsgq, receiver := .logging msg, served := time }
  | release {time : T} {msg message : MsgData} {writer : ThreadId} {rest : List MsgData}
    {myMsgq : MessageQueue ThreadId MsgData 5} (ordered : state.now ≤ time) (here : state.receiver = .getting)
    (stored : state.myMsgq.items = msg :: rest) (blocked : state.myMsgq.writers = (writer, message) :: myMsgq.writers)
    (items : myMsgq.items = rest ++ [message]) (readers : myMsgq.readers = state.myMsgq.readers) :
    Took state ⟨time, .kMsgqGet⟩
      { state with
        now := time, myMsgq, receiver := .logging msg, served := time
        sender := if some writer = some .threadSend then .logging true else state.sender }
  | idle {time : T} {myMsgq : MessageQueue ThreadId MsgData 5} (ordered : state.now ≤ time)
    (here : state.receiver = .getting) (items : state.myMsgq.items = [] ∧ myMsgq.items = [])
    (writers : myMsgq.writers = state.myMsgq.writers)
    (readers : myMsgq.readers = state.myMsgq.readers ++ [.threadGet]) :
    Took state ⟨time, .kMsgqGet⟩ { state with now := time, myMsgq, receiver := .waiting }
  | logGet {time : T} {msg : MsgData} (ordered : state.now ≤ time) (here : state.receiver = .logging msg) :
    Took state ⟨time, .logGet⟩
      { state with now := time, log := state.log ++ [.received msg.id msg.count], receiver := .getting }

private theorem put_took {time : T} (ordered : state.now ≤ time) (here : state.sender = .putting) :
    Took state ⟨time, .kMsgqPut⟩ (kMsgqPut time { state with now := time }) := by
  unfold kMsgqPut
  cases put : state.myMsgq.put .threadSend (msgData state.i) with
  | mk result myMsgq =>
    rcases MessageQueue.put_cases put with ⟨rfl, noReader, _, items, writers, readers⟩ |
      ⟨reader, later, rfl, waits, empty, items, writers, readers⟩ | ⟨rfl, full, items, writers, readers⟩
    · exact .store ordered here noReader items writers readers
    · exact .hand ordered here (readers ▸ waits) ⟨empty, items⟩ writers
    · exact .block ordered here full items writers readers

private theorem get_took {time : T} (ordered : state.now ≤ time) (here : state.receiver = .getting) :
    Took state ⟨time, .kMsgqGet⟩ (kMsgqGet time { state with now := time }) := by
  unfold kMsgqGet
  cases get : state.myMsgq.get .threadGet with
  | mk result myMsgq =>
    rcases MessageQueue.get_cases get with ⟨msg, rest, rfl, stored, free, items, writers, readers⟩ |
      ⟨msg, rest, writer, message, later, rfl, stored, blocked, items, writers, readers⟩ |
      ⟨rfl, empty, items, writers, readers⟩
    · exact .fetch ordered here (items ▸ stored) free writers readers
    · exact .release ordered here stored (writers ▸ blocked) items readers
    · exact .idle ordered here ⟨empty, items⟩ writers readers

theorem step_took (taken : step event state = some next) : Took state event next := by
  obtain ⟨time, action⟩ := event
  simp only [step] at taken
  split at taken
  next ordered =>
    split at taken
    next here => cases taken; exact put_took ordered here
    next due here =>
      split at taken
      next late => cases taken; exact .timeout ordered here late
      next => cases taken
    next success here => cases taken; exact .logPut ordered here
    next due here =>
      split at taken
      next late => cases taken; exact .wake ordered here late
      next => cases taken
    next here => cases taken; exact get_took ordered here
    next msg here => cases taken; exact .logGet ordered here
    next => cases taken
  next => cases taken

theorem flow_step {n : Nat} (flow : Flow state n) (taken : step event state = some next) : ∃ n, Flow next n := by
  obtain ⟨index, bound, more, ended, writers, readers, attempts, order⟩ := flow
  cases step_took taken with
  | store ordered here noReader items noWriter noReaders =>
    rw [here] at more attempts
    simp only [outcomes, here, Sender.report, List.append_nil, concluded, Nat.add_zero] at attempts order
    refine ⟨n, index, bound, fun _ => more (by simp), by simp, noWriter, ?_, attempts_next index attempts true, ?_⟩
    · rw [noReaders, ← readers, noReader]
    · simp only [outcomes, Sender.report, items, accepted_append, ← order]
      simp [accepted]
  | hand ordered here waiting items noWriter =>
    rw [here] at more attempts
    simp only [outcomes, here, Sender.report, List.append_nil, concluded, Nat.add_zero] at attempts order
    cases place : state.receiver with
    | getting | logging => rw [place] at readers; exact absurd (waiting.symm.trans readers) (List.cons_ne_nil _ _)
    | waiting =>
      rw [place] at readers order
      have last := (List.cons.inj (waiting.symm.trans readers)).2
      refine ⟨n, index, bound, fun _ => more (by simp), by simp, noWriter, last, attempts_next index attempts true, ?_⟩
      simp only [outcomes, Sender.report, accepted_append, ← order, items.1, items.2]
      simp [accepted, Receiver.hand]
  | block ordered here full items blocked noReaders =>
    rw [here] at more attempts writers
    simp only [outcomes, here, Sender.report, List.append_nil, concluded, Nat.add_zero] at attempts order
    refine ⟨n, index, bound, fun _ => more (by simp), by simp, ?_, noReaders.trans readers, ?_, ?_⟩
    · rw [blocked, writers]
      rfl
    · simpa only [outcomes, Sender.report, concluded, Nat.add_zero, List.append_nil] using attempts
    · simpa only [outcomes, Sender.report, List.append_nil, items] using order
  | timeout ordered here late =>
    rw [here] at more attempts writers
    simp only [outcomes, here, Sender.report, List.append_nil, concluded, Nat.add_zero] at attempts order
    refine ⟨n, index, bound, fun _ => more (by simp), by simp, ?_, readers, attempts_next index attempts false, ?_⟩
    · simp [MessageQueue.cancel, writers, offer]
    · simp only [outcomes, Sender.report, accepted_append, ← order]
      simp [accepted, MessageQueue.cancel]
  | @logPut time success ordered here =>
    rw [here] at more attempts writers
    have reported := reports_logPut here
    have silent : received (state.log ++ [if success then .sent state.i else .failed state.i]) = received state.log := by
      rw [received_append]
      cases success <;> simp [received]
    refine ⟨n, index, bound, fun _ => more (by simp), by simp, writers, readers, ?_, ?_⟩
    · simpa only [outcomes, Sender.report, concluded, List.append_nil, reported] using attempts
    · show received (state.log ++ _) ++ _ = accepted (reports (state.log ++ _) ++ [])
      rw [silent, List.append_nil, reported]
      exact order
  | wake ordered here late =>
    rw [here] at more attempts writers
    have less := more (by simp)
    have following : state.i + 1 = UInt32.ofNat (n + 1) := by rw [index, UInt32.ofNat_add]; rfl
    have limit : state.i + 1 < 1000 ↔ n + 1 < 1000 := by
      rw [following, UInt32.lt_iff_toNat_lt, UInt32.toNat_ofNat_of_lt' (Nat.lt_of_le_of_lt less (by decide))]
      rfl
    simp only [outcomes, here, Sender.report, List.append_nil, concluded] at attempts order
    by_cases again : n + 1 < 1000
    · refine ⟨n + 1, following, again.le, fun _ => again, ?_, ?_, readers, ?_, ?_⟩
      · simp [limit, again]
      · simp only [limit, if_pos again, writers, offer]
      · simpa only [outcomes, limit, if_pos again, Sender.report, concluded, Nat.add_zero, List.append_nil] using attempts
      · simpa only [outcomes, limit, if_pos again, Sender.report, concluded, Nat.add_zero, List.append_nil] using order
    · refine ⟨n + 1, following, less, ?_, fun _ => by omega, ?_, readers, ?_, ?_⟩
      · simp [limit, again]
      · simp only [limit, if_neg again, writers, offer]
      · simpa only [outcomes, limit, if_neg again, Sender.report, concluded, Nat.add_zero, List.append_nil] using attempts
      · simpa only [outcomes, limit, if_neg again, Sender.report, concluded, Nat.add_zero, List.append_nil] using order
  | fetch ordered here items noWriter noWriters sameReaders =>
    rw [here] at readers order
    rw [noWriter] at writers
    refine ⟨n, index, bound, more, ended, noWriters.trans writers, sameReaders.trans readers, attempts, ?_⟩
    rw [items] at order
    exact order
  | release ordered here stored blocked items sameReaders =>
    rw [here] at readers order
    rw [stored] at order
    cases place : state.sender with
    | putting | logging | sleeping | returned =>
      rw [place] at writers
      exact absurd (blocked.symm.trans writers) (List.cons_ne_nil _ _)
    | waiting due =>
      rw [place] at writers more attempts
      obtain ⟨pair, last⟩ := List.cons.inj (blocked.symm.trans writers)
      obtain ⟨rfl, rfl⟩ := Prod.mk.inj pair
      simp only [outcomes, place, Sender.report, List.append_nil, concluded, Nat.add_zero] at attempts order
      refine ⟨n, index, bound, fun _ => more (by simp), by simp, last, sameReaders.trans readers, ?_, ?_⟩
      · exact attempts_next index attempts true
      · simp only [outcomes, if_true, Sender.report, accepted_append, ← order, items]
        simp [accepted, Receiver.hand]
  | idle ordered here items sameWriters newReaders =>
    rw [here] at readers order
    refine ⟨n, index, bound, more, ended, sameWriters.trans writers, ?_, attempts, ?_⟩
    · rw [newReaders, readers]
      rfl
    · rw [items.2]
      rw [items.1] at order
      exact order
  | @logGet time msg ordered here =>
    rw [here] at readers order
    refine ⟨n, index, bound, more, ended, writers, readers, ?_, ?_⟩
    · rw [outcomes, reports_logGet]
      exact attempts
    · rw [outcomes, reports_logGet, ← outcomes, ← order, received_append]
      simp [received, Receiver.hand]

theorem run_flow {start : T} {schedule : List (Event T)} (ran : run step schedule (boot start) = some state) :
    ∃ n, Flow state n := by
  apply invariant _ ⟨0, boot_flow start⟩ ran
  intro event state next kept taken
  obtain ⟨n, flow⟩ := kept
  exact flow_step flow taken

/-- However the two threads are delayed, and whichever puts time out: each id is tried once and in
order, and the successful ones are received in this order, none of them lost, repeated or changed. -/
theorem messages_delivered (start : T) (schedule : List (Event T)) (state : State T)
    (ran : run step schedule (boot start) = some state) : Delivered state := by
  obtain ⟨n, flow⟩ := run_flow ran
  exact flow.delivered

end Step

def put (time : Int) : List (Event Int) := [⟨time, .kMsgqPut⟩, ⟨time, .logPut⟩, ⟨time + 500, .wake⟩]

def get (time : Int) : List (Event Int) := [⟨time, .kMsgqGet⟩, ⟨time, .logGet⟩]

theorem messages_delivered_timeout : ∃ state : State Int, run step (put 0 ++ put 500 ++ put 1000 ++ put 1500 ++ put 2000 ++
      [⟨2500, .kMsgqPut⟩, ⟨3500, .timeout⟩, ⟨3500, .logPut⟩, ⟨4000, .wake⟩] ++ get 4000 ++ put 4000) (boot 0) =
      some state ∧ Delivered state := by
  obtain ⟨state, ran⟩ := Option.isSome_iff_exists.mp
    (show (run step (put 0 ++ put 500 ++ put 1000 ++ put 1500 ++ put 2000 ++
      [⟨2500, .kMsgqPut⟩, ⟨3500, .timeout⟩, ⟨3500, .logPut⟩, ⟨4000, .wake⟩] ++ get 4000 ++ put 4000)
      (boot (0 : Int))).isSome by decide +kernel)
  exact ⟨state, ran, messages_delivered 0 _ state ran⟩

end ZephyrTutorial.Proofs.MsgqDelivery
