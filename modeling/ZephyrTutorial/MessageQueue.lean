import Mathlib.Data.List.Basic

/-! A message queue: a buffer of fixed capacity and the threads that wait at its two ends. Writers
wait only at a full buffer and readers only at an empty one; threads of one side take turns. -/

namespace ZephyrTutorial

universe u v

@[ext]
structure MessageQueue (τ : Type u) (α : Type v) (capacity : Nat) where
  items : List α
  writers : List (τ × α)
  readers : List τ
  bounded : items.length ≤ capacity
  full : writers ≠ [] → items.length = capacity
  empty : readers ≠ [] → items = []

namespace MessageQueue
variable {τ : Type u} {α : Type v} {capacity : Nat}

def init : MessageQueue τ α capacity :=
  ⟨[], [], [], Nat.zero_le _, fun waits => absurd rfl waits, fun _ => rfl⟩

inductive Put (τ : Type u)
  | stored
  | handed (reader : τ)
  | waiting
  deriving DecidableEq

inductive Get (τ : Type u) (α : Type v)
  /-- With the writer whose message has taken the free place. -/
  | got (item : α) (released : Option τ)
  | waiting
  deriving DecidableEq

/-- A reader that waits gets the message itself. -/
def put (queue : MessageQueue τ α capacity) (thread : τ) (item : α) : Put τ × MessageQueue τ α capacity :=
  if room : queue.items.length < capacity then
    match waits : queue.readers with
    | [] =>
      (.stored, { queue with
        items := queue.items ++ [item]
        bounded := by rw [List.length_append]; exact room
        full := fun blocked => absurd (queue.full blocked) (Nat.ne_of_lt room)
        empty := fun readers => absurd waits readers })
    | reader :: later =>
      (.handed reader, { queue with
        readers := later
        empty := fun _ => queue.empty (waits ▸ List.cons_ne_nil reader later) })
  else
    (.waiting, { queue with
      writers := queue.writers ++ [(thread, item)]
      full := fun _ => Nat.le_antisymm queue.bounded (Nat.le_of_not_lt room) })

/-- The oldest writer that waits gets the place that becomes free. -/
def get (queue : MessageQueue τ α capacity) (thread : τ) : Get τ α × MessageQueue τ α capacity :=
  match stored : queue.items with
  | item :: rest =>
    match blocked : queue.writers with
    | [] =>
      (.got item none, { queue with
        items := rest
        bounded := Nat.le_of_succ_le (by have := queue.bounded; rwa [stored] at this)
        full := fun writers => absurd blocked writers
        empty := fun readers => absurd (queue.empty readers) (stored ▸ List.cons_ne_nil item rest) })
    | (writer, message) :: later =>
      (.got item (some writer), { queue with
        items := rest ++ [message]
        writers := later
        bounded := by have := queue.bounded; rw [stored] at this; rwa [List.length_append]
        full := fun _ => by
          have filled := queue.full (blocked ▸ List.cons_ne_nil _ later)
          rw [stored] at filled
          rwa [List.length_append]
        empty := fun readers => absurd (queue.empty readers) (stored ▸ List.cons_ne_nil item rest) })
  | [] => (.waiting, { queue with readers := queue.readers ++ [thread], empty := fun _ => stored })

/-- A writer gives up when its time is over. -/
def cancel [DecidableEq τ] (queue : MessageQueue τ α capacity) (thread : τ) : MessageQueue τ α capacity :=
  { queue with
    writers := queue.writers.filter fun writer => writer.1 ≠ thread
    full := fun blocked => queue.full fun none => blocked (by rw [none]; rfl) }

variable {queue after : MessageQueue τ α capacity} {thread : τ} {item : α}

private theorem writers_of_room (room : queue.items.length < capacity) : queue.writers = [] := by
  by_contra blocked
  exact Nat.ne_of_lt room (queue.full blocked)

/-- The three ways in which a put can end. -/
theorem put_cases {result : Put τ} (taken : queue.put thread item = (result, after)) :
    (result = .stored ∧ queue.readers = [] ∧ queue.items.length < capacity ∧
      after.items = queue.items ++ [item] ∧ after.writers = [] ∧ after.readers = []) ∨
    (∃ reader later, result = .handed reader ∧ queue.readers = reader :: later ∧ queue.items = [] ∧
      after.items = [] ∧ after.writers = [] ∧ after.readers = later) ∨
    (result = .waiting ∧ queue.items.length = capacity ∧ after.items = queue.items ∧
      after.writers = queue.writers ++ [(thread, item)] ∧ after.readers = queue.readers) := by
  unfold put at taken
  split at taken
  next room =>
    have free := writers_of_room room
    split at taken
    next none =>
      cases taken
      exact .inl ⟨rfl, none, room, rfl, free, none⟩
    next reader later waits =>
      cases taken
      have empty := queue.empty (waits ▸ List.cons_ne_nil reader later)
      exact .inr (.inl ⟨reader, later, rfl, waits, empty, empty, free, rfl⟩)
  next full =>
    cases taken
    exact .inr (.inr ⟨rfl, Nat.le_antisymm queue.bounded (Nat.le_of_not_lt full), rfl, rfl, rfl⟩)

/-- The three ways in which a get can end. -/
theorem get_cases {result : Get τ α} (taken : queue.get thread = (result, after)) :
    (∃ item rest, result = .got item none ∧ queue.items = item :: rest ∧ queue.writers = [] ∧
      after.items = rest ∧ after.writers = [] ∧ after.readers = queue.readers) ∨
    (∃ item rest writer message later, result = .got item (some writer) ∧ queue.items = item :: rest ∧
      queue.writers = (writer, message) :: later ∧ after.items = rest ++ [message] ∧ after.writers = later ∧
      after.readers = queue.readers) ∨
    (result = .waiting ∧ queue.items = [] ∧ after.items = [] ∧ after.writers = queue.writers ∧
      after.readers = queue.readers ++ [thread]) := by
  unfold get at taken
  split at taken
  next item rest stored =>
    split at taken
    next free =>
      cases taken
      exact .inl ⟨item, rest, rfl, stored, free, rfl, free, rfl⟩
    next writer message later blocked =>
      cases taken
      exact .inr (.inl ⟨item, rest, writer, message, later, rfl, stored, blocked, rfl, rfl, rfl⟩)
  next stored =>
    cases taken
    exact .inr (.inr ⟨rfl, stored, stored, rfl, rfl⟩)

end MessageQueue

end ZephyrTutorial
