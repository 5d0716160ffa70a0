import Mathlib.Data.List.Nodup

/-! Kernel objects. What their operations keep is a field of the object, so none can leave
a ring above its capacity, a semaphore above its limit or a work item queued twice. -/

namespace ZephyrTutorial.Kernel

universe u

/-- A ring buffer of fixed capacity, oldest item first. -/
@[ext]
structure RingBuf (α : Type u) (capacity : Nat) where
  items : List α
  bounded : items.length ≤ capacity
  deriving DecidableEq

namespace RingBuf
variable {α : Type u} {capacity : Nat}

def empty : RingBuf α capacity := ⟨[], Nat.zero_le _⟩

/-- Store one item and return how many were stored. A full ring stores nothing. -/
def put (ring : RingBuf α capacity) (item : α) : Nat × RingBuf α capacity :=
  if room : ring.items.length < capacity then
    (1, ⟨ring.items ++ [item], by simp only [List.length_append, List.length_singleton]; omega⟩)
  else (0, ring)

def get (ring : RingBuf α capacity) : Option (α × RingBuf α capacity) :=
  match stored : ring.items with
  | [] => none
  | item :: rest => some (item, ⟨rest, by
      have := ring.bounded
      rw [stored, List.length_cons] at this
      omega⟩)

@[simp]
theorem empty_items : (empty : RingBuf α capacity).items = [] := rfl

theorem put_room {ring : RingBuf α capacity} (item : α) (room : ring.items.length < capacity) :
    (ring.put item).1 = 1 ∧ (ring.put item).2.items = ring.items ++ [item] := by
  simp [put, room]

theorem put_full {ring : RingBuf α capacity} (item : α) (full : ¬ ring.items.length < capacity) :
    ring.put item = (0, ring) := by
  simp [put, full]

theorem put_items (ring : RingBuf α capacity) (item : α) :
    (ring.put item).2.items = ring.items ++ if (ring.put item).1 = 1 then [item] else [] := by
  by_cases room : ring.items.length < capacity
  · obtain ⟨stored, items⟩ := put_room item room
    rw [stored, items, if_pos rfl]
  · rw [put_full item room]
    simp

/-- A put never changes what is already stored; the overflow is cut off at the end. -/
theorem put_take (ring : RingBuf α capacity) (item : α) :
    (ring.put item).2.items = (ring.items ++ [item]).take capacity := by
  have bounded := ring.bounded
  by_cases room : ring.items.length < capacity
  · rw [(put_room item room).2, List.take_of_length_le]
    rw [List.length_append, List.length_singleton]
    omega
  · have full : ring.items.length = capacity := by omega
    rw [put_full item room]
    exact (List.take_left' full).symm

theorem take_append_take (first rest : List α) (size : Nat) :
    (first.take size ++ rest).take size = (first ++ rest).take size := by
  rw [List.take_append, List.take_append, List.take_take, Nat.min_self, List.length_take]
  congr 2
  omega

theorem get_eq_none {ring : RingBuf α capacity} : ring.get = none ↔ ring.items = [] := by
  unfold get
  split <;> simp_all

theorem get_eq_some {ring rest : RingBuf α capacity} {item : α} :
    ring.get = some (item, rest) ↔ ring.items = item :: rest.items := by
  unfold get
  split
  next empty => simp [empty]
  next first later stored =>
    simp only [stored, Option.some.injEq, Prod.mk.injEq, List.cons.injEq, RingBuf.ext_iff]

end RingBuf

/-- A counting semaphore. A give at the limit is absorbed. -/
@[ext]
structure Sem (limit : Nat) where
  count : Nat
  bounded : count ≤ limit
  deriving DecidableEq

namespace Sem
variable {limit : Nat}

/-- `K_SEM_DEFINE` with the initial count 0. -/
def down : Sem limit := ⟨0, Nat.zero_le limit⟩

def give (sem : Sem limit) : Sem limit := ⟨min (sem.count + 1) limit, Nat.min_le_right _ _⟩

/-- Taking is possible only at a positive count; otherwise the caller stays blocked. -/
def take (sem : Sem limit) : Option (Sem limit) :=
  if sem.count = 0 then none else some ⟨sem.count - 1, by have := sem.bounded; omega⟩

theorem exists_take (sem : Sem limit) (positive : 0 < sem.count) : ∃ after, sem.take = some after := by
  rw [take, if_neg (Nat.ne_of_gt positive)]
  exact ⟨_, rfl⟩

theorem give_pos (sem : Sem limit) (positive : 0 < limit) : 0 < sem.give.count := by
  simp only [give]
  omega

theorem take_eq_some {sem after : Sem limit} :
    sem.take = some after ↔ sem.count = after.count + 1 := by
  unfold take
  split
  next zero => simp [zero]
  next positive =>
    rw [Option.some.injEq, Sem.ext_iff]
    simp only
    omega

end Sem

@[ext]
structure Mutex (τ : Type u) where
  owner : Option τ
  lockCount : Nat
  counted : lockCount = 0 ↔ owner = none

namespace Mutex
variable {τ : Type u}

def init : Mutex τ := ⟨none, 0, by simp⟩

variable [DecidableEq τ]

/-- The owner may lock again. Every other caller stays blocked until the mutex is free. -/
def lock (mutex : Mutex τ) (thread : τ) : Option (Mutex τ) :=
  if mutex.owner = none ∨ mutex.owner = some thread then some ⟨some thread, mutex.lockCount + 1, by simp⟩
  else none

/-- A caller that is not the owner gets an error and changes nothing. -/
def unlock (mutex : Mutex τ) (thread : τ) : Mutex τ :=
  if mutex.owner = some thread then
    if again : 1 < mutex.lockCount then ⟨some thread, mutex.lockCount - 1, by simp; omega⟩ else init
  else mutex

theorem lock_eq_some {mutex after : Mutex τ} {thread : τ} (taken : mutex.lock thread = some after) :
    (mutex.owner = none ∨ mutex.owner = some thread) ∧
      after.owner = some thread ∧ after.lockCount = mutex.lockCount + 1 := by
  unfold lock at taken
  split at taken
  next free => cases taken; exact ⟨free, rfl, rfl⟩
  next => cases taken

theorem unlock_last {mutex : Mutex τ} {thread : τ} (owned : mutex.owner = some thread)
    (once : mutex.lockCount ≤ 1) : mutex.unlock thread = init := by
  rw [unlock, if_pos owned, dif_neg (Nat.not_lt.mpr once)]

end Mutex

/-- The items that wait for the thread of a work queue, oldest first. -/
structure WorkQueue (α : Type u) where
  items : List α
  distinct : items.Nodup

namespace WorkQueue
variable {α : Type u}

def init : WorkQueue α := ⟨[], List.nodup_nil⟩

/-- An item that is already queued stays where it is. -/
def submit [DecidableEq α] (work : WorkQueue α) (item : α) : WorkQueue α :=
  if queued : item ∈ work.items then work
  else ⟨work.items ++ [item], List.nodup_append_comm.mp (List.nodup_cons.mpr ⟨queued, work.distinct⟩)⟩

def take (work : WorkQueue α) : Option (α × WorkQueue α) :=
  match stored : work.items with
  | [] => none
  | item :: rest => some (item, ⟨rest, (List.nodup_cons.mp (stored ▸ work.distinct)).2⟩)

theorem submit_queued [DecidableEq α] {work : WorkQueue α} {item : α} (queued : item ∈ work.items) :
    work.submit item = work := dif_pos queued

theorem submit_fresh [DecidableEq α] {work : WorkQueue α} {item : α} (fresh : item ∉ work.items) :
    (work.submit item).items = work.items ++ [item] := by
  rw [submit, dif_neg fresh]

theorem take_eq_some {work rest : WorkQueue α} {item : α} (taken : work.take = some (item, rest)) :
    work.items = item :: rest.items := by
  unfold take at taken
  split at taken
  next => cases taken
  next first later stored => cases taken; exact stored

theorem take_cons {work : WorkQueue α} {item : α} {later : List α} (stored : work.items = item :: later) :
    ∃ rest, work.take = some (item, rest) ∧ rest.items = later := by
  unfold take
  split
  next empty => rw [empty] at stored; cases stored
  next first behind same =>
    rw [same] at stored
    cases stored
    exact ⟨_, rfl, rfl⟩

end WorkQueue

end ZephyrTutorial.Kernel
