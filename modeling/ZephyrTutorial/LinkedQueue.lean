import Mathlib.Data.Fintype.Card
import Mathlib.Data.List.Nodup

/-! An intrusive queue: the links are words of the nodes themselves, so a node that is
appended while it is still queued damages the queue. -/

namespace ZephyrTutorial

universe u

structure LinkedQueue (α : Type u) where
  head : Option α
  tail : Option α
  next : α → Option α

namespace LinkedQueue
variable {α : Type u}

def empty : LinkedQueue α := ⟨none, none, fun _ => none⟩

def append [DecidableEq α] (queue : LinkedQueue α) (node : α) : LinkedQueue α :=
  let next := Function.update queue.next node none
  match queue.tail with
  | none => ⟨some node, some node, next⟩
  | some tail => ⟨queue.head, some node, Function.update next tail (some node)⟩

def get [DecidableEq α] (queue : LinkedQueue α) : Option (α × LinkedQueue α) :=
  queue.head.map fun node =>
    let head := queue.next node
    (node, { queue with head, tail := if queue.tail = some node then head else queue.tail })

/-- Follow the links for a number of nodes. -/
def walk (next : α → Option α) : Nat → Option α → List α
  | 0, _ | _, none => []
  | fuel + 1, some node => node :: walk next fuel (next node)

/-- The nodes from head to tail. A walk with more nodes than there are has met one twice. -/
def items [Fintype α] (queue : LinkedQueue α) : List α :=
  walk queue.next (Fintype.card α + 1) queue.head

/-- The links lead from `start` through the given nodes to `stop`. -/
def Segment (next : α → Option α) (stop : Option α) : Option α → List α → Prop
  | start, [] => start = stop
  | start, node :: rest => start = some node ∧ Segment next stop (next node) rest

structure Represents (queue : LinkedQueue α) (nodes : List α) : Prop where
  linked : Segment queue.next none queue.head nodes
  last : queue.tail = nodes.getLast?
  distinct : nodes.Nodup

private theorem segment_append {next : α → Option α} {start stop : Option α} {first rest : List α} :
    Segment next stop start (first ++ rest) ↔
      ∃ middle, Segment next middle start first ∧ Segment next stop middle rest := by
  induction first generalizing start with
  | nil => simp [Segment]
  | cons node first ih => simp only [List.cons_append, Segment, ih, and_assoc, exists_and_left]

/-- Links of other nodes do not matter. -/
private theorem segment_update [DecidableEq α] {next : α → Option α} {start stop : Option α} {nodes : List α}
    {node : α} (link : Option α) (absent : node ∉ nodes) :
    Segment (Function.update next node link) stop start nodes ↔ Segment next stop start nodes := by
  induction nodes generalizing start with
  | nil => rfl
  | cons first nodes ih =>
    simp only [List.mem_cons, not_or] at absent
    simp only [Segment, ih absent.2, Function.update_of_ne (Ne.symm absent.1)]

private theorem walk_segment {next : α → Option α} {start : Option α} {nodes : List α}
    (linked : Segment next none start nodes) {fuel : Nat} (enough : nodes.length ≤ fuel) :
    walk next fuel start = nodes := by
  induction nodes generalizing start fuel with
  | nil => cases linked; cases fuel <;> rfl
  | cons node nodes ih =>
    obtain ⟨rfl, linked⟩ := linked
    cases fuel with
    | zero => cases enough
    | succ fuel => rw [walk, ih linked (Nat.le_of_succ_le_succ enough)]

theorem represents_empty : Represents (empty : LinkedQueue α) [] := ⟨rfl, rfl, List.nodup_nil⟩

theorem Represents.items_eq [Fintype α] {queue : LinkedQueue α} {nodes : List α}
    (represents : Represents queue nodes) : queue.items = nodes :=
  walk_segment represents.linked (represents.distinct.length_le_card.trans (Nat.le_succ _))

theorem Represents.append [DecidableEq α] {queue : LinkedQueue α} {nodes : List α} {node : α}
    (represents : Represents queue nodes) (absent : node ∉ nodes) :
    Represents (queue.append node) (nodes ++ [node]) := by
  have linked := represents.linked
  have distinct : (nodes ++ [node]).Nodup := by
    rw [← List.concat_eq_append, List.nodup_concat]
    exact ⟨absent, represents.distinct⟩
  rw [LinkedQueue.append]
  split
  next last =>
    have none : nodes = [] := List.getLast?_eq_none_iff.mp (represents.last ▸ last)
    subst none
    exact ⟨⟨rfl, Function.update_self ..⟩, rfl, distinct⟩
  next tail last =>
    obtain ⟨front, rfl⟩ := List.getLast?_eq_some_iff.mp (represents.last ▸ last)
    rw [List.mem_append, List.mem_singleton, not_or] at absent
    have fresh : tail ∉ front := by
      have := represents.distinct
      rw [← List.concat_eq_append, List.nodup_concat] at this
      exact this.1
    obtain ⟨middle, linked, rfl, -⟩ := segment_append.mp linked
    refine ⟨?_, by simp, distinct⟩
    rw [List.append_assoc, segment_append]
    refine ⟨some tail, ?_, rfl, ?_⟩
    · exact (segment_update _ fresh).mpr ((segment_update _ absent.1).mpr linked)
    · refine ⟨Function.update_self .., ?_⟩
      show Function.update (Function.update queue.next node none) tail (some node) node = none
      rw [Function.update_of_ne absent.2, Function.update_self]

theorem Represents.get [DecidableEq α] {queue : LinkedQueue α} {node : α} {nodes : List α}
    (represents : Represents queue (node :: nodes)) :
    ∃ rest, queue.get = some (node, rest) ∧ Represents rest nodes := by
  obtain ⟨head, linked⟩ := represents.linked
  obtain ⟨absent, distinct⟩ := List.nodup_cons.mp represents.distinct
  refine ⟨_, by rw [LinkedQueue.get, head]; rfl, linked, ?_, distinct⟩
  cases nodes with
  | nil =>
    exact (if_pos (show queue.tail = some node from represents.last)).trans linked
  | cons second nodes =>
    have last : queue.tail = (second :: nodes).getLast? := by rw [represents.last, List.getLast?_cons_cons]
    have other : queue.tail ≠ some node := by
      intro same
      exact absent (List.mem_of_getLast? (last ▸ same))
    show (if queue.tail = some node then queue.next node else queue.tail) = _
    rw [if_neg other, last]

theorem Represents.get_nil [DecidableEq α] {queue : LinkedQueue α} (represents : Represents queue []) :
    queue.get = none := by
  rw [LinkedQueue.get, represents.linked]
  rfl

end LinkedQueue

end ZephyrTutorial
