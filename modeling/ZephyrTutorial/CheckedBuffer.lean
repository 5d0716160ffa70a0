import ZephyrTutorial.CString

/-! A C buffer whose accesses are checked. A cell has a value only after a store, so a read of
an uninitialized or discarded byte is a fault, and so is an access outside of the buffer. -/

namespace ZephyrTutorial.CheckedBuffer

universe u

inductive Fault
  | outside | unwritten
  /-- An increment of a `uint8_t` that does not fit. -/
  | wrapped
  deriving DecidableEq, Repr

@[simp]
theorem ok_bind {α β : Type u} (value : α) (next : α → Except Fault β) : (Except.ok value >>= next) = next value :=
  rfl

structure Buffer (α : Type u) (size : Nat) where
  cells : Vector (Option α) size
  deriving DecidableEq

namespace Buffer
variable {α : Type u} {size : Nat}

def unwritten : Buffer α size := ⟨.replicate size none⟩

def load (buffer : Buffer α size) (index : Int) : Except Fault α :=
  if 0 ≤ index then
    match buffer.cells[index.toNat]? with
    | none => .error .outside
    | some none => .error .unwritten
    | some (some value) => .ok value
  else .error .outside

def store (buffer : Buffer α size) (index : Int) (value : α) : Except Fault (Buffer α size) :=
  if 0 ≤ index ∧ index < size then .ok ⟨buffer.cells.setIfInBounds index.toNat (some value)⟩
  else .error .outside

def storeAll (buffer : Buffer α size) (index : Int) : List α → Except Fault (Buffer α size)
  | [] => .ok buffer
  | value :: rest => do (← buffer.store index value).storeAll (index + 1) rest

end Buffer

/-- What `%s` prints, reading one cell after the other. -/
def string : List (Option UInt8) → Except Fault (List UInt8)
  | [] => .error .outside
  | none :: _ => .error .unwritten
  | some c :: rest => if c = 0 then .ok [] else (string rest).map (c :: ·)

/-- `strlen`, reading one cell after the other. -/
def strlen : List (Option UInt8) → Except Fault Nat
  | [] => .error .outside
  | none :: _ => .error .unwritten
  | some c :: rest => if c = 0 then .ok 0 else (strlen rest).map (· + 1)

/-- `strcasecmp` with a string literal as its second argument. -/
def strcasecmp : List (Option UInt8) → List UInt8 → Except Fault Int
  | [], _ => .error .outside
  | none :: _, _ => .error .unwritten
  | some a :: _, [] => .ok (CString.tolower a).toNat
  | some a :: first, b :: second =>
    if a ≠ 0 ∧ CString.tolower a = CString.tolower b then strcasecmp first second
    else .ok ((CString.tolower a).toNat - (CString.tolower b).toNat)

/-- A terminated text is measured as in a buffer that has all its bytes. -/
theorem strlen_ok {text : List UInt8} (terminated : 0 ∈ text) (rest : List (Option UInt8)) (stale : List UInt8) :
    strlen (text.map some ++ rest) = .ok (CString.strlen (text ++ stale)) := by
  induction text with
  | nil => cases terminated
  | cons c text ih =>
    by_cases nul : c = 0
    · simp [strlen, CString.strlen, nul]
    · have later : 0 ∈ text := (List.mem_cons.mp terminated).resolve_left (Ne.symm nul)
      simp [strlen, CString.strlen, nul, ih later, Except.map]

/-- Without a NUL the measuring runs into the unwritten cells. -/
example : strlen [some 65, none] = .error .unwritten := rfl

theorem string_ok {text : List UInt8} (terminated : 0 ∈ text) (rest : List (Option UInt8)) :
    string (text.map some ++ rest) = .ok (CString.contents text) := by
  induction text with
  | nil => cases terminated
  | cons c text ih =>
    by_cases nul : c = 0
    · simp [string, nul]
    · have later : 0 ∈ text := (List.mem_cons.mp terminated).resolve_left (Ne.symm nul)
      simp [string, nul, CString.contents_cons text nul, ih later, Except.map]

theorem strcasecmp_ok {text : List UInt8} (terminated : 0 ∈ text) (rest : List (Option UInt8)) (stale word : List UInt8) :
    strcasecmp (text.map some ++ rest) word = .ok (CString.strcasecmp (text ++ stale) word) := by
  induction text generalizing word with
  | nil => cases terminated
  | cons a text ih =>
    cases word with
    | nil => rfl
    | cons b word =>
      by_cases same : a ≠ 0 ∧ CString.tolower a = CString.tolower b
      · have later : 0 ∈ text := (List.mem_cons.mp terminated).resolve_left (Ne.symm same.1)
        simp only [List.map_cons, List.cons_append, strcasecmp, CString.strcasecmp, if_pos same, ih later]
      · simp only [List.map_cons, List.cons_append, strcasecmp, CString.strcasecmp, if_neg same]

def increment (counter : UInt8) : Except Fault UInt8 :=
  if counter.toNat + 1 < 256 then .ok (counter + 1) else .error .wrapped

/-- The front of the buffer has been written, and nothing else. -/
def Buffer.Holds {α : Type u} {size : Nat} (buffer : Buffer α size) (values : List α) : Prop :=
  values.length ≤ size ∧
    buffer.cells.toList = values.map some ++ List.replicate (size - values.length) none

namespace Buffer.Holds
variable {α : Type u} {size : Nat} {buffer : Buffer α size} {values : List α}

theorem start : (unwritten : Buffer α size).Holds [] := by
  refine ⟨Nat.zero_le size, ?_⟩
  simp [unwritten]

theorem cell (holds : buffer.Holds values) (index : Nat) :
    buffer.cells[index]? = if index < values.length then some values[index]? else
      if index < size then some none else none := by
  obtain ⟨fits, cells⟩ := holds
  rw [← Vector.getElem?_toList, cells]
  by_cases inside : index < values.length
  · rw [if_pos inside, List.getElem?_append_left (by simpa using inside)]
    simp [inside]
  · rw [if_neg inside, List.getElem?_append_right (by simpa using inside), List.length_map, List.getElem?_replicate]
    congr 1
    simp only [eq_iff_iff]
    omega

theorem load_ok (holds : buffer.Holds values) {index : Int} {place : Nat} {value : α} (at_place : index = place)
    (found : values[place]? = some value) : buffer.load index = .ok value := by
  subst at_place
  have inside : place < values.length := (List.getElem?_eq_some_iff.mp found).1
  have cell := holds.cell place
  rw [if_pos inside, found] at cell
  rw [Buffer.load, if_pos (Int.natCast_nonneg place), Int.toNat_natCast, cell]

private theorem stored (buffer : Buffer α size) {index : Int} {place : Nat} (at_place : index = place)
    (inside : place < size) (value : α) :
    ∃ next, buffer.store index value = .ok next ∧ next.cells.toList = buffer.cells.toList.set place (some value) := by
  subst at_place
  refine ⟨_, if_pos ⟨Int.natCast_nonneg place, Int.ofNat_lt.mpr inside⟩, ?_⟩
  simp

/-- A store right behind the written cells. -/
theorem store_next (holds : buffer.Holds values) {index : Int} (at_end : index = values.length)
    (room : values.length < size) (value : α) :
    ∃ next, buffer.store index value = .ok next ∧ next.Holds (values ++ [value]) := by
  obtain ⟨next, taken, cells⟩ := stored buffer at_end room value
  obtain ⟨more, left⟩ : ∃ more, size - values.length = more + 1 := ⟨size - values.length - 1, by omega⟩
  refine ⟨next, taken, by rw [List.length_append, List.length_singleton]; exact room, ?_⟩
  have rest : size - (values ++ [value]).length = more := by
    rw [List.length_append, List.length_singleton]
    omega
  rw [cells, holds.2, left, rest, List.set_append_right _ _ (by simp), List.length_map, Nat.sub_self,
    List.replicate_succ, List.set_cons_zero, List.map_append]
  simp

/-- Stores one after the other behind the written cells. -/
theorem storeAll_ok {more : List α} (holds : buffer.Holds values) {index : Int} (at_end : index = values.length)
    (room : values.length + more.length ≤ size) :
    ∃ next, buffer.storeAll index more = .ok next ∧ next.Holds (values ++ more) := by
  induction more generalizing buffer values index with
  | nil => exact ⟨buffer, rfl, by rw [List.append_nil]; exact holds⟩
  | cons value more ih =>
    rw [List.length_cons] at room
    obtain ⟨stored, taken, held⟩ := holds.store_next at_end (by omega) value
    have later : index + 1 = ((values ++ [value]).length : Int) := by
      rw [at_end]
      simp
    obtain ⟨next, rest, full⟩ := ih held later (by simp; omega)
    refine ⟨next, ?_, by rwa [List.append_assoc] at full⟩
    rw [Buffer.storeAll, taken]
    exact rest

/-- A store over a written cell. -/
theorem store_over (holds : buffer.Holds values) {index : Int} {place : Nat} (at_place : index = place)
    (inside : place < values.length) (value : α) :
    ∃ next, buffer.store index value = .ok next ∧ next.Holds (values.set place value) := by
  have fits := holds.1
  obtain ⟨next, taken, cells⟩ := stored buffer at_place (by omega) value
  refine ⟨next, taken, by rw [List.length_set]; exact fits, ?_⟩
  rw [cells, holds.2, List.set_append_left _ _ (by rw [List.length_map]; exact inside), List.map_set, List.length_set]

end Buffer.Holds

end ZephyrTutorial.CheckedBuffer
