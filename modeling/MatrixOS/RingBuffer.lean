import Mathlib.Data.List.Basic
import Mathlib.Logic.Function.Basic

namespace RingBuffer

/-!
# Ring buffers

A ring of `capacity` slots, the index `head` at which the next entry is
written and the index `tail` at which the next one is read.  The entries from
`tail` up to `head` are a queue as long as one slot stays free; with the entry
that takes the last free slot the ring looks empty.
-/

variable {α : Type*} {capacity head tail index : Nat}

/-- The number of slots from `tail` up to `head`. -/
def size (capacity head tail : Nat) : Nat :=
  (head + capacity - tail) % capacity

/-- The entries from `tail` up to `head`, in the order they are read. -/
def contents
    (capacity : Nat) (slots : Nat → α) (head tail : Nat) : List α :=
  (List.range (size capacity head tail)).map fun offset =>
    slots ((tail + offset) % capacity)

/-! ## Indices -/

/-- An index that is at most once around the ring. -/
theorem mod_eq_ite (below : index < 2 * capacity) :
    index % capacity = if index < capacity then index else index - capacity := by
  split
  · exact Nat.mod_eq_of_lt ‹_›
  · rw [Nat.mod_eq_sub_mod (by omega)]
    exact Nat.mod_eq_of_lt (by omega)

section Size

variable (headIn : head < capacity) (tailIn : tail < capacity)

include headIn tailIn

theorem size_eq_ite :
    size capacity head tail =
      if tail ≤ head then head - tail else head + capacity - tail := by
  rw [size, mod_eq_ite (by omega)]
  split <;> split <;> omega

theorem size_eq_zero_iff : size capacity head tail = 0 ↔ head = tail := by
  rw [size_eq_ite headIn tailIn]
  split <;> omega

theorem size_push (room : size capacity head tail + 1 < capacity) :
    size capacity ((head + 1) % capacity) tail =
      size capacity head tail + 1 := by
  have nextIn : (head + 1) % capacity < capacity := Nat.mod_lt _ (by omega)
  rw [size_eq_ite headIn tailIn] at room ⊢
  rw [size_eq_ite nextIn tailIn, mod_eq_ite (by omega)]
  split at room <;> split <;> split <;> omega

/-- The entry that takes the last free slot. -/
theorem size_push_full (full : size capacity head tail + 1 = capacity) :
    size capacity ((head + 1) % capacity) tail = 0 := by
  have nextIn : (head + 1) % capacity < capacity := Nat.mod_lt _ (by omega)
  rw [size_eq_zero_iff nextIn tailIn, mod_eq_ite (by omega)]
  rw [size_eq_ite headIn tailIn] at full
  split at full <;> split <;> omega

theorem size_pop (notEmpty : head ≠ tail) :
    size capacity head ((tail + 1) % capacity) + 1 =
      size capacity head tail := by
  have nextIn : (tail + 1) % capacity < capacity := Nat.mod_lt _ (by omega)
  rw [size_eq_ite headIn tailIn, size_eq_ite headIn nextIn,
    mod_eq_ite (by omega)]
  split <;> split <;> split <;> omega

end Size

/-! ## Entries -/

section Contents

variable {slots : Nat → α} {entry : α}

@[simp] theorem length_contents :
    (contents capacity slots head tail).length = size capacity head tail := by
  simp [contents]

theorem mem_contents :
    entry ∈ contents capacity slots head tail ↔
      ∃ offset < size capacity head tail,
        slots ((tail + offset) % capacity) = entry := by
  simp [contents]

variable (headIn : head < capacity) (tailIn : tail < capacity)

include headIn tailIn

theorem contents_eq_nil_iff :
    contents capacity slots head tail = [] ↔ head = tail := by
  rw [← List.length_eq_zero_iff, length_contents,
    size_eq_zero_iff headIn tailIn]

/-- The slot that is written is none of those that are in use. -/
theorem index_ne_head
    {offset : Nat}
    (inUse : offset < size capacity head tail) :
    (tail + offset) % capacity ≠ head := by
  rw [size_eq_ite headIn tailIn] at inUse
  rw [mod_eq_ite (by split at inUse <;> omega)]
  split at inUse <;> split <;> omega

/-- The slot behind those that are in use is the one that is written. -/
theorem index_eq_head :
    (tail + size capacity head tail) % capacity = head := by
  rw [size_eq_ite headIn tailIn, mod_eq_ite (by split <;> omega)]
  split <;> split <;> omega

/-- An entry that is written is read last. -/
theorem contents_push (room : size capacity head tail + 1 < capacity) :
    contents capacity (Function.update slots head entry)
        ((head + 1) % capacity) tail =
      contents capacity slots head tail ++ [entry] := by
  rw [contents, size_push headIn tailIn room, List.range_succ, List.map_append,
    List.map_singleton, index_eq_head headIn tailIn, Function.update_self]
  refine congrArg (· ++ [entry]) (List.map_congr_left fun offset inUse => ?_)
  exact Function.update_of_ne
    (index_ne_head headIn tailIn (List.mem_range.mp inUse)) _ _

/-- With the last free slot everything is lost. -/
theorem contents_push_full (full : size capacity head tail + 1 = capacity) :
    contents capacity (Function.update slots head entry)
      ((head + 1) % capacity) tail = [] := by
  rw [contents, size_push_full headIn tailIn full]
  rfl

/-- The entry at `tail` is read first. -/
theorem contents_pop (notEmpty : head ≠ tail) :
    contents capacity slots head tail =
      slots tail :: contents capacity slots head ((tail + 1) % capacity) := by
  rw [contents, ← size_pop headIn tailIn notEmpty, List.range_succ_eq_map,
    List.map_cons, Nat.add_zero, Nat.mod_eq_of_lt tailIn, List.map_map]
  refine congrArg (slots tail :: ·) (List.map_congr_left fun offset _ => ?_)
  simp only [Function.comp, Nat.mod_add_mod]
  rw [Nat.succ_eq_add_one, Nat.add_assoc, Nat.add_comm 1]

end Contents

end RingBuffer
