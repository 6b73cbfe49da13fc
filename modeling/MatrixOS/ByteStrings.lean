import Mathlib.Data.List.Basic
import Mathlib.Logic.Function.Basic

namespace MatrixOS.ByteStrings

/-!
# Entries written one after another

A list is placed in a memory entry by entry.  Two cursors that start at the
ends of a range and exchange entries until they meet turn the range around.
-/

variable {α : Type*}

/-- Memory after the entries have been written from an address on. -/
def place (mem : Nat → α) (address : Nat) : List α → Nat → α
  | [] => mem
  | entry :: rest =>
      place (Function.update mem address entry) (address + 1) rest

/-- Memory with the range from `first` to `last` turned around. -/
def mirror (mem : Nat → α) (first last : Nat) : Nat → α :=
  fun address =>
    if first ≤ address ∧ address ≤ last then mem (first + last - address)
    else mem address

section Place

variable {mem : Nat → α} {address target : Nat} {entries : List α}

theorem place_append (mem : Nat → α) (address : Nat) (entries more : List α) :
    place mem address (entries ++ more) =
      place (place mem address entries) (address + entries.length) more := by
  induction entries generalizing mem address with
  | nil =>
      rfl
  | cons entry rest inductionHypothesis =>
      rw [List.cons_append, place, inductionHypothesis, place,
        List.length_cons]
      congr 1
      omega

theorem place_snoc
    (mem : Nat → α) (address : Nat) (entries : List α) (entry : α) :
    place mem address (entries ++ [entry]) =
      Function.update (place mem address entries) (address + entries.length)
        entry :=
  place_append mem address entries [entry]

theorem place_of_outside
    (outside : target < address ∨ address + entries.length ≤ target) :
    place mem address entries target = mem target := by
  induction entries generalizing mem address with
  | nil =>
      rfl
  | cons entry rest inductionHypothesis =>
      rw [List.length_cons] at outside
      rw [place, inductionHypothesis (by omega)]
      exact Function.update_of_ne (by omega) _ _

theorem place_of_inside
    {offset : Nat}
    (inside : offset < entries.length) :
    place mem address entries (address + offset) = entries[offset] := by
  induction entries generalizing mem address offset with
  | nil =>
      exact absurd inside (Nat.not_lt_zero offset)
  | cons entry rest inductionHypothesis =>
      cases offset with
      | zero =>
          rw [place, place_of_outside (by omega)]
          exact Function.update_self ..
      | succ offset =>
          rw [List.length_cons] at inside
          rw [place, show address + (offset + 1) = address + 1 + offset by omega]
          exact inductionHypothesis (by omega)

end Place

section Mirror

variable {mem : Nat → α} {first last : Nat}

/-- Cursors that have met change nothing more. -/
theorem mirror_of_le (met : last ≤ first) : mirror mem first last = mem := by
  funext address
  rw [mirror]
  split
  · congr 1
    omega
  · rfl

/-- One exchange, and both cursors move on. -/
theorem mirror_exchange (apart : first < last) :
    mirror
        (Function.update (Function.update mem last (mem first)) first (mem last))
        (first + 1) (last - 1) =
      mirror mem first last := by
  funext address
  by_cases atFirst : address = first
  · subst atFirst
    rw [mirror, if_neg (by omega), Function.update_self, mirror,
      if_pos (by omega)]
    congr 1
    omega
  by_cases atLast : address = last
  · subst atLast
    rw [mirror, if_neg (by omega), Function.update_of_ne atFirst,
      Function.update_self, mirror, if_pos (by omega)]
    congr 1
    omega
  by_cases between : first ≤ address ∧ address ≤ last
  · rw [mirror, if_pos (by omega), mirror, if_pos between,
      Function.update_of_ne (by omega), Function.update_of_ne (by omega)]
    congr 1
    omega
  · rw [mirror, if_neg (by omega), mirror, if_neg between,
      Function.update_of_ne atFirst, Function.update_of_ne atLast]

/-- A list that is turned around in place. -/
theorem mirror_place (mem : Nat → α) (address : Nat) (entries more : List α) :
    mirror (place mem address (entries ++ more)) address
        (address + entries.length - 1) =
      place mem address (entries.reverse ++ more) := by
  by_cases empty : entries = []
  · subst empty
    exact mirror_of_le (by simp)
  have positive : 0 < entries.length := List.length_pos_of_ne_nil empty
  funext target
  by_cases outside : target < address ∨
      address + (entries ++ more).length ≤ target
  · rw [mirror, if_neg (by simp at outside; omega), place_of_outside outside,
      place_of_outside (by simpa using outside)]
  obtain ⟨offset, rfl⟩ : ∃ offset, target = address + offset :=
    ⟨target - address, by omega⟩
  have bound : offset < (entries ++ more).length := by omega
  have reversedBound : offset < (entries.reverse ++ more).length := by
    simpa using bound
  rw [place_of_inside reversedBound, mirror]
  by_cases turned : offset < entries.length
  · have mirrored : entries.length - 1 - offset < (entries ++ more).length := by
      rw [List.length_append]
      omega
    rw [if_pos (by omega), List.getElem_append_left (by simpa using turned),
      List.getElem_reverse,
      show address + (address + entries.length - 1) - (address + offset) =
        address + (entries.length - 1 - offset) by omega,
      place_of_inside mirrored, List.getElem_append_left (by omega)]
  · rw [if_neg (by omega), place_of_inside bound,
      List.getElem_append_right (by omega),
      List.getElem_append_right (by simpa using turned)]
    simp

end Mirror

end MatrixOS.ByteStrings
