import Mathlib.Data.List.Basic
import Mathlib.Data.List.Infix

/-!
# Prefixes that stop at a separator

A reader with room for some items takes them one at a time, and stops behind
the first separator.  What it takes is the longest prefix that fits and has no
separator before its end; what it leaves comes next.
-/

namespace LinePrefix

variable {α : Type}

/-- The longest prefix that fits and has no separator before its end. -/
structure IsLongest (stop : α) (room : Nat) (items text : List α) : Prop where
  isPrefix : text <+: items
  fits : text.length ≤ room
  stops : stop ∉ text.dropLast
  longest : ∀ other, other <+: items → other.length ≤ room →
    stop ∉ other.dropLast → other <+: text

variable {stop item : α} {room : Nat} {items text : List α}

theorem isLongest_nil : IsLongest stop room [] ([] : List α) where
  isPrefix := List.nil_prefix
  fits := Nat.zero_le room
  stops := List.not_mem_nil
  longest := fun _ isPrefix _ _ => isPrefix

theorem isLongest_zero : IsLongest stop 0 items [] where
  isPrefix := List.nil_prefix
  fits := Nat.le_refl 0
  stops := List.not_mem_nil
  longest := by
    intro other _ fits _
    rw [List.length_eq_zero_iff.mp (Nat.le_zero.mp fits)]

/-- The separator is the last item that is taken. -/
theorem isLongest_stop : IsLongest stop (room + 1) (stop :: items) [stop] where
  isPrefix := ⟨items, rfl⟩
  fits := by simp
  stops := by simp
  longest := by
    intro other isPrefix _ stops
    rcases List.prefix_cons_iff.mp isPrefix with rfl | ⟨rest, rfl, _⟩
    · exact List.nil_prefix
    · cases rest with
      | nil => exact List.prefix_refl _
      | cons next rest => simp at stops

/-- Any other item is taken together with what follows it. -/
theorem IsLongest.cons
    (whole : IsLongest stop room items text)
    (different : item ≠ stop) :
    IsLongest stop (room + 1) (item :: items) (item :: text) where
  isPrefix := List.cons_prefix_cons.mpr ⟨rfl, whole.isPrefix⟩
  fits := Nat.succ_le_succ whole.fits
  stops := by
    cases text with
    | nil => simp
    | cons next rest =>
        rw [List.dropLast_cons_cons, List.mem_cons, not_or]
        exact ⟨different.symm, whole.stops⟩
  longest := by
    intro other isPrefix fits stops
    rcases List.prefix_cons_iff.mp isPrefix with rfl | ⟨rest, rfl, restPrefix⟩
    · exact List.nil_prefix
    · refine List.cons_prefix_cons.mpr ⟨rfl, ?_⟩
      refine whole.longest rest restPrefix (Nat.le_of_succ_le_succ fits) ?_
      cases rest with
      | nil => simp
      | cons next rest =>
          rw [List.dropLast_cons_cons, List.mem_cons, not_or] at stops
          exact stops.2

/-- The items are taken until there is no room, or one is the separator. -/
def takeLine
    [DecidableEq α]
    (stop : α) :
    (room : Nat) → List α → List α
  | 0, _ => []
  | _ + 1, [] => []
  | room + 1, item :: items =>
      if item = stop then [item] else item :: takeLine stop room items

theorem takeLine_isLongest
    [DecidableEq α]
    (stop : α)
    (room : Nat)
    (items : List α) :
    IsLongest stop room items (takeLine stop room items) := by
  induction room generalizing items with
  | zero =>
      exact isLongest_zero
  | succ room inductionHypothesis =>
      cases items with
      | nil =>
          exact isLongest_nil
      | cons item items =>
          rw [takeLine]
          split
          · rename_i isStop
            rw [isStop]
            exact isLongest_stop
          · rename_i different
            exact (inductionHypothesis items).cons different

end LinePrefix
