import Mathlib.Algebra.BigOperators.Group.List.Basic
import Mathlib.Algebra.GroupWithZero.Nat
import MatrixOS.Tiling

namespace Layout

open Tiling

/-!
# Contiguous layouts

Items with a first address and a length are laid out contiguously from one
address to another when each one starts where the one before ends.  Splitting
an item, joining two neighbours and replacing a stretch of items by another
one of the same extent are all facts about appending layouts.
-/

variable {Item : Type} (start length : Item → Nat)

/-- The items fill the addresses from the first bound up to the second. -/
def Contiguous : Nat → List Item → Nat → Prop
  | first, [], stop => first = stop
  | first, item :: rest, stop =>
      start item = first ∧ Contiguous (first + length item) rest stop

/-- The addresses of an item. -/
def extent (item : Item) : Set Nat :=
  {address | start item ≤ address ∧ address < start item + length item}

namespace Contiguous

variable {start length}
variable {first middle stop : Nat} {items before after : List Item} {item : Item}

theorem append_iff :
    Contiguous start length first (before ++ after) stop ↔
      ∃ middle, Contiguous start length first before middle ∧
        Contiguous start length middle after stop := by
  induction before generalizing first with
  | nil =>
      simp [Contiguous]
  | cons head rest inductionHypothesis =>
      simp only [List.cons_append, Contiguous, inductionHypothesis,
        and_assoc, exists_and_left]

/-- The items around one item fill the addresses before and behind it. -/
theorem around_iff :
    Contiguous start length first (before ++ item :: after) stop ↔
      Contiguous start length first before (start item) ∧
        Contiguous start length (start item + length item) after stop := by
  rw [append_iff]
  constructor
  · rintro ⟨middle, filled, here, rest⟩
    subst here
    exact ⟨filled, rest⟩
  · rintro ⟨filled, rest⟩
    exact ⟨start item, filled, rfl, rest⟩

theorem sum_eq (layout : Contiguous start length first items stop) :
    first + (items.map length).sum = stop := by
  induction items generalizing first with
  | nil =>
      exact layout
  | cons head rest inductionHypothesis =>
      have tail := inductionHypothesis layout.2
      rw [List.map_cons, List.sum_cons]
      omega

theorem le (layout : Contiguous start length first items stop) :
    first ≤ stop := by
  have total := layout.sum_eq
  omega

theorem bounds
    (layout : Contiguous start length first items stop)
    (member : item ∈ items) :
    first ≤ start item ∧ start item + length item ≤ stop := by
  obtain ⟨before, after, rfl⟩ := List.append_of_mem member
  obtain ⟨earlier, later⟩ := around_iff.mp layout
  exact ⟨earlier.le, later.le⟩

/-- An item ends before every later item starts. -/
theorem pairwise (layout : Contiguous start length first items stop) :
    items.Pairwise fun left right => start left + length left ≤ start right := by
  induction items generalizing first with
  | nil =>
      exact List.Pairwise.nil
  | cons head rest inductionHypothesis =>
      obtain ⟨here, tail⟩ := layout
      refine List.pairwise_cons.mpr ⟨fun later member => ?_,
        inductionHypothesis tail⟩
      have behind := (tail.bounds member).1
      omega

theorem covered
    (layout : Contiguous start length first items stop)
    (address : Nat) :
    (first ≤ address ∧ address < stop) ↔
      ∃ item ∈ items, address ∈ extent start length item := by
  induction items generalizing first with
  | nil =>
      have same : first = stop := layout
      simp only [List.not_mem_nil, false_and, exists_false, iff_false]
      omega
  | cons head rest inductionHypothesis =>
      obtain ⟨here, tail⟩ := layout
      have behind := tail.le
      rw [List.exists_mem_cons_iff, ← inductionHypothesis tail, extent,
        Set.mem_ofPred_eq]
      omega

/-- The items of a layout tile the addresses it fills. -/
theorem tiles (layout : Contiguous start length first items stop) :
    Tiles (extent start length) items
      {address | first ≤ address ∧ address < stop} where
  disjoint := by
    refine layout.pairwise.imp fun apart => ?_
    refine Set.disjoint_left.mpr fun address inLeft inRight => ?_
    have upper := inLeft.2
    have lower := inRight.1
    omega
  covered := layout.covered

/-- Two items that share an address are the same. -/
theorem eq_of_mem_extent
    (layout : Contiguous start length first items stop)
    {left right : Item} {address : Nat}
    (leftMember : left ∈ items)
    (rightMember : right ∈ items)
    (inLeft : address ∈ extent start length left)
    (inRight : address ∈ extent start length right) :
    left = right :=
  layout.tiles.eq_of_mem leftMember rightMember inLeft inRight

/-- Different items are apart. -/
theorem apart
    (layout : Contiguous start length first items stop)
    (positive : ∀ item ∈ items, 0 < length item)
    {left right : Item}
    (leftMember : left ∈ items)
    (rightMember : right ∈ items)
    (different : left ≠ right) :
    start left + length left ≤ start right ∨
      start right + length right ≤ start left := by
  by_contra overlap
  have leftPositive := positive left leftMember
  have rightPositive := positive right rightMember
  have inLeft :
      max (start left) (start right) ∈ extent start length left := by
    simp only [extent, Set.mem_ofPred_eq]
    omega
  have inRight :
      max (start left) (start right) ∈ extent start length right := by
    simp only [extent, Set.mem_ofPred_eq]
    omega
  exact different
    (layout.eq_of_mem_extent leftMember rightMember inLeft inRight)

/-- Items of positive length start at strictly increasing addresses. -/
theorem starts_increasing
    (layout : Contiguous start length first items stop)
    (positive : ∀ item ∈ items, 0 < length item) :
    (items.map start).Pairwise (· < ·) := by
  rw [List.pairwise_map]
  refine layout.pairwise.imp_of_mem fun member _ apart => ?_
  have := positive _ member
  omega

end Contiguous

end Layout
