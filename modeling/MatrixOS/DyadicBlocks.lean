import Mathlib.Data.Nat.Bitwise
import Mathlib.Data.Set.Disjoint
import Mathlib.Data.Set.Lattice
import Mathlib.Order.CompletePartialOrder
import Mathlib.Tactic.Ring

/-!
# Dyadic blocks

A dyadic block is an interval of natural numbers whose length is a power of
two and whose start is a multiple of its length.  A block is given by its
order and by its index among the blocks of that order, so a misaligned block
cannot be written down.  Membership is a division: a number belongs to the
block exactly when dividing it by the block's length gives the index.
-/

/-- The block of length `2 ^ order` that starts at `index * 2 ^ order`. -/
structure DyadicBlock where
  order : Nat
  index : Nat
  deriving Repr, DecidableEq

namespace DyadicBlock

/-- The first number of a block. -/
def start (block : DyadicBlock) : Nat :=
  block.index * 2 ^ block.order

/-- The numbers that belong to a block. -/
def extent (block : DyadicBlock) : Set Nat :=
  {number | number / 2 ^ block.order = block.index}

/-- The left half of a block of order `order + 1`. -/
def lowerHalf (order index : Nat) : DyadicBlock :=
  ⟨order, 2 * index⟩

/-- The right half of a block of order `order + 1`. -/
def upperHalf (order index : Nat) : DyadicBlock :=
  ⟨order, 2 * index + 1⟩

/-- The other half of the block's parent. -/
def buddy (block : DyadicBlock) : DyadicBlock :=
  ⟨block.order, block.index ^^^ 1⟩

variable {block first second : DyadicBlock} {order index number : Nat}

@[simp] theorem mem_extent :
    number ∈ block.extent ↔ number / 2 ^ block.order = block.index :=
  Iff.rfl

/-- Membership as an interval. -/
theorem mem_extent_iff_interval :
    number ∈ block.extent ↔
      block.start ≤ number ∧ number < block.start + 2 ^ block.order := by
  rw [mem_extent, start, Nat.div_eq_iff (Nat.two_pow_pos _)]
  have positive := Nat.two_pow_pos block.order
  omega

theorem start_mem_extent : block.start ∈ block.extent := by
  simp [start]

/-- A block is the union of its halves. -/
theorem extent_succ :
    (⟨order + 1, index⟩ : DyadicBlock).extent =
      (lowerHalf order index).extent ∪ (upperHalf order index).extent := by
  ext number
  simp only [Set.mem_union, mem_extent, lowerHalf, upperHalf, pow_succ,
    ← Nat.div_div_eq_div_mul]
  omega

/-- A block that meets a block of at least its order lies inside it. -/
theorem extent_subset_of_mem
    (smaller : first.order ≤ second.order)
    (inFirst : number ∈ first.extent)
    (inSecond : number ∈ second.extent) :
    first.extent ⊆ second.extent := by
  intro other otherInFirst
  have quotient : ∀ value : Nat,
      value / 2 ^ second.order =
        value / 2 ^ first.order / 2 ^ (second.order - first.order) := by
    intro value
    rw [Nat.div_div_eq_div_mul, ← pow_add, Nat.add_sub_cancel' smaller]
  rw [mem_extent] at inFirst inSecond otherInFirst ⊢
  rw [quotient, otherInFirst, ← inFirst, ← quotient, inSecond]

/-! ## Buddies -/

theorem xor_one_cases (number : Nat) :
    number ^^^ 1 = number + 1 ∨ (number ^^^ 1) + 1 = number := by
  have high : (number ^^^ 1) / 2 = number / 2 := by
    simpa using Nat.xor_div_two_pow (a := number) (b := 1) (n := 1)
  have low : (number ^^^ 1) % 2 = (number + 1) % 2 := by
    rw [Nat.xor_mod_two_eq]
  omega

/-- Flipping bit `order` adds or subtracts its weight. -/
theorem xor_two_pow_cases (number order : Nat) :
    number ^^^ 2 ^ order = number + 2 ^ order ∨
      (number ^^^ 2 ^ order) + 2 ^ order = number := by
  have high :
      (number ^^^ 2 ^ order) / 2 ^ order = number / 2 ^ order ^^^ 1 := by
    rw [Nat.xor_div_two_pow, Nat.div_self (Nat.two_pow_pos _)]
  have low : (number ^^^ 2 ^ order) % 2 ^ order = number % 2 ^ order := by
    rw [Nat.xor_mod_two_pow, Nat.mod_self, Nat.xor_zero]
  have before := Nat.div_add_mod number (2 ^ order)
  have after := Nat.div_add_mod (number ^^^ 2 ^ order) (2 ^ order)
  rw [high, low] at after
  rcases xor_one_cases (number / 2 ^ order) with up | down
  · left
    rw [← after, up, Nat.mul_succ]
    omega
  · right
    rw [← down, Nat.mul_succ] at before
    omega

/-- Flipping bit `order` of a number whose low bits through `order` are clear. -/
theorem xor_two_pow_of_dvd
    (clear : 2 ^ (order + 1) ∣ number) :
    number ^^^ 2 ^ order = number + 2 ^ order := by
  obtain ⟨multiple, rfl⟩ := clear
  have small : 2 ^ order < 2 ^ (order + 1) :=
    Nat.pow_lt_pow_right (by omega) (by omega)
  apply Nat.eq_of_testBit_eq
  intro bit
  rw [Nat.testBit_xor, Nat.testBit_two_pow_mul_add _ small]
  have plain := Nat.testBit_two_pow_mul_add multiple
    (Nat.two_pow_pos (order + 1)) bit
  rw [Nat.add_zero] at plain
  rw [plain]
  by_cases low : bit < order + 1
  · simp [low]
  · have above : bit ≠ order := by omega
    simp [low, Ne.symm above]

/-- Flipping bit `order` back. -/
theorem add_two_pow_xor_of_dvd
    (clear : 2 ^ (order + 1) ∣ number) :
    (number + 2 ^ order) ^^^ 2 ^ order = number := by
  rw [← xor_two_pow_of_dvd clear, Nat.xor_assoc, Nat.xor_self, Nat.xor_zero]

/-- A multiple of `2 ^ order` has bit `order` clear or set. -/
theorem dvd_succ_or_exists_add
    (aligned : 2 ^ order ∣ number) :
    2 ^ (order + 1) ∣ number ∨
      ∃ lower, number = lower + 2 ^ order ∧ 2 ^ (order + 1) ∣ lower := by
  obtain ⟨multiple, rfl⟩ := aligned
  rcases Nat.even_or_odd' multiple with ⟨half, rfl | rfl⟩
  · exact Or.inl ⟨half, by ring⟩
  · exact Or.inr ⟨2 ^ (order + 1) * half, by ring, Dvd.intro _ rfl⟩

/-- The two halves of a block are buddies. -/
theorem buddy_lowerHalf :
    (lowerHalf order index).buddy = upperHalf order index := by
  have flipped : 2 * index ^^^ 2 ^ 0 = 2 * index + 2 ^ 0 :=
    xor_two_pow_of_dvd (Nat.dvd_mul_right 2 index)
  rw [pow_zero] at flipped
  simp only [buddy, lowerHalf, upperHalf, flipped]

/-! ## Families without buddies -/

/--
In a family that never contains both halves of a block below order `limit`,
a block of order at most `limit` whose numbers are all covered lies inside
one member of the family.
-/
theorem exists_member_of_covered
    {family : List DyadicBlock} {limit : Nat}
    (noBuddies :
      ∀ member ∈ family, member.order < limit → member.buddy ∉ family)
    (bounded : block.order ≤ limit)
    (covered :
      ∀ number ∈ block.extent, ∃ member ∈ family, number ∈ member.extent) :
    ∃ member ∈ family,
      block.order ≤ member.order ∧ block.extent ⊆ member.extent := by
  obtain ⟨order, index⟩ := block
  -- The halves lie in single members by induction; either one member has the
  -- room for the whole block, or the members are the halves themselves.
  induction order generalizing index with
  | zero =>
      obtain ⟨member, isMember, inside⟩ :=
        covered (⟨0, index⟩ : DyadicBlock).start start_mem_extent
      exact ⟨member, isMember, Nat.zero_le _,
        extent_subset_of_mem (Nat.zero_le _) start_mem_extent inside⟩
  | succ order inductionHypothesis =>
      have lowerSubset :
          (lowerHalf order index).extent ⊆
            (⟨order + 1, index⟩ : DyadicBlock).extent := by
        rw [extent_succ]
        exact Set.subset_union_left
      have upperSubset :
          (upperHalf order index).extent ⊆
            (⟨order + 1, index⟩ : DyadicBlock).extent := by
        rw [extent_succ]
        exact Set.subset_union_right
      obtain ⟨left, leftMember, leftOrder, leftInside⟩ :=
        inductionHypothesis (2 * index) (Nat.le_of_succ_le bounded)
          fun number inside => covered number (lowerSubset inside)
      obtain ⟨right, rightMember, rightOrder, rightInside⟩ :=
        inductionHypothesis (2 * index + 1) (Nat.le_of_succ_le bounded)
          fun number inside => covered number (upperSubset inside)
      have leftStart : (lowerHalf order index).start ∈ left.extent :=
        leftInside start_mem_extent
      have rightStart : (upperHalf order index).start ∈ right.extent :=
        rightInside start_mem_extent
      by_cases leftLarge : order + 1 ≤ left.order
      · exact ⟨left, leftMember, leftLarge,
          extent_subset_of_mem leftLarge
            (lowerSubset start_mem_extent) leftStart⟩
      by_cases rightLarge : order + 1 ≤ right.order
      · exact ⟨right, rightMember, rightLarge,
          extent_subset_of_mem rightLarge
            (upperSubset start_mem_extent) rightStart⟩
      have leftIsHalf : left = lowerHalf order index := by
        obtain ⟨leftOrd, leftIndex⟩ := left
        obtain rfl : leftOrd = order :=
          Nat.le_antisymm (Nat.not_lt.mp leftLarge) leftOrder
        simpa [lowerHalf, start] using leftStart.symm
      have rightIsHalf : right = upperHalf order index := by
        obtain ⟨rightOrd, rightIndex⟩ := right
        obtain rfl : rightOrd = order :=
          Nat.le_antisymm (Nat.not_lt.mp rightLarge) rightOrder
        simpa [upperHalf, start] using rightStart.symm
      subst leftIsHalf rightIsHalf
      exact absurd (buddy_lowerHalf ▸ rightMember)
        (noBuddies _ leftMember bounded)

/-- A block is determined by its order and its numbers. -/
theorem eq_of_extent_subset
    (sameOrder : first.order = second.order)
    (subset : first.extent ⊆ second.extent) :
    first = second := by
  have inSecond := subset (@start_mem_extent first)
  obtain ⟨order, index⟩ := first
  obtain ⟨secondOrder, secondIndex⟩ := second
  obtain rfl : order = secondOrder := sameOrder
  simpa [start] using inSecond

/--
A family of disjoint blocks without buddies is determined by the numbers it
covers.
-/
theorem mem_of_same_cover
    {family other : List DyadicBlock} {limit : Nat}
    (noBuddies :
      ∀ member ∈ family, member.order < limit → member.buddy ∉ family)
    (otherNoBuddies :
      ∀ member ∈ other, member.order < limit → member.buddy ∉ other)
    (bounded : ∀ member ∈ family, member.order ≤ limit)
    (otherBounded : ∀ member ∈ other, member.order ≤ limit)
    (apart : ∀ left ∈ family, ∀ right ∈ family, ∀ number,
      number ∈ left.extent → number ∈ right.extent → left = right)
    (same : ∀ number, (∃ member ∈ family, number ∈ member.extent) ↔
      ∃ member ∈ other, number ∈ member.extent)
    (isMember : block ∈ family) :
    block ∈ other := by
  -- a member of the other family holds the block, and is held by a member
  -- of this one, which can only be the block
  obtain ⟨outer, outerMember, larger, inOuter⟩ :=
    exists_member_of_covered otherNoBuddies (bounded block isMember)
      fun number inside => (same number).mp ⟨block, isMember, inside⟩
  obtain ⟨back, backMember, largest, inBack⟩ :=
    exists_member_of_covered noBuddies (otherBounded outer outerMember)
      fun number inside => (same number).mpr ⟨outer, outerMember, inside⟩
  have isBlock : block = back :=
    apart block isMember back backMember block.start start_mem_extent
      (inBack (inOuter start_mem_extent))
  have sameOrder : block.order = outer.order :=
    Nat.le_antisymm larger (isBlock ▸ largest)
  rw [eq_of_extent_subset sameOrder inOuter]
  exact outerMember

end DyadicBlock
