import Mathlib.Tactic.Ring
import MatrixOS.Pmm

namespace MatrixOS.Pmm

open Tiling

/-!
# The buddy allocator's invariant

The blocks on the free lists and the outstanding blocks tile the pool, every
block is aligned to its own length, and no block is on a free list together
with its buddy.

The allocator only ever performs four elementary moves on the two families:
it takes a free block out, puts a block in, cuts an outstanding block in two,
and joins two outstanding buddies.  Each move keeps the invariant, and the
loops of `pmm_alloc_pages` and `pmm_free_pages` are sequences of these moves.
-/

namespace PageBlock

variable {block : PageBlock}

/-- The block's place in the dyadic grid of page frame numbers. -/
def toDyadic (block : PageBlock) : DyadicBlock :=
  ⟨block.order, block.addr / pageSize / 2 ^ block.order⟩

theorem addr_eq_of_aligned (aligned : block.Aligned) :
    block.addr = block.toDyadic.start * pageSize := by
  obtain ⟨index, shape⟩ := aligned
  have pages : block.addr / pageSize = 2 ^ block.order * index := by
    rw [shape, Nat.mul_right_comm, Nat.mul_div_cancel _ (by decide)]
  rw [DyadicBlock.start, toDyadic, pages,
    Nat.mul_div_cancel_left _ (Nat.two_pow_pos _), shape]
  ring

/-- An aligned block covers exactly the pages of its dyadic block. -/
theorem pages_eq_extent (aligned : block.Aligned) :
    block.pages = block.toDyadic.extent := by
  ext page
  have first : block.addr / pageSize = block.toDyadic.start := by
    rw [addr_eq_of_aligned aligned, Nat.mul_div_cancel _ (by decide)]
  rw [DyadicBlock.mem_extent_iff_interval, pages, first]
  rfl

theorem first_mem_pages : block.addr / pageSize ∈ block.pages :=
  ⟨Nat.le_refl _, Nat.lt_add_of_pos_right (Nat.two_pow_pos _)⟩

theorem page_aligned (aligned : block.Aligned) : pageSize ∣ block.addr :=
  (Nat.dvd_mul_left _ _).trans aligned

end PageBlock

/-! ## Buddy addresses -/

section BuddyAddresses

variable {addr order : Nat}

theorem splitBuddyAddr_of_lower
    (aligned : 2 ^ (order + 1) * pageSize ∣ addr) :
    splitBuddyAddr addr order = addr + 2 ^ order * pageSize := by
  have clear : 2 ^ (order + 12 + 1) ∣ addr := by
    have same : 2 ^ (order + 12 + 1) = 2 ^ (order + 1) * pageSize := by
      rw [pageSize]
      ring
    rwa [same]
  rw [splitBuddyAddr, Nat.one_shiftLeft,
    DyadicBlock.xor_two_pow_of_dvd clear, pageSize]
  ring

theorem splitBuddyAddr_of_upper
    (aligned : 2 ^ (order + 1) * pageSize ∣ addr) :
    splitBuddyAddr (addr + 2 ^ order * pageSize) order = addr := by
  rw [← splitBuddyAddr_of_lower aligned, splitBuddyAddr, splitBuddyAddr,
    Nat.xor_assoc, Nat.xor_self, Nat.xor_zero]

theorem splitBuddyAddr_splitBuddyAddr :
    splitBuddyAddr (splitBuddyAddr addr order) order = addr := by
  rw [splitBuddyAddr, splitBuddyAddr, Nat.xor_assoc, Nat.xor_self,
    Nat.xor_zero]

/-- An aligned block is the lower or the upper half of its parent. -/
theorem lower_or_upper
    (aligned : 2 ^ order * pageSize ∣ addr) :
    2 ^ (order + 1) * pageSize ∣ addr ∨
      ∃ lower, addr = lower + 2 ^ order * pageSize ∧
        2 ^ (order + 1) * pageSize ∣ lower := by
  obtain ⟨index, rfl⟩ := aligned
  rcases Nat.even_or_odd' index with ⟨half, rfl | rfl⟩
  · exact Or.inl ⟨half, by ring⟩
  · exact Or.inr ⟨2 ^ (order + 1) * pageSize * half, by ring,
      Dvd.intro _ rfl⟩

theorem splitBuddyAddr_ne
    (aligned : 2 ^ order * pageSize ∣ addr) :
    splitBuddyAddr addr order ≠ addr := by
  have positive : 0 < 2 ^ order * pageSize :=
    Nat.mul_pos (Nat.two_pow_pos _) (by decide)
  rcases lower_or_upper aligned with lower | ⟨lower, rfl, lowerAligned⟩
  · rw [splitBuddyAddr_of_lower lower]
    omega
  · rw [splitBuddyAddr_of_upper lowerAligned]
    omega

/-- A region that starts at a multiple of a block holds both of its halves. -/
theorem le_lower
    {base lower : Nat}
    (baseAligned : 2 ^ (order + 1) * pageSize ∣ base)
    (lowerAligned : 2 ^ (order + 1) * pageSize ∣ lower)
    (above : base ≤ lower + 2 ^ order * pageSize) :
    base ≤ lower := by
  obtain ⟨baseIndex, rfl⟩ := baseAligned
  obtain ⟨lowerIndex, rfl⟩ := lowerAligned
  refine Nat.mul_le_mul_left _ ?_
  by_contra less
  have parentLength : 2 ^ (order + 1) * pageSize =
      2 * (2 ^ order * pageSize) := by ring
  have step : 2 ^ (order + 1) * pageSize * (lowerIndex + 1) ≤
      2 ^ (order + 1) * pageSize * baseIndex :=
    Nat.mul_le_mul_left _ (by omega)
  rw [Nat.mul_succ] at step
  have positiveHalf : 0 < 2 ^ order * pageSize :=
    Nat.mul_pos (Nat.two_pow_pos _) (by decide)
  omega

/-- The buddy address of a page index, when the sum does not wrap. -/
theorem mergeBuddyAddr_of_sum
    {sys : BuddySystem} {pageIdx target : Nat}
    (sum : sys.baseAddr + findBuddyPfn pageIdx order * pageSize = target)
    (inRange : target < 2 ^ 32) :
    mergeBuddyAddr sys pageIdx order = target ∧
      findBuddyPfn pageIdx order = sub32 target sys.baseAddr / pageSize := by
  subst sum
  have positive : 0 < pageSize := by decide
  refine ⟨?_, ?_⟩
  · rw [mergeBuddyAddr, wrap32_of_lt inRange]
  · rw [sub32_of_le inRange (Nat.le_add_right _ _), Nat.add_sub_cancel_left,
      Nat.mul_div_cancel _ positive]

/--
In a region that starts at a multiple of the largest block, the buddy that
`pmm_free_pages` computes from page indexes is the buddy that
`pmm_alloc_pages` computes from addresses.
-/
theorem mergeBuddyAddr_eq
    {sys : BuddySystem}
    (baseAligned : 2 ^ maxOrder * pageSize ∣ sys.baseAddr)
    (below : order < maxOrder)
    (aligned : 2 ^ order * pageSize ∣ addr)
    (above : sys.baseAddr ≤ addr)
    (inRange : addr < 2 ^ 32) :
    mergeBuddyAddr sys (sub32 addr sys.baseAddr / pageSize) order =
        splitBuddyAddr addr order ∧
      findBuddyPfn (sub32 addr sys.baseAddr / pageSize) order =
        sub32 (splitBuddyAddr addr order) sys.baseAddr / pageSize := by
  have buddyRange : splitBuddyAddr addr order < 2 ^ 32 := by
    refine Nat.xor_lt_two_pow inRange ?_
    rw [Nat.one_shiftLeft]
    exact Nat.pow_lt_pow_right (by omega)
      (by simp only [maxOrder] at below; omega)
  have parentDvdBase : 2 ^ (order + 1) * pageSize ∣ sys.baseAddr :=
    (Nat.mul_dvd_mul_right (Nat.pow_dvd_pow 2 below) _).trans baseAligned
  obtain ⟨basePages, baseShape⟩ :=
    (Nat.dvd_mul_left pageSize _).trans parentDvdBase
  rw [sub32_of_le inRange above]
  have positive : 0 < pageSize := by decide
  rcases lower_or_upper aligned with lower | ⟨lower, rfl, lowerAligned⟩
  · rw [splitBuddyAddr_of_lower lower] at buddyRange ⊢
    obtain ⟨pages, offset⟩ :
        2 ^ (order + 1) * pageSize ∣ addr - sys.baseAddr :=
      Nat.dvd_sub lower parentDvdBase
    have index : (addr - sys.baseAddr) / pageSize = 2 ^ (order + 1) * pages := by
      rw [offset, Nat.mul_right_comm, Nat.mul_div_cancel _ positive]
    have flipped :
        findBuddyPfn (2 ^ (order + 1) * pages) order =
          2 ^ (order + 1) * pages + 2 ^ order := by
      rw [findBuddyPfn, Nat.one_shiftLeft]
      exact DyadicBlock.xor_two_pow_of_dvd (Dvd.intro _ rfl)
    rw [index]
    refine mergeBuddyAddr_of_sum ?_ buddyRange
    rw [flipped, Nat.add_mul, Nat.mul_right_comm, ← offset]
    omega
  · rw [splitBuddyAddr_of_upper lowerAligned] at buddyRange ⊢
    have lowerAbove : sys.baseAddr ≤ lower :=
      le_lower parentDvdBase lowerAligned above
    obtain ⟨pages, offset⟩ :
        2 ^ (order + 1) * pageSize ∣ lower - sys.baseAddr :=
      Nat.dvd_sub lowerAligned parentDvdBase
    have index :
        (lower + 2 ^ order * pageSize - sys.baseAddr) / pageSize =
          2 ^ (order + 1) * pages + 2 ^ order := by
      rw [Nat.sub_add_comm lowerAbove, offset,
        Nat.mul_right_comm, ← Nat.add_mul, Nat.mul_div_cancel _ positive]
    have flipped :
        findBuddyPfn (2 ^ (order + 1) * pages + 2 ^ order) order =
          2 ^ (order + 1) * pages := by
      rw [findBuddyPfn, Nat.one_shiftLeft]
      exact DyadicBlock.add_two_pow_xor_of_dvd (Dvd.intro _ rfl)
    rw [index]
    refine mergeBuddyAddr_of_sum ?_ buddyRange
    rw [flipped, Nat.mul_right_comm, ← offset]
    omega

end BuddyAddresses

/-! ## The blocks on the free lists -/

namespace BuddySystem

variable {sys : BuddySystem} {order addr : Nat} {block : PageBlock}

theorem mem_freeBlocks :
    block ∈ sys.freeBlocks ↔
      block.order ≤ maxOrder ∧
        block.addr ∈ (sys.freeArea block.order).freeList := by
  simp only [freeBlocks, List.mem_flatMap, List.mem_range, List.mem_map]
  constructor
  · rintro ⟨listed, bound, addr, member, rfl⟩
    exact ⟨Nat.le_of_lt_succ bound, member⟩
  · rintro ⟨bound, member⟩
    exact ⟨block.order, Nat.lt_succ_of_le bound, block.addr, member, rfl⟩

theorem freeBlocks_addFree (bound : order ≤ maxOrder) :
    (sys.addFree order addr).freeBlocks.Perm
      (⟨addr, order⟩ :: sys.freeBlocks) := by
  refine flatMap_gain_perm List.nodup_range
    (List.mem_range.mpr (Nat.lt_succ_of_le bound)) ?_ ?_
  · simp [addFree]
  · intro other different
    simp [addFree, different]

theorem freeBlocks_delFree
    (bound : order ≤ maxOrder)
    (member : addr ∈ (sys.freeArea order).freeList) :
    sys.freeBlocks.Perm
      (⟨addr, order⟩ :: (sys.delFree order addr).freeBlocks) := by
  refine flatMap_gain_perm List.nodup_range
    (List.mem_range.mpr (Nat.lt_succ_of_le bound)) ?_ ?_
  · simpa [delFree] using
      (List.perm_cons_erase member).map fun addr => PageBlock.mk addr order
  · intro other different
    simp [delFree, different]

theorem mem_addFree_freeList {other otherAddr : Nat} :
    otherAddr ∈ ((sys.addFree order addr).freeArea other).freeList ↔
      (other = order ∧ otherAddr = addr) ∨
        otherAddr ∈ (sys.freeArea other).freeList := by
  by_cases same : other = order
  · subst same
    simp [addFree]
  · simp [addFree, same]

theorem mem_of_mem_delFree_freeList {other otherAddr : Nat}
    (member :
      otherAddr ∈ ((sys.delFree order addr).freeArea other).freeList) :
    otherAddr ∈ (sys.freeArea other).freeList := by
  by_cases same : other = order
  · subst same
    simp only [delFree, Function.update_self] at member
    exact List.mem_of_mem_erase member
  · simpa [delFree, same] using member

end BuddySystem

/-! ## The invariant -/

/-- The number of pages in a family of blocks. -/
def pageCount (blocks : List PageBlock) : Nat :=
  (blocks.map PageBlock.size).sum

/--
The allocator state `sys` with the outstanding blocks `live` manages `pool`.
-/
structure Invariant
    (sys : BuddySystem) (live : List PageBlock) (pool : Set Nat) : Prop where
  baseAligned : 2 ^ maxOrder * pageSize ∣ sys.baseAddr
  tiles : Tiles PageBlock.pages (live ++ sys.freeBlocks) pool
  aligned : ∀ block ∈ live ++ sys.freeBlocks, block.Aligned
  orderLe : ∀ block ∈ live, block.order ≤ maxOrder
  poolRange :
    ∀ page ∈ pool, sys.baseAddr / pageSize < page ∧ page < 2 ^ 20
  counted :
    ∀ order ≤ maxOrder,
      (sys.freeArea order).nrFree =
        wrap32 (sys.freeArea order).freeList.length
  managed :
    pageCount (live ++ sys.freeBlocks) ≤ sys.managedPages ∧
      sys.managedPages ≤ 2 ^ 20
  noBuddies :
    ∀ order < maxOrder, ∀ addr ∈ (sys.freeArea order).freeList,
      splitBuddyAddr addr order ∉ (sys.freeArea order).freeList

namespace Invariant

variable {sys : BuddySystem} {live others : List PageBlock} {pool : Set Nat}
variable {addr order : Nat}

/-- The invariant does not depend on the bitmap. -/
theorem withBitmap
    (invariant : Invariant sys live pool)
    (bitmap : Nat → UInt8) :
    Invariant { sys with bitmap := bitmap } live pool where
  baseAligned := invariant.baseAligned
  tiles := invariant.tiles
  aligned := invariant.aligned
  orderLe := invariant.orderLe
  poolRange := invariant.poolRange
  counted := invariant.counted
  managed := invariant.managed
  noBuddies := invariant.noBuddies

private theorem pageCount_perm
    {first second : List PageBlock}
    (permutation : first.Perm second) :
    pageCount first = pageCount second :=
  (permutation.map _).sum_nat

/-- The outstanding blocks may be listed in any order. -/
theorem perm
    (invariant : Invariant sys live pool)
    (permutation : live.Perm others) :
    Invariant sys others pool := by
  have both := permutation.append_right sys.freeBlocks
  exact {
    baseAligned := invariant.baseAligned
    tiles := invariant.tiles.perm both
    aligned := fun block member =>
      invariant.aligned block (both.mem_iff.mpr member)
    orderLe := fun block member =>
      invariant.orderLe block (permutation.mem_iff.mpr member)
    poolRange := invariant.poolRange
    counted := invariant.counted
    managed := by
      rw [← pageCount_perm both]
      exact invariant.managed
    noBuddies := invariant.noBuddies
  }

/-- What an outstanding block's address satisfies. -/
theorem addr_bounds
    (invariant : Invariant sys live pool)
    (block : PageBlock)
    (member : block ∈ live ++ sys.freeBlocks) :
    sys.baseAddr < block.addr ∧ block.addr < 2 ^ 32 := by
  have inPool : block.addr / pageSize ∈ pool :=
    invariant.tiles.extent_subset member PageBlock.first_mem_pages
  have range := invariant.poolRange _ inPool
  obtain ⟨basePages, baseShape⟩ :=
    (Nat.dvd_mul_left pageSize _).trans invariant.baseAligned
  simp only [pageSize] at range baseShape
  omega

/-- The free pages are the pages of the pool that no outstanding block has. -/
theorem mem_freePages_iff
    (invariant : Invariant sys live pool)
    {page : Nat} :
    page ∈ sys.freePages ↔
      page ∈ pool ∧ ∀ block ∈ live, page ∉ block.pages := by
  constructor
  · rintro ⟨free, freeMember, inFree⟩
    have listed : free ∈ live ++ sys.freeBlocks :=
      List.mem_append_right _ freeMember
    refine ⟨invariant.tiles.extent_subset listed inFree, ?_⟩
    intro block held inBlock
    have apart := (List.pairwise_append.mp invariant.tiles.disjoint).2.2
      block held free freeMember
    exact Set.disjoint_left.mp apart inBlock inFree
  · rintro ⟨inPool, notHeld⟩
    obtain ⟨block, member, inBlock⟩ :=
      (invariant.tiles.covered page).mp inPool
    rcases List.mem_append.mp member with held | free
    · exact absurd inBlock (notHeld block held)
    · exact ⟨block, free, inBlock⟩

/-- Take a block off its free list. -/
theorem take
    (invariant : Invariant sys live pool)
    (bound : order ≤ maxOrder)
    (member : addr ∈ (sys.freeArea order).freeList) :
    Invariant (sys.delFree order addr) (⟨addr, order⟩ :: live) pool := by
  have moved :
      (live ++ sys.freeBlocks).Perm
        (⟨addr, order⟩ :: live ++ (sys.delFree order addr).freeBlocks) :=
    ((BuddySystem.freeBlocks_delFree bound member).append_left live).trans
      List.perm_middle
  exact {
    baseAligned := invariant.baseAligned
    tiles := invariant.tiles.perm moved
    aligned := fun block inside =>
      invariant.aligned block (moved.mem_iff.mpr inside)
    orderLe := by
      rintro block (_ | ⟨_, inside⟩)
      · exact bound
      · exact invariant.orderLe block inside
    poolRange := invariant.poolRange
    counted := by
      intro other otherBound
      have counted := invariant.counted other otherBound
      by_cases same : other = order
      · subst same
        have positive := List.length_pos_of_mem member
        simp only [BuddySystem.delFree, Function.update_self,
          List.length_erase_of_mem member, counted, sub32, wrap32]
        omega
      · simpa [BuddySystem.delFree, same] using counted
    managed := by
      rw [← pageCount_perm moved]
      exact invariant.managed
    noBuddies := by
      intro other below otherAddr inside buddyInside
      exact invariant.noBuddies other below otherAddr
        (BuddySystem.mem_of_mem_delFree_freeList inside)
        (BuddySystem.mem_of_mem_delFree_freeList buddyInside)
  }

/-- Put an outstanding block whose buddy is not free on its free list. -/
theorem put
    (invariant : Invariant sys (⟨addr, order⟩ :: live) pool)
    (buddyAbsent :
      order < maxOrder →
      splitBuddyAddr addr order ∉ (sys.freeArea order).freeList) :
    Invariant (sys.addFree order addr) live pool := by
  have bound : order ≤ maxOrder :=
    invariant.orderLe ⟨addr, order⟩ (List.mem_cons_self ..)
  have addrAligned : 2 ^ order * pageSize ∣ addr :=
    invariant.aligned ⟨addr, order⟩ (by simp)
  have moved :
      (⟨addr, order⟩ :: live ++ sys.freeBlocks).Perm
        (live ++ (sys.addFree order addr).freeBlocks) :=
    List.perm_middle.symm.trans
      ((BuddySystem.freeBlocks_addFree bound).symm.append_left live)
  exact {
    baseAligned := invariant.baseAligned
    tiles := invariant.tiles.perm moved
    aligned := fun block inside =>
      invariant.aligned block (moved.mem_iff.mpr inside)
    orderLe := fun block inside =>
      invariant.orderLe block (List.mem_cons_of_mem _ inside)
    poolRange := invariant.poolRange
    counted := by
      intro other otherBound
      have counted := invariant.counted other otherBound
      by_cases same : other = order
      · subst same
        simp [BuddySystem.addFree, counted, wrap32]
      · simpa [BuddySystem.addFree, same] using counted
    managed := by
      rw [← pageCount_perm moved]
      exact invariant.managed
    noBuddies := by
      intro other below otherAddr inside buddyInside
      rw [BuddySystem.mem_addFree_freeList] at inside buddyInside
      rcases inside with ⟨rfl, rfl⟩ | inside
      · rcases buddyInside with ⟨_, same⟩ | buddyInside
        · exact splitBuddyAddr_ne addrAligned same
        · exact buddyAbsent below buddyInside
      · rcases buddyInside with ⟨rfl, same⟩ | buddyInside
        · apply buddyAbsent below
          rwa [← same, splitBuddyAddr_splitBuddyAddr]
        · exact invariant.noBuddies other below otherAddr inside buddyInside
  }

/-! ## Halves of a block -/

theorem halves_aligned
    (aligned : 2 ^ (order + 1) * pageSize ∣ addr) :
    2 ^ order * pageSize ∣ addr ∧
      2 ^ order * pageSize ∣ splitBuddyAddr addr order := by
  have lower : 2 ^ order * pageSize ∣ addr :=
    (Nat.mul_dvd_mul_right (Nat.pow_dvd_pow 2 (Nat.le_succ order)) _).trans
      aligned
  refine ⟨lower, ?_⟩
  rw [splitBuddyAddr_of_lower aligned]
  exact Nat.dvd_add lower (dvd_refl _)

theorem upperHalf_first
    (aligned : 2 ^ (order + 1) * pageSize ∣ addr) :
    splitBuddyAddr addr order / pageSize = addr / pageSize + 2 ^ order := by
  rw [splitBuddyAddr_of_lower aligned, Nat.add_mul_div_right _ _ (by decide)]

theorem pages_halves
    (aligned : 2 ^ (order + 1) * pageSize ∣ addr) :
    (PageBlock.mk addr (order + 1)).pages =
      (PageBlock.mk addr order).pages ∪
        (PageBlock.mk (splitBuddyAddr addr order) order).pages := by
  ext page
  simp only [PageBlock.pages, upperHalf_first aligned, Set.mem_union,
    Set.mem_ofPred_eq, pow_succ]
  omega

theorem halves_disjoint
    (aligned : 2 ^ (order + 1) * pageSize ∣ addr) :
    Disjoint (PageBlock.mk addr order).pages
      (PageBlock.mk (splitBuddyAddr addr order) order).pages := by
  refine Set.disjoint_left.mpr fun page inLower inUpper => ?_
  simp only [PageBlock.pages, upperHalf_first aligned, Set.mem_ofPred_eq]
    at inLower inUpper
  omega

theorem pageCount_halves (addr order : Nat) (rest : List PageBlock) :
    pageCount (⟨addr, order + 1⟩ :: rest) =
      pageCount (⟨addr, order⟩ :: ⟨splitBuddyAddr addr order, order⟩ :: rest) := by
  simp only [pageCount, List.map_cons, List.sum_cons, PageBlock.size, pow_succ]
  omega

/--
Cutting an outstanding block into its halves, and joining two outstanding
halves of one block.
-/
theorem cut_iff
    (aligned : 2 ^ (order + 1) * pageSize ∣ addr)
    (below : order < maxOrder) :
    Invariant sys (⟨addr, order + 1⟩ :: live) pool ↔
      Invariant sys
        (⟨addr, order⟩ :: ⟨splitBuddyAddr addr order, order⟩ :: live)
        pool := by
  obtain ⟨lowerAligned, upperAligned⟩ := halves_aligned aligned
  have parts := pages_halves aligned
  have apart := halves_disjoint aligned
  constructor
  · intro invariant
    have tiles := (Tiles.cut_iff parts apart).mp invariant.tiles
    refine {
      invariant with
      tiles := tiles
      aligned := ?_
      orderLe := ?_
      managed := ?_
    }
    · rintro block (_ | ⟨_, _ | ⟨_, inside⟩⟩)
      · exact lowerAligned
      · exact upperAligned
      · exact invariant.aligned block (List.mem_cons_of_mem _ inside)
    · rintro block (_ | ⟨_, _ | ⟨_, inside⟩⟩)
      · exact Nat.le_of_lt below
      · exact Nat.le_of_lt below
      · exact invariant.orderLe block (List.mem_cons_of_mem _ inside)
    · have managed := invariant.managed
      rwa [List.cons_append, pageCount_halves] at managed
  · intro invariant
    have tiles := (Tiles.cut_iff parts apart).mpr invariant.tiles
    refine {
      invariant with
      tiles := tiles
      aligned := ?_
      orderLe := ?_
      managed := ?_
    }
    · rintro block (_ | ⟨_, inside⟩)
      · exact aligned
      · exact invariant.aligned block
          (List.mem_cons_of_mem _ (List.mem_cons_of_mem _ inside))
    · rintro block (_ | ⟨_, inside⟩)
      · exact below
      · exact invariant.orderLe block
          (List.mem_cons_of_mem _ (List.mem_cons_of_mem _ inside))
    · have managed := invariant.managed
      rwa [List.cons_append, List.cons_append, ← pageCount_halves] at managed

/-! ## Allocation -/

theorem findFreeOrder_spec
    (sys : BuddySystem)
    (fuel currentOrder : Nat)
    (enough : currentOrder + fuel = maxOrder + 1) :
    currentOrder ≤ findFreeOrder sys fuel currentOrder ∧
      findFreeOrder sys fuel currentOrder ≤ maxOrder + 1 ∧
      (∀ other, currentOrder ≤ other →
        other < findFreeOrder sys fuel currentOrder →
        (sys.freeArea other).freeList = []) ∧
      (findFreeOrder sys fuel currentOrder ≤ maxOrder →
        (sys.freeArea (findFreeOrder sys fuel currentOrder)).freeList ≠ []) := by
  induction fuel generalizing currentOrder with
  | zero =>
      simp only [findFreeOrder]
      refine ⟨Nat.le_refl _, by omega, fun other => by omega, by omega⟩
  | succ fuel inductionHypothesis =>
      have inRange : currentOrder ≤ maxOrder := by omega
      simp only [findFreeOrder, inRange, ↓reduceIte]
      by_cases empty : (sys.freeArea currentOrder).freeList = []
      · simp only [empty, List.isEmpty_nil, ↓reduceIte]
        obtain ⟨lower, upper, skipped, found⟩ :=
          inductionHypothesis (currentOrder + 1) (by omega)
        refine ⟨by omega, upper, ?_, found⟩
        intro other above below
        rcases Nat.eq_or_lt_of_le above with rfl | above
        · exact empty
        · exact skipped other above below
      · have notEmpty : (sys.freeArea currentOrder).freeList.isEmpty = false := by
          simpa using empty
        simp only [notEmpty, Bool.false_eq_true, ↓reduceIte]
        exact ⟨Nat.le_refl _, by omega, fun other => by omega, fun _ => empty⟩

/--
The split loop cuts the block in hand down to `order` and puts every upper
half on its empty list.
-/
theorem splitLoop_invariant
    (currentOrder : Nat)
    (invariant : Invariant sys (⟨addr, currentOrder⟩ :: live) pool)
    (reached : order ≤ currentOrder)
    (empty :
      ∀ other, order ≤ other → other < currentOrder →
        (sys.freeArea other).freeList = []) :
    Invariant (splitLoop addr order currentOrder sys)
      (⟨addr, order⟩ :: live) pool := by
  induction currentOrder generalizing sys with
  | zero =>
      obtain rfl := Nat.le_zero.mp reached
      exact invariant
  | succ currentOrder inductionHypothesis =>
      by_cases larger : currentOrder + 1 > order
      · simp only [splitLoop, larger, ↓reduceIte]
        have bound : currentOrder + 1 ≤ maxOrder :=
          invariant.orderLe ⟨addr, currentOrder + 1⟩ (List.mem_cons_self ..)
        have aligned : 2 ^ (currentOrder + 1) * pageSize ∣ addr :=
          invariant.aligned ⟨addr, currentOrder + 1⟩ (by simp)
        have halves := ((cut_iff aligned bound).mp invariant).perm
          (List.Perm.swap ..)
        have listEmpty : (sys.freeArea currentOrder).freeList = [] :=
          empty currentOrder (by omega) (Nat.lt_succ_self _)
        have kept := halves.put fun _ => by simp [listEmpty]
        refine inductionHypothesis (kept.withBitmap _) (by omega) ?_
        intro other above below
        have different : other ≠ currentOrder := by omega
        simpa [BuddySystem.addFree, different] using
          empty other above (by omega)
      · have same : order = currentOrder + 1 := by omega
        subst same
        simpa only [splitLoop, gt_iff_lt, Nat.lt_irrefl, ↓reduceIte] using
          invariant

/-- Everything `pmm_alloc_pages` can do. -/
theorem pmmAllocPages_cases
    (invariant : Invariant sys live pool)
    (order : Nat) :
    (pmmAllocPages sys order = (0, sys) ∧
      ∀ other, order ≤ other → other ≤ maxOrder →
        (sys.freeArea other).freeList = []) ∨
    ((pmmAllocPages sys order).1 ≠ 0 ∧
      order ≤ maxOrder ∧
      (∃ other, order ≤ other ∧ other ≤ maxOrder ∧
        (sys.freeArea other).freeList ≠ []) ∧
      Invariant (pmmAllocPages sys order).2
        (⟨(pmmAllocPages sys order).1, order⟩ :: live) pool) := by
  unfold pmmAllocPages
  by_cases tooLarge : order > maxOrder
  · simp only [tooLarge, ↓reduceIte]
    exact Or.inl ⟨trivial, fun other => by omega⟩
  · obtain ⟨lower, upper, skipped, found⟩ :=
      findFreeOrder_spec sys (maxOrder + 1 - order) order (by omega)
    simp only [tooLarge, ↓reduceIte]
    generalize findFreeOrder sys (maxOrder + 1 - order) order = chosen
      at lower upper skipped found ⊢
    by_cases exhausted : chosen > maxOrder
    · simp only [exhausted, ↓reduceIte]
      exact Or.inl ⟨trivial, fun other above below =>
        skipped other above (by omega)⟩
    · simp only [exhausted, ↓reduceIte]
      have bound : chosen ≤ maxOrder := by omega
      cases shape : (sys.freeArea chosen).freeList with
      | nil =>
          exact absurd shape (found bound)
      | cons pageAddr rest =>
          have member : pageAddr ∈ (sys.freeArea chosen).freeList := by
            rw [shape]
            exact List.mem_cons_self ..
          have taken := invariant.take bound member
          have isBlock := taken.addr_bounds ⟨pageAddr, chosen⟩ (by simp)
          have stillEmpty :
              ∀ other, order ≤ other → other < chosen →
                ((sys.delFree chosen pageAddr).freeArea other).freeList =
                  [] := by
            intro other above below
            have different : other ≠ chosen := Nat.ne_of_lt below
            simpa [BuddySystem.delFree, different] using
              skipped other above below
          have split := splitLoop_invariant chosen taken lower stillEmpty
          refine Or.inr ⟨?_, by omega, ⟨chosen, lower, bound, by simp [shape]⟩,
            split.withBitmap _⟩
          exact Nat.ne_of_gt (Nat.zero_lt_of_lt isBlock.1)

/-! ## Release -/

/-- The block in hand and its free buddy become the block that starts lower. -/
theorem join
    (invariant : Invariant sys (⟨addr, order⟩ :: live) pool)
    (below : order < maxOrder)
    (free : splitBuddyAddr addr order ∈ (sys.freeArea order).freeList) :
    Invariant (sys.delFree order (splitBuddyAddr addr order))
      (⟨if addr > splitBuddyAddr addr order then splitBuddyAddr addr order
        else addr, order + 1⟩ :: live) pool := by
  have aligned : 2 ^ order * pageSize ∣ addr :=
    invariant.aligned ⟨addr, order⟩ (by simp)
  have taken := invariant.take (Nat.le_of_lt below) free
  rcases lower_or_upper aligned with isLower | ⟨lower, isUpper, lowerAligned⟩
  · have notAbove : ¬ addr > splitBuddyAddr addr order := by
      rw [splitBuddyAddr_of_lower isLower]
      omega
    rw [if_neg notAbove]
    exact (cut_iff isLower below).mpr (taken.perm (List.Perm.swap ..))
  · have buddyIsLower : splitBuddyAddr addr order = lower := by
      rw [isUpper]
      exact splitBuddyAddr_of_upper lowerAligned
    have addrIsUpper : addr = splitBuddyAddr lower order := by
      rw [isUpper, splitBuddyAddr_of_lower lowerAligned]
    have positive : 0 < 2 ^ order * pageSize :=
      Nat.mul_pos (Nat.two_pow_pos _) (by decide)
    have above : addr > splitBuddyAddr addr order := by
      rw [buddyIsLower]
      omega
    rw [if_pos above, buddyIsLower]
    rw [buddyIsLower, addrIsUpper] at taken
    exact (cut_iff lowerAligned below).mpr taken

/-- One round of the merge loop. -/
theorem mergeLoop_round
    (fuel : Nat)
    (invariant : Invariant sys (⟨addr, order⟩ :: live) pool)
    (below : order < maxOrder) :
    mergeLoop (fuel + 1) sys order (sub32 addr sys.baseAddr / pageSize) addr =
      if splitBuddyAddr addr order ∈ (sys.freeArea order).freeList then
        let lower :=
          if addr > splitBuddyAddr addr order then splitBuddyAddr addr order
          else addr
        mergeLoop fuel (sys.delFree order (splitBuddyAddr addr order))
          (order + 1) (sub32 lower sys.baseAddr / pageSize) lower
      else
        sys.addFree order addr := by
  have bounds := invariant.addr_bounds ⟨addr, order⟩ (by simp)
  obtain ⟨buddyAddr, buddyIdx⟩ :=
    mergeBuddyAddr_eq invariant.baseAligned below
      (invariant.aligned ⟨addr, order⟩ (by simp)) (Nat.le_of_lt bounds.1)
      bounds.2
  simp only at buddyAddr buddyIdx
  simp only [mergeLoop, below, ↓reduceIte, buddyAddr, buddyIdx]
  congr 1
  split <;> rfl

/--
The merge loop joins the block in hand with its buddy as long as the buddy is
free, then puts the result on its list.
-/
theorem mergeLoop_invariant
    (fuel order pageIdx addr : Nat)
    (invariant : Invariant sys (⟨addr, order⟩ :: live) pool)
    (enough : order + fuel = maxOrder)
    (index : pageIdx = sub32 addr sys.baseAddr / pageSize) :
    Invariant (mergeLoop fuel sys order pageIdx addr) live pool := by
  induction fuel generalizing sys order pageIdx addr with
  | zero =>
      exact invariant.put fun below => by omega
  | succ fuel inductionHypothesis =>
      have below : order < maxOrder := by omega
      rw [index, invariant.mergeLoop_round fuel below]
      split
      · rename_i free
        exact inductionHypothesis _ _ _ (invariant.join below free) (by omega)
          rfl
      · rename_i notFree
        exact invariant.put fun _ => notFree

/-- Releasing an outstanding block keeps the invariant. -/
theorem pmmFreePages
    (invariant : Invariant sys (⟨addr, order⟩ :: live) pool) :
    Invariant (pmmFreePages sys addr order) live pool := by
  have bound : order ≤ maxOrder :=
    invariant.orderLe ⟨addr, order⟩ (List.mem_cons_self ..)
  have bounds := invariant.addr_bounds ⟨addr, order⟩ (by simp)
  have accepted : ¬ (order > maxOrder ∨ addr < sys.baseAddr) := by
    simp only at bounds
    omega
  simp only [Pmm.pmmFreePages, accepted, ↓reduceIte]
  exact mergeLoop_invariant _ _ _ _ (invariant.withBitmap _)
    (by omega) rfl

end Invariant

end MatrixOS.Pmm
