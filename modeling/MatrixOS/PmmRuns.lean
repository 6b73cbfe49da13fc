import Mathlib.Algebra.Order.BigOperators.Group.List
import Mathlib.Logic.Relation
import Mathlib.Tactic.NormNum
import MatrixOS.PmmInvariant

namespace MatrixOS.Pmm

open Tiling

/-!
# Runs of the page allocator

A run starts in the state `pmm_init` leaves and performs any sequence of
`pmm_alloc_pages` calls and of `pmm_free_pages` calls on outstanding blocks.
The invariant holds in every state of such a run when the region starts at a
multiple of the largest block, as `BOOT_PMM_PHYS_START` does.
-/

/-! ## Initialisation -/

namespace Invariant

variable {sys : BuddySystem} {live : List PageBlock} {pool : Set Nat}

/-- A block outside the pool may be added to it as an outstanding block. -/
theorem grow
    (invariant : Invariant sys live pool)
    {block : PageBlock}
    (aligned : block.Aligned)
    (bound : block.order ≤ maxOrder)
    (apart : Disjoint block.pages pool)
    (range :
      ∀ page ∈ block.pages, sys.baseAddr / pageSize < page ∧ page < 2 ^ 20)
    (room :
      pageCount (live ++ sys.freeBlocks) + block.size ≤ sys.managedPages) :
    Invariant sys (block :: live) (block.pages ∪ pool) where
  baseAligned := invariant.baseAligned
  tiles := {
    disjoint := by
      refine List.pairwise_cons.mpr ⟨?_, invariant.tiles.disjoint⟩
      intro other member
      exact apart.mono_right (invariant.tiles.extent_subset member)
    covered := by
      intro page
      rw [Set.mem_union, invariant.tiles.covered page]
      simp
  }
  aligned := by
    rintro other (_ | ⟨_, member⟩)
    · exact aligned
    · exact invariant.aligned other member
  orderLe := by
    rintro other (_ | ⟨_, member⟩)
    · exact bound
    · exact invariant.orderLe other member
  poolRange := by
    rintro page (inBlock | inPool)
    · exact range page inBlock
    · exact invariant.poolRange page inPool
  counted := invariant.counted
  managed := by
    refine ⟨?_, invariant.managed.2⟩
    simp only [List.cons_append, pageCount, List.map_cons, List.sum_cons]
    simp only [pageCount] at room
    omega
  noBuddies := invariant.noBuddies

end Invariant

/-- The length of the largest block in bytes. -/
theorem maxBlockBytes : maxOrderPages * pageSize = 2 ^ 23 := by
  decide

theorem maxBlockLength : 2 ^ maxOrder * pageSize = 2 ^ 23 := by
  norm_num [maxOrder, pageSize]

theorem pageSize_dvd_maxBlock : pageSize ∣ 2 ^ 23 := by
  norm_num [pageSize]

/-- The pages of a largest block run from its first page. -/
theorem mem_pages_maxBlock
    {addr page : Nat} :
    page ∈ (PageBlock.mk addr maxOrder).pages ↔
      addr / pageSize ≤ page ∧ page < addr / pageSize + 2 ^ 11 := by
  simp [PageBlock.pages, maxOrder]

theorem alignMaxBlock_eq
    {addr : Nat}
    (inRange : addr + (2 ^ 23 - 1) < 2 ^ 32) :
    alignMaxBlock addr = (addr + (2 ^ 23 - 1)) / 2 ^ 23 * 2 ^ 23 := by
  rw [alignMaxBlock, maxBlockBytes, wrap32_of_lt inRange]
  exact and_not32_mask inRange (by omega)

/-- One turn of the loop of `pmm_init` adds a largest block behind the pool. -/
theorem Invariant.addLargest
    {sys : BuddySystem} {pool : Set Nat} {currentAddr : Nat}
    (invariant : Invariant sys [] pool)
    (room : pageCount sys.freeBlocks + 2 ^ 11 ≤ sys.managedPages)
    (addrAligned : 2 ^ 23 ∣ currentAddr)
    (above : sys.baseAddr < currentAddr)
    (ordered : ∀ page ∈ pool, page < currentAddr / pageSize)
    (fits : currentAddr + 2 ^ 23 ≤ 2 ^ 32) :
    Invariant (sys.addFree maxOrder currentAddr) []
      ((PageBlock.mk currentAddr maxOrder).pages ∪ pool) := by
  have firstPage : currentAddr / pageSize * pageSize = currentAddr :=
    Nat.div_mul_cancel (pageSize_dvd_maxBlock.trans addrAligned)
  obtain ⟨basePages, baseShape⟩ :=
    (Nat.dvd_mul_left pageSize _).trans invariant.baseAligned
  have blockAligned : (PageBlock.mk currentAddr maxOrder).Aligned := by
    rwa [PageBlock.Aligned, maxBlockLength]
  have grown := invariant.grow blockAligned (Nat.le_refl _)
    (by
      refine Set.disjoint_left.mpr fun page inBlock inPool => ?_
      have before := ordered page inPool
      have behind := (mem_pages_maxBlock.mp inBlock).1
      omega)
    (by
      intro page inBlock
      have inside := mem_pages_maxBlock.mp inBlock
      simp only [pageSize] at inside firstPage baseShape ⊢
      omega)
    (by simpa only [List.nil_append, PageBlock.size, maxOrder] using room)
  exact grown.put fun below => absurd below (Nat.lt_irrefl _)

theorem pageCount_addFree
    {sys : BuddySystem} {order addr : Nat}
    (bound : order ≤ maxOrder) :
    pageCount (sys.addFree order addr).freeBlocks =
      2 ^ order + pageCount sys.freeBlocks :=
  ((BuddySystem.freeBlocks_addFree bound).map _).sum_nat

/--
The loop of `pmm_init` keeps the invariant and leaves the counts and the base
alone.  Its cursor has to stay in the address space only while there is a
block left to add.
-/
theorem pmmInitLoop_invariant
    (fuel remainingPages currentAddr : Nat)
    {sys : BuddySystem} {pool : Set Nat}
    (invariant : Invariant sys [] pool)
    (room :
      pageCount sys.freeBlocks + remainingPages ≤ sys.managedPages)
    (cursor :
      maxOrderPages ≤ remainingPages →
        2 ^ 23 ∣ currentAddr ∧ sys.baseAddr < currentAddr ∧
        (∀ page ∈ pool, page < currentAddr / pageSize) ∧
        currentAddr + remainingPages / 2 ^ 11 * 2 ^ 23 ≤ 2 ^ 32) :
    ∃ final,
      Invariant (pmmInitLoop fuel sys remainingPages currentAddr) []
        final := by
  induction fuel generalizing sys remainingPages currentAddr pool with
  | zero =>
      exact ⟨pool, invariant⟩
  | succ fuel inductionHypothesis =>
      by_cases another : remainingPages ≥ maxOrderPages
      · obtain ⟨addrAligned, above, ordered, fits⟩ := cursor another
        simp only [pmmInitLoop, another, ↓reduceIte]
        have pages : maxOrderPages = 2 ^ 11 := Nat.one_shiftLeft maxOrder
        have added := invariant.addLargest (by omega) addrAligned above
          ordered (by omega)
        refine inductionHypothesis (remainingPages - maxOrderPages)
          (wrap32 (currentAddr + maxOrderPages * pageSize))
          (added.withBitmap _) ?_ ?_
        · have counted :
              pageCount (sys.addFree maxOrder currentAddr).freeBlocks =
                2 ^ maxOrder + pageCount sys.freeBlocks :=
            pageCount_addFree (Nat.le_refl _)
          have same : ∀ bitmap,
              BuddySystem.freeBlocks
                  { sys.addFree maxOrder currentAddr with bitmap := bitmap } =
                (sys.addFree maxOrder currentAddr).freeBlocks :=
            fun _ => rfl
          rw [same, counted]
          simp only [BuddySystem.addFree, maxOrder]
          omega
        · intro more
          have noWrap : currentAddr + 2 ^ 23 < 2 ^ 32 := by omega
          have nextPage : (currentAddr + 2 ^ 23) / pageSize =
              currentAddr / pageSize + 2 ^ 11 := by
            simp only [pageSize]
            omega
          rw [maxBlockBytes, wrap32_of_lt noWrap]
          refine ⟨Nat.dvd_add addrAligned (dvd_refl _), ?_, ?_, ?_⟩
          · simp only [BuddySystem.addFree]
            omega
          · rw [nextPage]
            rintro page (inBlock | inPool)
            · exact (mem_pages_maxBlock.mp inBlock).2
            · exact Nat.lt_add_right _ (ordered page inPool)
          · omega
      · simp only [pmmInitLoop, another, ↓reduceIte]
        exact ⟨pool, invariant⟩

theorem freeBlocks_eq_nil
    {sys : BuddySystem}
    (emptied : ∀ order ≤ maxOrder, sys.freeArea order = ⟨[], 0⟩) :
    sys.freeBlocks = [] := by
  refine List.eq_nil_iff_forall_not_mem.mpr fun block member => ?_
  obtain ⟨bound, listed⟩ := BuddySystem.mem_freeBlocks.mp member
  simp [emptied block.order bound] at listed

/-- The lists `pmm_init` starts its loop with: nothing is in the pool. -/
theorem Invariant.empty
    {sys : BuddySystem}
    (aligned : 2 ^ 23 ∣ sys.baseAddr)
    (pages : sys.managedPages ≤ 2 ^ 20)
    (emptied : ∀ order ≤ maxOrder, sys.freeArea order = ⟨[], 0⟩) :
    Invariant sys [] ∅ := by
  have noBlocks : sys.freeBlocks = [] := freeBlocks_eq_nil emptied
  exact {
    baseAligned := by rwa [maxBlockLength]
    tiles := by
      rw [noBlocks]
      exact ⟨List.Pairwise.nil, by simp⟩
    aligned := by simp [noBlocks]
    orderLe := by simp
    poolRange := by simp
    counted := by
      intro order bound
      simp [emptied order bound, wrap32]
    managed := by
      rw [noBlocks]
      simp only [List.append_nil, pageCount, List.map_nil, List.sum_nil]
      omega
    noBuddies := by
      intro order below addr listed
      simp [emptied order (Nat.le_of_lt below)] at listed
  }

/-- The first block of an aligned region is behind the block of its bitmap. -/
theorem pmmInit_cursor
    {memoryStart totalPages : Nat}
    (aligned : 2 ^ 23 ∣ memoryStart)
    (inRange : memoryStart + totalPages * 4096 < 2 ^ 32)
    (enough : maxOrderPages ≤ totalPages) :
    alignMaxBlock (wrap32 (memoryStart + bitmapSize totalPages)) =
        memoryStart + 2 ^ 23 ∧
      memoryStart + 2 ^ 23 + totalPages / 2 ^ 11 * 2 ^ 23 ≤ 2 ^ 32 := by
  have manyPages : 2 ^ 11 ≤ totalPages := enough
  obtain ⟨startBlocks, startShape⟩ := aligned
  have bitmapBytes : bitmapSize totalPages ≤ 2 ^ 17 ∧
      0 < bitmapSize totalPages := by
    simp only [bitmapSize]
    omega
  have startRange :
      memoryStart + bitmapSize totalPages + (2 ^ 23 - 1) < 2 ^ 32 := by
    omega
  rw [wrap32_of_lt (by omega), alignMaxBlock_eq startRange]
  omega

/-- `pmm_init` establishes the invariant for the pages it hands over. -/
theorem pmmInit_invariant
    (prior : BuddySystem)
    {memoryStart memoryEnd : Nat}
    (aligned : 2 ^ 23 ∣ memoryStart)
    (ordered : memoryStart < memoryEnd)
    (inRange : memoryEnd < 2 ^ 32) :
    Invariant (pmmInit prior memoryStart memoryEnd) []
      (pmmInit prior memoryStart memoryEnd).freePages := by
  suffices established :
      ∃ final, Invariant (pmmInit prior memoryStart memoryEnd) [] final by
    obtain ⟨final, invariant⟩ := established
    have same :
        final = (pmmInit prior memoryStart memoryEnd).freePages := by
      ext page
      exact invariant.tiles.covered page
    rwa [same] at invariant
  unfold pmmInit
  simp only
  rw [sub32_of_le inRange (Nat.le_of_lt ordered)]
  generalize total : (memoryEnd - memoryStart) / pageSize = totalPages
  simp only [pageSize] at total
  refine pmmInitLoop_invariant totalPages totalPages _
    (Invariant.empty aligned ?_ ?_) ?_ ?_
  · simp only
    omega
  · intro order bound
    simp [bound]
  · rw [freeBlocks_eq_nil fun order bound => by simp [bound]]
    simp [pageCount]
  · intro enough
    obtain ⟨cursor, fits⟩ := pmmInit_cursor aligned (by omega) enough
    rw [cursor]
    obtain ⟨startBlocks, startShape⟩ := aligned
    refine ⟨⟨startBlocks + 1, by omega⟩, ?_, by simp, fits⟩
    simp only
    omega

/-! ## Runs -/

/-- An allocator state together with the blocks its clients hold. -/
structure PmmRun where
  sys : BuddySystem
  live : List PageBlock

/-- One call: an allocation, or the release of an outstanding block. -/
inductive PmmStep : PmmRun → PmmRun → Prop where
  | alloc (run : PmmRun) (order : Nat) :
      PmmStep run {
        sys := (pmmAllocPages run.sys order).2
        live :=
          if (pmmAllocPages run.sys order).1 = 0 then run.live
          else ⟨(pmmAllocPages run.sys order).1, order⟩ :: run.live }
  | free (run : PmmRun) (block : PageBlock) (held : block ∈ run.live) :
      PmmStep run {
        sys := pmmFreePages run.sys block.addr block.order
        live := run.live.erase block }

/-- The states of the runs that start after `pmm_init`. -/
def Reachable (prior : BuddySystem) (memoryStart memoryEnd : Nat) :
    PmmRun → Prop :=
  Relation.ReflTransGen PmmStep ⟨pmmInit prior memoryStart memoryEnd, []⟩

/-- One call keeps the invariant. -/
theorem PmmStep.invariant
    {run next : PmmRun} {pool : Set Nat}
    (step : PmmStep run next)
    (invariant : Invariant run.sys run.live pool) :
    Invariant next.sys next.live pool := by
  cases step with
  | alloc order =>
      rcases invariant.pmmAllocPages_cases order with
        ⟨failed, _⟩ | ⟨found, _, _, kept⟩
      · simpa [failed] using invariant
      · simpa [found] using kept
  | free block held =>
      exact (invariant.perm (List.perm_cons_erase held)).pmmFreePages

/-- The invariant holds in every state of a run. -/
theorem Reachable.invariant
    {prior : BuddySystem} {memoryStart memoryEnd : Nat} {run : PmmRun}
    (reached : Reachable prior memoryStart memoryEnd run)
    (aligned : 2 ^ 23 ∣ memoryStart)
    (ordered : memoryStart < memoryEnd)
    (inRange : memoryEnd < 2 ^ 32) :
    Invariant run.sys run.live
      (pmmInit prior memoryStart memoryEnd).freePages := by
  induction reached with
  | refl =>
      exact pmmInit_invariant prior aligned ordered inRange
  | tail _ step inductionHypothesis =>
      exact step.invariant inductionHypothesis

/-! ## Counting -/

theorem pageCount_append (first second : List PageBlock) :
    pageCount (first ++ second) = pageCount first + pageCount second := by
  simp [pageCount]

/-- The pages on the free lists, order by order. -/
theorem pageCount_freeBlocks (sys : BuddySystem) :
    pageCount sys.freeBlocks =
      ((List.range (maxOrder + 1)).map fun order =>
        (sys.freeArea order).freeList.length * 2 ^ order).sum := by
  rw [BuddySystem.freeBlocks]
  induction List.range (maxOrder + 1) with
  | nil =>
      rfl
  | cons order rest inductionHypothesis =>
      have first : ∀ addrs : List Nat,
          pageCount (addrs.map fun addr => ⟨addr, order⟩) =
            addrs.length * 2 ^ order := by
        intro addrs
        simp [pageCount, PageBlock.size, Function.comp_def]
      rw [List.flatMap_cons, pageCount_append, inductionHypothesis, first,
        List.map_cons, List.sum_cons]

/-- A 32-bit sum of products does not wrap when the true sum is small. -/
theorem foldl_wrap32_add
    (orders : List Nat) (term : Nat → Nat) (total : Nat)
    (small : total + (orders.map term).sum < 2 ^ 32) :
    orders.foldl (fun sum order => wrap32 (sum + wrap32 (term order))) total =
      total + (orders.map term).sum := by
  induction orders generalizing total with
  | nil =>
      simp
  | cons order rest inductionHypothesis =>
      simp only [List.map_cons, List.sum_cons, List.foldl_cons] at small ⊢
      rw [wrap32_of_lt (show term order < 2 ^ 32 by omega),
        wrap32_of_lt (show total + term order < 2 ^ 32 by omega),
        inductionHypothesis _ (by omega)]
      omega

namespace Invariant

variable {sys : BuddySystem} {live : List PageBlock} {pool : Set Nat}

/-- The free pages fit into the managed pages. -/
theorem pageCount_freeBlocks_le
    (invariant : Invariant sys live pool) :
    pageCount sys.freeBlocks ≤ sys.managedPages := by
  have bound := invariant.managed.1
  rw [pageCount_append] at bound
  omega

/-- The counters are exact. -/
theorem nrFree_eq
    (invariant : Invariant sys live pool)
    {order : Nat}
    (bound : order ≤ maxOrder) :
    (sys.freeArea order).nrFree = (sys.freeArea order).freeList.length := by
  have total := invariant.pageCount_freeBlocks_le
  have managed := invariant.managed.2
  have term :
      (sys.freeArea order).freeList.length * 2 ^ order ≤
        pageCount sys.freeBlocks := by
    rw [pageCount_freeBlocks]
    exact List.single_le_sum (fun _ _ => Nat.zero_le _) _ (List.mem_map.mpr
      ⟨order, List.mem_range.mpr (Nat.lt_succ_of_le bound), rfl⟩)
  have length :
      (sys.freeArea order).freeList.length ≤
        (sys.freeArea order).freeList.length * 2 ^ order :=
    Nat.le_mul_of_pos_right _ (Nat.two_pow_pos _)
  rw [invariant.counted order bound, wrap32_of_lt (by omega)]

/-- `pmm_stats` computes the number of free pages. -/
theorem totalFreePages_eq
    (invariant : Invariant sys live pool) :
    totalFreePages sys =
      ((List.range (maxOrder + 1)).map fun order =>
        (sys.freeArea order).nrFree * 2 ^ order).sum ∧
      totalFreePages sys = pageCount sys.freeBlocks := by
  have sums :
      ((List.range (maxOrder + 1)).map fun order =>
          (sys.freeArea order).nrFree * 2 ^ order).sum =
        pageCount sys.freeBlocks := by
    rw [pageCount_freeBlocks]
    congr 1
    refine List.map_congr_left fun order member => ?_
    rw [invariant.nrFree_eq
      (Nat.le_of_lt_succ (List.mem_range.mp member))]
  have total := invariant.pageCount_freeBlocks_le
  have managed := invariant.managed.2
  have folded :
      totalFreePages sys =
        ((List.range (maxOrder + 1)).map fun order =>
          (sys.freeArea order).nrFree * 2 ^ order).sum := by
    simp only [totalFreePages, Nat.shiftLeft_eq, Nat.one_mul]
    rw [foldl_wrap32_add _ _ _ (by omega), Nat.zero_add]
  exact ⟨folded, folded.trans sums⟩

end Invariant

/-! ## Partition -/

/--
In every state of a run the free and the outstanding blocks are disjoint,
aligned to their lengths and cover exactly the pages that `pmm_init` handed
over; the counters are the lengths of the lists and the subtraction in
`pmm_stats` does not underflow.
-/
theorem reachable_partition
    (prior : BuddySystem)
    {memoryStart memoryEnd : Nat}
    (aligned : 2 ^ 23 ∣ memoryStart)
    (ordered : memoryStart < memoryEnd)
    (inRange : memoryEnd < 2 ^ 32)
    {run : PmmRun}
    (reached : Reachable prior memoryStart memoryEnd run) :
    (run.live ++ run.sys.freeBlocks).Pairwise
        (fun first second => Disjoint first.pages second.pages) ∧
      (∀ page,
        page ∈ (pmmInit prior memoryStart memoryEnd).freePages ↔
          ∃ block ∈ run.live ++ run.sys.freeBlocks, page ∈ block.pages) ∧
      (∀ block ∈ run.live ++ run.sys.freeBlocks,
        2 ^ block.order * pageSize ∣ block.addr) ∧
      (∀ order ≤ maxOrder,
        (run.sys.freeArea order).nrFree =
          (run.sys.freeArea order).freeList.length) ∧
      ((List.range (maxOrder + 1)).map fun order =>
          (run.sys.freeArea order).nrFree * 2 ^ order).sum ≤
        run.sys.managedPages ∧
      (pmmStats run.sys).usedPages =
        run.sys.managedPages -
          ((List.range (maxOrder + 1)).map fun order =>
            (run.sys.freeArea order).nrFree * 2 ^ order).sum := by
  have invariant := reached.invariant aligned ordered inRange
  obtain ⟨sums, counted⟩ := invariant.totalFreePages_eq
  have fits := invariant.pageCount_freeBlocks_le
  have managed := invariant.managed.2
  refine ⟨invariant.tiles.disjoint, invariant.tiles.covered,
    invariant.aligned, fun order => invariant.nrFree_eq, ?_, ?_⟩
  · rw [← sums, counted]
    exact fits
  · rw [← sums]
    exact sub32_of_le (by omega) (by omega)

/-- `buddy_sys` and its bitmap before `pmm_init`. -/
def bss : BuddySystem where
  totalPages := 0
  managedPages := 0
  baseAddr := 0
  freeArea := fun _ => ⟨[], 0⟩
  bitmap := fun _ => 0

/-- The region of `boot_config.h` after one page has been allocated. -/
def bootRun : PmmRun where
  sys := (pmmAllocPages (pmmInit bss 0x01000000 0x02000000) 0).2
  live :=
    if (pmmAllocPages (pmmInit bss 0x01000000 0x02000000) 0).1 = 0 then []
    else [⟨(pmmAllocPages (pmmInit bss 0x01000000 0x02000000) 0).1, 0⟩]

theorem bootRun_reachable :
    Reachable bss 0x01000000 0x02000000 bootRun :=
  Relation.ReflTransGen.single (PmmStep.alloc ⟨_, []⟩ 0)

theorem reachable_partition_boot :
    (pmmStats bootRun.sys).usedPages =
      bootRun.sys.managedPages -
        ((List.range (maxOrder + 1)).map fun order =>
          (bootRun.sys.freeArea order).nrFree * 2 ^ order).sum :=
  (reachable_partition bss (by norm_num) (by norm_num) (by norm_num)
    bootRun_reachable).2.2.2.2.2

/-! ## Coalescing and exactness -/

namespace Invariant

variable {sys : BuddySystem} {live : List PageBlock} {pool : Set Nat}

/-- The dyadic blocks of the free blocks contain no two buddies. -/
theorem no_dyadic_buddies
    (invariant : Invariant sys live pool) :
    ∀ member ∈ sys.freeBlocks.map PageBlock.toDyadic,
      member.order < maxOrder →
      member.buddy ∉ sys.freeBlocks.map PageBlock.toDyadic := by
  intro member isFree below buddyFree
  obtain ⟨block, blockFree, rfl⟩ := List.mem_map.mp isFree
  obtain ⟨other, otherFree, isBuddy⟩ := List.mem_map.mp buddyFree
  obtain ⟨addr, order⟩ := block
  obtain ⟨otherAddr, otherOrder⟩ := other
  obtain rfl : otherOrder = order :=
    congrArg DyadicBlock.order isBuddy
  have blockAligned : (PageBlock.mk addr otherOrder).Aligned :=
    invariant.aligned _ (List.mem_append_right _ blockFree)
  have otherAligned : (PageBlock.mk otherAddr otherOrder).Aligned :=
    invariant.aligned _ (List.mem_append_right _ otherFree)
  have listed := (BuddySystem.mem_freeBlocks.mp blockFree).2
  have otherListed := (BuddySystem.mem_freeBlocks.mp otherFree).2
  refine invariant.noBuddies otherOrder below addr listed ?_
  -- both addresses are determined by the dyadic index
  obtain ⟨index, indexShape⟩ :
      ∃ index, (PageBlock.mk addr otherOrder).toDyadic = ⟨otherOrder, index⟩ :=
    ⟨_, rfl⟩
  have addrShape := PageBlock.addr_eq_of_aligned blockAligned
  have otherShape := PageBlock.addr_eq_of_aligned otherAligned
  rw [isBuddy] at otherShape
  rw [indexShape] at addrShape otherShape
  simp only [DyadicBlock.start, DyadicBlock.buddy] at addrShape otherShape
  have flipped : splitBuddyAddr addr otherOrder = otherAddr := by
    have page : pageSize = 2 ^ 12 := by norm_num [pageSize]
    rw [otherShape, addrShape, splitBuddyAddr, page, Nat.mul_assoc,
      Nat.mul_assoc, ← pow_add, ← Nat.shiftLeft_eq, ← Nat.shiftLeft_eq,
      ← Nat.shiftLeft_xor_distrib]
  rw [flipped]
  exact otherListed

/--
The allocator fails exactly when no aligned run of the requested length is
free.
-/
theorem pmmAllocPages_eq_zero_iff
    (invariant : Invariant sys live pool)
    {order : Nat}
    (bound : order ≤ maxOrder) :
    (pmmAllocPages sys order).1 = 0 ↔
      ¬ ∃ run : PageBlock, run.order = order ∧ run.Aligned ∧
        run.pages ⊆ sys.freePages := by
  rcases invariant.pmmAllocPages_cases order with
    ⟨failed, allEmpty⟩ | ⟨found, _, ⟨other, above, otherBound, nonempty⟩, _⟩
  · refine iff_of_true (by rw [failed]) ?_
    rintro ⟨run, rfl, runAligned, runFree⟩
    rw [PageBlock.pages_eq_extent runAligned] at runFree
    obtain ⟨member, isFree, larger, _⟩ :=
      DyadicBlock.exists_member_of_covered
        invariant.no_dyadic_buddies bound (by
          intro page inside
          obtain ⟨block, blockFree, inBlock⟩ := runFree inside
          refine ⟨block.toDyadic, List.mem_map_of_mem blockFree, ?_⟩
          rwa [← PageBlock.pages_eq_extent
            (invariant.aligned _ (List.mem_append_right _ blockFree))])
    obtain ⟨block, blockFree, rfl⟩ := List.mem_map.mp isFree
    obtain ⟨blockBound, listed⟩ := BuddySystem.mem_freeBlocks.mp blockFree
    rw [allEmpty block.order larger blockBound] at listed
    simp at listed
  · refine iff_of_false found (not_not.mpr ?_)
    obtain ⟨addr, listed⟩ := List.exists_mem_of_ne_nil _ nonempty
    have isFree : ⟨addr, other⟩ ∈ sys.freeBlocks :=
      BuddySystem.mem_freeBlocks.mpr ⟨otherBound, listed⟩
    have smaller : 2 ^ order ∣ 2 ^ other := Nat.pow_dvd_pow 2 above
    have otherAligned : 2 ^ other * pageSize ∣ addr :=
      invariant.aligned ⟨addr, other⟩ (List.mem_append_right _ isFree)
    refine ⟨⟨addr, order⟩, rfl,
      (Nat.mul_dvd_mul_right smaller _).trans otherAligned, ?_⟩
    rintro page ⟨first, last⟩
    exact ⟨⟨addr, other⟩, isFree, first, Nat.lt_of_lt_of_le last
      (Nat.add_le_add_left (Nat.pow_le_pow_right (by decide) above) _)⟩

end Invariant

/--
In every state of a run no free list holds a block together with its buddy;
`pmm_alloc_pages` fails exactly when no aligned run of free pages of the
requested length exists, and a failing call changes nothing.
-/
theorem reachable_coalesced
    (prior : BuddySystem)
    {memoryStart memoryEnd : Nat}
    (aligned : 2 ^ 23 ∣ memoryStart)
    (ordered : memoryStart < memoryEnd)
    (inRange : memoryEnd < 2 ^ 32)
    {run : PmmRun}
    (reached : Reachable prior memoryStart memoryEnd run) :
    (∀ order < maxOrder, ∀ addr ∈ (run.sys.freeArea order).freeList,
        splitBuddyAddr addr order ∉ (run.sys.freeArea order).freeList) ∧
      ∀ order ≤ maxOrder,
        ((pmmAllocPages run.sys order).1 = 0 ↔
          ¬ ∃ free : PageBlock, free.order = order ∧
            2 ^ order * pageSize ∣ free.addr ∧
            free.pages ⊆ run.sys.freePages) ∧
        ((pmmAllocPages run.sys order).1 = 0 →
          (pmmAllocPages run.sys order).2 = run.sys) := by
  have invariant := reached.invariant aligned ordered inRange
  refine ⟨invariant.noBuddies, fun order bound => ⟨?_, ?_⟩⟩
  · rw [invariant.pmmAllocPages_eq_zero_iff bound]
    refine not_congr (exists_congr fun free => ?_)
    constructor
    · rintro ⟨rfl, freeAligned, inside⟩
      exact ⟨rfl, freeAligned, inside⟩
    · rintro ⟨rfl, freeAligned, inside⟩
      exact ⟨rfl, freeAligned, inside⟩
  · intro failed
    rcases invariant.pmmAllocPages_cases order with
      ⟨unchanged, _⟩ | ⟨found, _⟩
    · rw [unchanged]
    · exact absurd failed found

theorem reachable_coalesced_boot :
    (pmmAllocPages bootRun.sys 3).1 = 0 ↔
      ¬ ∃ free : PageBlock, free.order = 3 ∧
        2 ^ 3 * pageSize ∣ free.addr ∧ free.pages ⊆ bootRun.sys.freePages :=
  ((reachable_coalesced bss (by norm_num) (by norm_num) (by norm_num)
    bootRun_reachable).2 3 (by decide)).1

end MatrixOS.Pmm
