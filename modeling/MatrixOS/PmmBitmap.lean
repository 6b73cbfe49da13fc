import MatrixOS.PmmRegion

namespace MatrixOS.Pmm

/-!
# The bitmap

The bits of the pages that clients hold are set.  The converse does not hold:
`pmm_init` sets the bits of free pages, and splits set one bit of each block
they put on a list.
-/

/-! ## Bits -/

/-- `bitmap[index / 8] & (1 << (index % 8))` is not zero. -/
def IsMarked (bitmap : Nat → UInt8) (index : Nat) : Prop :=
  bitmap (index / 8) &&& (1 <<< UInt8.ofNat (index % 8)) ≠ 0

section Bits

variable {bitmap : Nat → UInt8} {index other first count : Nat}

/-- A mask has one bit. -/
theorem mask_eq : ∀ bit < 8, ((1 : UInt8) <<< UInt8.ofNat bit).toNat = 2 ^ bit := by
  decide

theorem testBit_not_mask : ∀ bit < 8, ∀ other < 8,
    (~~~((1 : UInt8) <<< UInt8.ofNat bit)).toNat.testBit other =
      !decide (bit = other) := by
  decide

theorem isMarked_iff_testBit :
    IsMarked bitmap index ↔
      (bitmap (index / 8)).toNat.testBit (index % 8) = true := by
  rw [IsMarked, Ne, ← UInt8.toNat_inj, UInt8.toNat_and,
    mask_eq _ (Nat.mod_lt _ (by decide)), Nat.and_two_pow]
  cases (bitmap (index / 8)).toNat.testBit (index % 8) <;> simp

/-- Setting a bit sets this one and keeps the others. -/
theorem isMarked_setBit :
    IsMarked (setBit bitmap index) other ↔
      other = index ∨ IsMarked bitmap other := by
  have mask := mask_eq (index % 8) (Nat.mod_lt _ (by decide))
  rw [isMarked_iff_testBit, isMarked_iff_testBit, setBit]
  by_cases sameByte : other / 8 = index / 8
  · rw [sameByte, Function.update_self, UInt8.toNat_or, Nat.testBit_or, mask,
      Nat.testBit_two_pow, Bool.or_eq_true, decide_eq_true_eq]
    have same : index % 8 = other % 8 ↔ other = index := by omega
    rw [same, or_comm]
  · rw [Function.update_of_ne sameByte]
    have different : other ≠ index := fun same => sameByte (by rw [same])
    simp [different]

/-- Clearing a bit clears this one and keeps the others. -/
theorem isMarked_clearBit :
    IsMarked (clearBit bitmap index) other ↔
      other ≠ index ∧ IsMarked bitmap other := by
  have mask := testBit_not_mask (index % 8) (Nat.mod_lt _ (by decide))
    (other % 8) (Nat.mod_lt _ (by decide))
  rw [isMarked_iff_testBit, isMarked_iff_testBit, clearBit]
  by_cases sameByte : other / 8 = index / 8
  · rw [sameByte, Function.update_self, UInt8.toNat_and, Nat.testBit_and, mask,
      Bool.and_eq_true, Bool.not_eq_true', decide_eq_false_iff_not]
    have same : index % 8 = other % 8 ↔ other = index := by omega
    rw [same, and_comm]
  · rw [Function.update_of_ne sameByte]
    have different : other ≠ index := fun same => sameByte (by rw [same])
    simp [different]

theorem isMarked_setBits :
    IsMarked (setBits bitmap first count) other ↔
      (first ≤ other ∧ other < first + count) ∨ IsMarked bitmap other := by
  unfold setBits
  induction count with
  | zero =>
      simp
  | succ count inductionHypothesis =>
      rw [List.range_succ, List.foldl_append, List.foldl_cons,
        List.foldl_nil, isMarked_setBit, inductionHypothesis, ← or_assoc]
      refine or_congr_left ?_
      omega

theorem isMarked_clearBits :
    IsMarked (clearBits bitmap first count) other ↔
      ¬ (first ≤ other ∧ other < first + count) ∧ IsMarked bitmap other := by
  unfold clearBits
  induction count with
  | zero =>
      simp
  | succ count inductionHypothesis =>
      rw [List.range_succ, List.foldl_append, List.foldl_cons,
        List.foldl_nil, isMarked_clearBit, inductionHypothesis, ← and_assoc]
      refine and_congr_left' ?_
      omega

end Bits

/-! ## What the calls do to the bitmap -/

/-- Splits only set bits. -/
theorem splitLoop_marked
    {pageAddr order index : Nat}
    (count : Nat)
    {start : BuddySystem}
    (marked : IsMarked start.bitmap index) :
    IsMarked (splitLoop pageAddr order count start).bitmap index := by
  induction count generalizing start with
  | zero =>
      exact marked
  | succ count inductionHypothesis =>
      rw [splitLoop]
      split
      · exact inductionHypothesis (isMarked_setBit.mpr (Or.inr marked))
      · exact marked

/-- An allocation keeps the bits that are set and sets those of its block. -/
theorem pmmAllocPages_marked (sys : BuddySystem) (order index : Nat) :
    (IsMarked sys.bitmap index →
      IsMarked (pmmAllocPages sys order).2.bitmap index) ∧
    ((pmmAllocPages sys order).1 ≠ 0 →
      sub32 (pmmAllocPages sys order).1 sys.baseAddr / pageSize ≤ index →
      index < sub32 (pmmAllocPages sys order).1 sys.baseAddr / pageSize +
        2 ^ order →
      IsMarked (pmmAllocPages sys order).2.bitmap index) := by
  unfold pmmAllocPages
  split
  · exact ⟨id, fun nonzero => absurd rfl nonzero⟩
  · simp only
    split
    · exact ⟨id, fun nonzero => absurd rfl nonzero⟩
    · split
      · exact ⟨id, fun nonzero => absurd rfl nonzero⟩
      · simp only [isMarked_setBits, splitLoop_baseAddr, Nat.one_shiftLeft]
        exact ⟨fun marked => Or.inr (splitLoop_marked _ marked),
          fun _ lower upper => Or.inl ⟨lower, upper⟩⟩

theorem mergeLoop_bitmap
    (fuel : Nat)
    (start : BuddySystem)
    (order pageIdx addr : Nat) :
    (mergeLoop fuel start order pageIdx addr).bitmap = start.bitmap := by
  induction fuel generalizing start order pageIdx addr with
  | zero =>
      rfl
  | succ fuel inductionHypothesis =>
      rw [mergeLoop]
      split
      · simp only
        split
        · split
          · exact inductionHypothesis ..
          · exact inductionHypothesis ..
        · rfl
      · rfl

/-- A release clears the bits of its block only, whatever it merges with. -/
theorem pmmFreePages_marked
    {sys : BuddySystem} {addr order index : Nat}
    (marked : IsMarked sys.bitmap index)
    (outside :
      ¬ (sub32 addr sys.baseAddr / pageSize ≤ index ∧
        index < sub32 addr sys.baseAddr / pageSize + 2 ^ order)) :
    IsMarked (pmmFreePages sys addr order).bitmap index := by
  unfold pmmFreePages
  split
  · exact marked
  · simp only [mergeLoop_bitmap, isMarked_clearBits, Nat.one_shiftLeft]
    exact ⟨outside, marked⟩

/-! ## Soundness -/

/-- The index of a page in the bitmap. -/
def pageIdx (sys : BuddySystem) (page : Nat) : Nat :=
  sub32 (page * pageSize) sys.baseAddr / pageSize

/-- The bits of all pages of some blocks are set. -/
def Marks (sys : BuddySystem) (blocks : List PageBlock) : Prop :=
  ∀ block ∈ blocks, ∀ page ∈ block.pages, IsMarked sys.bitmap (pageIdx sys page)

section Soundness

variable {sys : BuddySystem} {live : List PageBlock} {pool : Set Nat}

namespace Invariant

theorem pageIdx_eq
    (invariant : Invariant sys live pool)
    {page : Nat}
    (inPool : page ∈ pool) :
    sys.baseAddr / pageSize ≤ page ∧
      pageIdx sys page = page - sys.baseAddr / pageSize := by
  have range := invariant.poolRange page inPool
  obtain ⟨basePages, baseShape⟩ :=
    (Nat.dvd_mul_left pageSize _).trans invariant.baseAligned
  simp only [pageSize] at range baseShape
  have ordered : sys.baseAddr ≤ page * 4096 := by omega
  refine ⟨Nat.le_of_lt range.1, ?_⟩
  rw [pageIdx, pageSize, sub32_of_le (by omega) ordered]
  omega

/-- The indices of the pages of a block follow the index of its address. -/
theorem mem_pages_iff
    (invariant : Invariant sys live pool)
    {block : PageBlock} {page : Nat}
    (member : block ∈ live ++ sys.freeBlocks)
    (inPool : page ∈ pool) :
    page ∈ block.pages ↔
      sub32 block.addr sys.baseAddr / pageSize ≤ pageIdx sys page ∧
        pageIdx sys page <
          sub32 block.addr sys.baseAddr / pageSize + 2 ^ block.order := by
  have firstInPool : block.addr / pageSize ∈ pool :=
    invariant.tiles.extent_subset member PageBlock.first_mem_pages
  have first := invariant.pageIdx_eq firstInPool
  have index := invariant.pageIdx_eq inPool
  have blockIdx : sub32 block.addr sys.baseAddr / pageSize =
      pageIdx sys (block.addr / pageSize) := by
    rw [pageIdx, Nat.div_mul_cancel
      (PageBlock.page_aligned (invariant.aligned block member))]
  rw [blockIdx, first.2, index.2, PageBlock.pages, Set.mem_ofPred_eq]
  omega

end Invariant

/-- One call keeps the bits of the outstanding blocks set. -/
theorem PmmStep.marks
    {run next : PmmRun}
    (step : PmmStep run next)
    (invariant : Invariant run.sys run.live pool)
    (marks : Marks run.sys run.live) :
    Marks next.sys next.live := by
  have kept := step.invariant invariant
  cases step with
  | alloc order =>
      have allocated := pmmAllocPages_marked run.sys order
      have base := pmmAllocPages_baseAddr run.sys order
      intro block held page inBlock
      have inPool := kept.tiles.extent_subset
        (List.mem_append_left _ held) inBlock
      have inside :=
        (kept.mem_pages_iff (List.mem_append_left _ held) inPool).mp inBlock
      simp only [pageIdx, base] at held inside ⊢
      split at held
      · exact (allocated _).1 (marks block held page inBlock)
      · rename_i found
        rcases List.mem_cons.mp held with rfl | old
        · exact (allocated _).2 found inside.1 inside.2
        · exact (allocated _).1 (marks block old page inBlock)
  | free released held =>
      intro block stillHeld page inBlock
      have parted := invariant.perm (List.perm_cons_erase held)
      have inPool : page ∈ pool := parted.tiles.extent_subset
        (List.mem_append_left _ (List.mem_cons_of_mem _ stillHeld)) inBlock
      have apart : page ∉ released.pages := by
        have disjoint := (List.pairwise_cons.mp parted.tiles.disjoint).1 block
          (List.mem_append_left _ stillHeld)
        exact fun inReleased => Set.disjoint_left.mp disjoint inReleased inBlock
      have marked := marks block (List.mem_of_mem_erase stillHeld) page inBlock
      simp only [pageIdx, pmmFreePages_baseAddr] at marked ⊢
      refine pmmFreePages_marked marked fun inside => apart ?_
      exact (invariant.mem_pages_iff (List.mem_append_left _ held) inPool).mpr
        inside

end Soundness

/--
In every state of a run the bits of all pages of the outstanding blocks are
set, so a page whose bit is clear is in none of them.
-/
theorem bitmap_sound
    (prior : BuddySystem)
    {memoryStart memoryEnd : Nat}
    (aligned : 2 ^ 23 ∣ memoryStart)
    (ordered : memoryStart < memoryEnd)
    (inRange : memoryEnd < 2 ^ 32)
    {run : PmmRun}
    (reached : Reachable prior memoryStart memoryEnd run) :
    (∀ block ∈ run.live, ∀ page ∈ block.pages,
      IsMarked run.sys.bitmap (pageIdx run.sys page)) ∧
    ∀ page, ¬ IsMarked run.sys.bitmap (pageIdx run.sys page) →
      ∀ block ∈ run.live, page ∉ block.pages := by
  suffices marks : Marks run.sys run.live from
    ⟨marks, fun page clear block held inBlock =>
      clear (marks block held page inBlock)⟩
  induction reached with
  | refl =>
      intro block held
      exact absurd held List.not_mem_nil
  | tail earlier step inductionHypothesis =>
      exact step.marks (Reachable.invariant earlier aligned ordered inRange)
        inductionHypothesis

theorem bitmap_sound_boot :
    (∀ block ∈ bootRun.live, ∀ page ∈ block.pages,
      IsMarked bootRun.sys.bitmap (pageIdx bootRun.sys page)) ∧
    ∀ page, ¬ IsMarked bootRun.sys.bitmap (pageIdx bootRun.sys page) →
      ∀ block ∈ bootRun.live, page ∉ block.pages :=
  bitmap_sound bss (by norm_num) (by norm_num) (by norm_num) bootRun_reachable

/-- The bytes of the bitmap are in front of all pages that are handed out. -/
theorem bitmap_before_pages
    {prior : BuddySystem} {memoryStart memoryEnd : Nat} {run : PmmRun}
    (aligned : 2 ^ 23 ∣ memoryStart)
    (ordered : memoryStart < memoryEnd)
    (inRange : memoryEnd < 2 ^ 32)
    (reached : Reachable prior memoryStart memoryEnd run)
    {page other : Nat}
    (isPage : page ∈ (pmmInit prior memoryStart memoryEnd).freePages)
    (isOther : other ∈ (pmmInit prior memoryStart memoryEnd).freePages) :
    run.sys.baseAddr + pageIdx run.sys page / 8 < other * pageSize := by
  have invariant := reached.invariant aligned ordered inRange
  have index := (invariant.pageIdx_eq isPage).2
  have range := (invariant.poolRange page isPage).2
  obtain ⟨block, free, inBlock⟩ := isOther
  obtain ⟨largest, position, bound, addrIs⟩ :=
    (mem_pmmInit prior (pageSize_dvd_maxBlock.trans aligned) ordered inRange
      block).mp free
  have lower := (mem_pages_maxBlock.mp (show
    other ∈ (PageBlock.mk block.addr maxOrder).pages from largest ▸ inBlock)).1
  have noWrap : firstBlock memoryStart memoryEnd + position * 2 ^ 23 < 2 ^ 32 ∧
      memoryStart + 2 ^ 23 ≤ firstBlock memoryStart memoryEnd := by
    simp only [firstBlock, bitmapSize, regionPages, pageSize] at bound ⊢
    omega
  rw [addrIs, wrap32_of_lt noWrap.1] at lower
  rw [index, reached.baseAddr]
  simp only [pageSize] at lower ⊢
  omega

end MatrixOS.Pmm
