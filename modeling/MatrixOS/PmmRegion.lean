import MatrixOS.PmmRuns

namespace MatrixOS.Pmm

/-!
# Where `pmm_init` puts its blocks

`pmm_init` counts pages from `memory_start`, but its cursor starts behind the
bitmap, at the next multiple of the largest block.  This module computes the
blocks it adds and decides for which regions they stay inside the region.
-/

/-! ## The blocks added by the loop -/

section InitLoop

variable {fuel remainingPages currentAddr : Nat} {sys : BuddySystem}

theorem pmmInitLoop_of_lt
    (few : remainingPages < 2 ^ 11) :
    pmmInitLoop fuel sys remainingPages currentAddr = sys := by
  have pages : maxOrderPages = 2 ^ 11 := Nat.one_shiftLeft maxOrder
  cases fuel with
  | zero =>
      rfl
  | succ fuel =>
      have done : ¬ remainingPages ≥ maxOrderPages := by omega
      simp only [pmmInitLoop, done, ↓reduceIte]

theorem pmmInitLoop_of_le
    (enough : 2 ^ 11 ≤ remainingPages) :
    pmmInitLoop (fuel + 1) sys remainingPages currentAddr =
      pmmInitLoop fuel
        { sys.addFree maxOrder currentAddr with
          bitmap := setBits sys.bitmap
            (sub32 currentAddr sys.baseAddr / pageSize) (2 ^ 11) }
        (remainingPages - 2 ^ 11) (wrap32 (currentAddr + 2 ^ 23)) := by
  have pages : maxOrderPages = 2 ^ 11 := Nat.one_shiftLeft maxOrder
  have another : remainingPages ≥ maxOrderPages := by omega
  rw [pmmInitLoop, if_pos another, maxBlockBytes, pages]
  rfl

theorem mem_freeBlocks_initStep
    (bitmap : Nat → UInt8) (block : PageBlock) :
    block ∈ BuddySystem.freeBlocks
        { sys.addFree maxOrder currentAddr with bitmap := bitmap } ↔
      block = ⟨currentAddr, maxOrder⟩ ∨ block ∈ sys.freeBlocks :=
  (BuddySystem.freeBlocks_addFree (Nat.le_refl _)).mem_iff.trans
    List.mem_cons

end InitLoop

/--
The loop adds consecutive blocks, as many as fit into the page count; their
addresses wrap at the end of the address space.
-/
theorem mem_pmmInitLoop
    (count : Nat)
    {fuel remainingPages currentAddr : Nat}
    {sys : BuddySystem}
    (counted : remainingPages / 2 ^ 11 = count)
    (enough : count ≤ fuel)
    (inRange : currentAddr < 2 ^ 32)
    (block : PageBlock) :
    block ∈ (pmmInitLoop fuel sys remainingPages currentAddr).freeBlocks ↔
      block ∈ sys.freeBlocks ∨
        block.order = maxOrder ∧
          ∃ position < count,
            block.addr = wrap32 (currentAddr + position * 2 ^ 23) := by
  induction count generalizing fuel remainingPages currentAddr sys with
  | zero =>
      rw [pmmInitLoop_of_lt (by omega)]
      simp
  | succ count inductionHypothesis =>
      obtain ⟨fuel, rfl⟩ : ∃ less, fuel = less + 1 := ⟨fuel - 1, by omega⟩
      rw [pmmInitLoop_of_le (by omega),
        inductionHypothesis (by omega) (by omega) (wrap32_lt _),
        mem_freeBlocks_initStep]
      have first : wrap32 (currentAddr + 0 * 2 ^ 23) = currentAddr := by
        rw [Nat.zero_mul, Nat.add_zero, wrap32_of_lt inRange]
      have later : ∀ position,
          wrap32 (wrap32 (currentAddr + 2 ^ 23) + position * 2 ^ 23) =
            wrap32 (currentAddr + (position + 1) * 2 ^ 23) := by
        intro position
        simp only [wrap32]
        omega
      obtain ⟨addr, order⟩ := block
      simp only [PageBlock.mk.injEq, later]
      constructor
      · rintro ((⟨rfl, rfl⟩ | old) | ⟨rfl, position, bound, rfl⟩)
        · exact Or.inr ⟨rfl, 0, by omega, first.symm⟩
        · exact Or.inl old
        · exact Or.inr ⟨rfl, position + 1, by omega, rfl⟩
      · rintro (old | ⟨rfl, position, bound, rfl⟩)
        · exact Or.inl (Or.inr old)
        · cases position with
          | zero =>
              exact Or.inl (Or.inl ⟨first, rfl⟩)
          | succ position =>
              exact Or.inr ⟨rfl, position, by omega, rfl⟩

/-- Setting bits changes no byte outside the range of the indexes. -/
theorem setBits_of_le
    (bitmap : Nat → UInt8) (first count byte : Nat)
    (outside : first + count ≤ byte * 8) :
    setBits bitmap first count byte = bitmap byte := by
  unfold setBits
  induction count with
  | zero =>
      rfl
  | succ count inductionHypothesis =>
      rw [List.range_succ, List.foldl_append, List.foldl_cons,
        List.foldl_nil, setBit, Function.update_of_ne (by omega)]
      exact inductionHypothesis (by omega)

/-- The loop changes no bitmap byte behind the last page it hands over. -/
theorem pmmInitLoop_bitmap
    (count : Nat)
    {fuel remainingPages currentAddr byte : Nat}
    {sys : BuddySystem}
    (counted : remainingPages / 2 ^ 11 = count)
    (fits : currentAddr + count * 2 ^ 23 < 2 ^ 32)
    (above : sys.baseAddr ≤ currentAddr)
    (outside :
      (currentAddr - sys.baseAddr) / pageSize + count * 2 ^ 11 ≤ byte * 8) :
    (pmmInitLoop fuel sys remainingPages currentAddr).bitmap byte =
      sys.bitmap byte := by
  induction count generalizing fuel remainingPages currentAddr sys with
  | zero =>
      rw [pmmInitLoop_of_lt (by omega)]
  | succ count inductionHypothesis =>
      cases fuel with
      | zero =>
          rfl
      | succ fuel =>
          rw [pmmInitLoop_of_le (by omega), sub32_of_le (by omega) above,
            wrap32_of_lt (by omega)]
          have behind :
              (currentAddr + 2 ^ 23 - sys.baseAddr) / pageSize +
                count * 2 ^ 11 ≤ byte * 8 := by
            simp only [pageSize] at outside ⊢
            omega
          have later :
              sys.baseAddr ≤ currentAddr + 2 ^ 23 := by
            omega
          have unchanged :
              setBits sys.bitmap ((currentAddr - sys.baseAddr) / pageSize)
                (2 ^ 11) byte = sys.bitmap byte :=
            setBits_of_le _ _ _ _ (by omega)
          generalize setBits sys.bitmap _ (2 ^ 11) = marked at unchanged ⊢
          rw [← unchanged]
          exact inductionHypothesis (by omega) (by omega) later behind

/-! ## Runs that stay below a limit -/

/-- A page-aligned block that ends at or below `limit`. -/
def PageBlock.Below (limit : Nat) (block : PageBlock) : Prop :=
  pageSize ∣ block.addr ∧
    block.addr + 2 ^ block.order * pageSize ≤ limit

section Below

variable {limit addr order : Nat} {sys : BuddySystem}

theorem below_addFree
    (bound : order ≤ maxOrder)
    (new : PageBlock.Below limit ⟨addr, order⟩)
    (old : ∀ block ∈ sys.freeBlocks, block.Below limit) :
    ∀ block ∈ (sys.addFree order addr).freeBlocks, block.Below limit := by
  intro block member
  rw [(BuddySystem.freeBlocks_addFree bound).mem_iff] at member
  rcases List.mem_cons.mp member with rfl | member
  · exact new
  · exact old block member

theorem below_delFree
    (old : ∀ block ∈ sys.freeBlocks, block.Below limit) :
    ∀ block ∈ (sys.delFree order addr).freeBlocks, block.Below limit := by
  intro block member
  obtain ⟨bound, listed⟩ := BuddySystem.mem_freeBlocks.mp member
  exact old block (BuddySystem.mem_freeBlocks.mpr
    ⟨bound, BuddySystem.mem_of_mem_delFree_freeList listed⟩)

theorem length_succ (order : Nat) :
    2 ^ (order + 1) * pageSize =
      2 ^ order * pageSize + 2 ^ order * pageSize := by
  ring

theorem splitBuddyAddr_cases (addr order : Nat) :
    splitBuddyAddr addr order = addr + 2 ^ order * pageSize ∨
      splitBuddyAddr addr order + 2 ^ order * pageSize = addr := by
  have weight : 1 <<< (order + 12) = 2 ^ order * pageSize := by
    rw [Nat.one_shiftLeft, pow_add]
    norm_num [pageSize]
  have flipped := DyadicBlock.xor_two_pow_cases addr (order + 12)
  rwa [← Nat.one_shiftLeft, weight, ← weight, ← splitBuddyAddr, weight]
    at flipped

/-- Splitting never reaches past the block it started from. -/
theorem splitLoop_below
    (currentOrder : Nat)
    (bound : currentOrder ≤ maxOrder)
    (hand : PageBlock.Below limit ⟨addr, currentOrder⟩)
    (old : ∀ block ∈ sys.freeBlocks, block.Below limit) :
    ∀ block ∈ (splitLoop addr order currentOrder sys).freeBlocks,
      block.Below limit := by
  induction currentOrder generalizing sys with
  | zero =>
      exact old
  | succ currentOrder inductionHypothesis =>
      by_cases larger : currentOrder + 1 > order
      · simp only [splitLoop, larger, ↓reduceIte]
        obtain ⟨aligned, ends⟩ := hand
        simp only [length_succ] at aligned ends
        have length : pageSize ∣ 2 ^ currentOrder * pageSize :=
          Nat.dvd_mul_left _ _
        have half : PageBlock.Below limit ⟨addr, currentOrder⟩ :=
          ⟨aligned, by simp only; omega⟩
        have buddy : PageBlock.Below limit
            ⟨splitBuddyAddr addr currentOrder, currentOrder⟩ := by
          rcases splitBuddyAddr_cases addr currentOrder with up | down
          · rw [up]
            exact ⟨Nat.dvd_add aligned length, by simp only; omega⟩
          · refine ⟨?_, by simp only; omega⟩
            rw [← down] at aligned
            exact (Nat.dvd_add_left length).mp aligned
        exact inductionHypothesis (by omega) half
          (below_addFree (by omega) buddy old)
      · simpa only [splitLoop, larger, ↓reduceIte] using old

/-- Merging never reaches past the two blocks it joins. -/
theorem mergeLoop_below
    (fuel order pageIdx addr : Nat)
    (baseAligned : pageSize ∣ sys.baseAddr)
    (inRange : limit < 2 ^ 32)
    (enough : order + fuel = maxOrder)
    (above : sys.baseAddr ≤ addr)
    (index : addr = sys.baseAddr + pageIdx * pageSize)
    (hand : PageBlock.Below limit ⟨addr, order⟩)
    (old : ∀ block ∈ sys.freeBlocks, block.Below limit) :
    ∀ block ∈ (mergeLoop fuel sys order pageIdx addr).freeBlocks,
      block.Below limit := by
  induction fuel generalizing sys order pageIdx addr with
  | zero =>
      exact below_addFree (by omega) hand old
  | succ fuel inductionHypothesis =>
      have below : order < maxOrder := by omega
      have positive : 0 < 2 ^ order * pageSize :=
        Nat.mul_pos (Nat.two_pow_pos _) (by decide)
      simp only [mergeLoop, below, ↓reduceIte]
      by_cases free :
          mergeBuddyAddr sys pageIdx order ∈ (sys.freeArea order).freeList
      · simp only [free, ↓reduceIte]
        obtain ⟨aligned, ends⟩ := hand
        simp only at aligned ends
        obtain ⟨_, buddyEnds⟩ := old ⟨mergeBuddyAddr sys pageIdx order, order⟩
          (BuddySystem.mem_freeBlocks.mpr ⟨Nat.le_of_lt below, free⟩)
        simp only at buddyEnds
        rcases DyadicBlock.xor_two_pow_cases pageIdx order with up | down
        · have buddyAddr :
              mergeBuddyAddr sys pageIdx order =
                addr + 2 ^ order * pageSize := by
            refine (mergeBuddyAddr_of_sum ?_ (by omega)).1
            rw [findBuddyPfn, Nat.one_shiftLeft, up, Nat.add_mul,
              ← Nat.add_assoc, ← index]
          have notAbove : ¬ addr > mergeBuddyAddr sys pageIdx order := by
            omega
          simp only [notAbove, ↓reduceIte]
          refine inductionHypothesis (order + 1) pageIdx addr baseAligned
            (by omega) above index ⟨aligned, ?_⟩ (below_delFree old)
          simp only [length_succ]
          omega
        · have buddyAddr :
              mergeBuddyAddr sys pageIdx order + 2 ^ order * pageSize =
                addr ∧
              mergeBuddyAddr sys pageIdx order =
                sys.baseAddr + findBuddyPfn pageIdx order * pageSize := by
            have sum :
                sys.baseAddr + findBuddyPfn pageIdx order * pageSize +
                  2 ^ order * pageSize = addr := by
              rw [findBuddyPfn, Nat.one_shiftLeft, Nat.add_assoc,
                ← Nat.add_mul, down, ← index]
            rw [(mergeBuddyAddr_of_sum rfl (by omega)).1]
            exact ⟨sum, rfl⟩
          have isAbove : addr > mergeBuddyAddr sys pageIdx order := by
            omega
          simp only [isAbove, ↓reduceIte]
          refine inductionHypothesis (order + 1) (findBuddyPfn pageIdx order)
            (mergeBuddyAddr sys pageIdx order) baseAligned (by omega)
            (by simp only [BuddySystem.delFree]; omega)
            buddyAddr.2 ⟨?_, ?_⟩ (below_delFree old)
          · rw [buddyAddr.2]
            exact Nat.dvd_add baseAligned (Nat.dvd_mul_left _ _)
          · simp only [length_succ]
            omega
      · simp only [free, ↓reduceIte]
        exact below_addFree (Nat.le_of_lt below) hand old

/-- Splits leave the base address alone. -/
theorem splitLoop_baseAddr
    {pageAddr order : Nat}
    (count : Nat)
    (start : BuddySystem) :
    (splitLoop pageAddr order count start).baseAddr = start.baseAddr := by
  induction count generalizing start with
  | zero =>
      rfl
  | succ count inductionHypothesis =>
      rw [splitLoop]
      split
      · exact inductionHypothesis _
      · rfl

/-- What an allocation hands out and leaves behind ends below the limit. -/
theorem pmmAllocPages_below
    (order : Nat)
    (old : ∀ block ∈ sys.freeBlocks, block.Below limit) :
    (∀ block ∈ (pmmAllocPages sys order).2.freeBlocks, block.Below limit) ∧
      (pmmAllocPages sys order).2.baseAddr = sys.baseAddr ∧
      ((pmmAllocPages sys order).1 ≠ 0 →
        PageBlock.Below limit ⟨(pmmAllocPages sys order).1, order⟩) := by
  unfold pmmAllocPages
  by_cases tooLarge : order > maxOrder
  · simp only [tooLarge, ↓reduceIte]
    exact ⟨old, trivial, fun nonzero => absurd rfl nonzero⟩
  · obtain ⟨lower, _, _, _⟩ := Invariant.findFreeOrder_spec sys
      (maxOrder + 1 - order) order (by omega)
    simp only [tooLarge, ↓reduceIte]
    generalize findFreeOrder sys (maxOrder + 1 - order) order = chosen
      at lower ⊢
    by_cases exhausted : chosen > maxOrder
    · simp only [exhausted, ↓reduceIte]
      exact ⟨old, trivial, fun nonzero => absurd rfl nonzero⟩
    · simp only [exhausted, ↓reduceIte]
      cases shape : (sys.freeArea chosen).freeList with
      | nil =>
          exact ⟨old, rfl, fun nonzero => absurd rfl nonzero⟩
      | cons pageAddr rest =>
          have bound : chosen ≤ maxOrder := by omega
          have hand : PageBlock.Below limit ⟨pageAddr, chosen⟩ :=
            old _ (BuddySystem.mem_freeBlocks.mpr ⟨bound, by simp [shape]⟩)
          have smaller :
              2 ^ order * pageSize ≤ 2 ^ chosen * pageSize :=
            Nat.mul_le_mul_right _ (Nat.pow_le_pow_right (by decide) lower)
          have ends := hand.2
          simp only at ends
          exact ⟨splitLoop_below chosen bound hand (below_delFree old),
            splitLoop_baseAddr chosen _,
            fun _ => ⟨hand.1, by simp only; omega⟩⟩

end Below

/-- A release leaves blocks that end below the limit. -/
theorem pmmFreePages_below
    {limit : Nat} {sys : BuddySystem} {block : PageBlock}
    (baseAligned : pageSize ∣ sys.baseAddr)
    (inRange : limit < 2 ^ 32)
    (held : block.Below limit)
    (old : ∀ block ∈ sys.freeBlocks, block.Below limit) :
    ∀ other ∈ (pmmFreePages sys block.addr block.order).freeBlocks,
      other.Below limit := by
  unfold pmmFreePages
  by_cases rejected : block.order > maxOrder ∨ block.addr < sys.baseAddr
  · simpa only [rejected, ↓reduceIte] using old
  · obtain ⟨aligned, ends⟩ := held
    simp only [rejected, ↓reduceIte]
    have above : sys.baseAddr ≤ block.addr := by omega
    rw [sub32_of_le (by omega) above]
    have index :
        block.addr = sys.baseAddr +
          (block.addr - sys.baseAddr) / pageSize * pageSize := by
      rw [Nat.div_mul_cancel (Nat.dvd_sub aligned baseAligned)]
      omega
    exact mergeLoop_below _ _ _ _ baseAligned inRange (by omega) above
      index ⟨aligned, ends⟩ old

/-- An allocation leaves the base address alone. -/
theorem pmmAllocPages_baseAddr (sys : BuddySystem) (order : Nat) :
    (pmmAllocPages sys order).2.baseAddr = sys.baseAddr := by
  unfold pmmAllocPages
  split
  · rfl
  · simp only
    split
    · rfl
    · split
      · rfl
      · exact splitLoop_baseAddr _ _

/-- The base address never changes. -/
theorem pmmFreePages_baseAddr (sys : BuddySystem) (addr order : Nat) :
    (pmmFreePages sys addr order).baseAddr = sys.baseAddr := by
  have merge : ∀ fuel (start : BuddySystem) order pageIdx addr,
      (mergeLoop fuel start order pageIdx addr).baseAddr =
        start.baseAddr := by
    intro fuel
    induction fuel with
    | zero =>
        exact fun _ _ _ _ => rfl
    | succ fuel inductionHypothesis =>
        intro start order pageIdx addr
        simp only [mergeLoop]
        split
        · split
          · split
            · rw [inductionHypothesis]
              rfl
            · rw [inductionHypothesis]
              rfl
          · rfl
        · rfl
  unfold pmmFreePages
  split
  · rfl
  · exact merge _ _ _ _ _

/-- One call keeps every block below the limit. -/
theorem PmmStep.below
    {limit : Nat} {run next : PmmRun}
    (step : PmmStep run next)
    (inRange : limit < 2 ^ 32)
    (baseAligned : pageSize ∣ run.sys.baseAddr)
    (below : ∀ block ∈ run.live ++ run.sys.freeBlocks, block.Below limit) :
    next.sys.baseAddr = run.sys.baseAddr ∧
      ∀ block ∈ next.live ++ next.sys.freeBlocks, block.Below limit := by
  simp only [List.forall_mem_append] at below ⊢
  cases step with
  | alloc order =>
      obtain ⟨free, base, handed⟩ := pmmAllocPages_below order below.2
      refine ⟨base, ?_, free⟩
      intro block member
      simp only at member
      split at member
      · exact below.1 block member
      · next found =>
          rcases List.mem_cons.mp member with rfl | member
          · exact handed found
          · exact below.1 block member
  | free block held =>
      exact ⟨pmmFreePages_baseAddr _ _ _,
        fun other member => below.1 other (List.mem_of_mem_erase member),
        pmmFreePages_below baseAligned inRange (below.1 block held) below.2⟩

/-- A run that starts below the limit stays below it. -/
theorem Reachable.below
    {prior : BuddySystem} {memoryStart memoryEnd limit : Nat} {run : PmmRun}
    (reached : Reachable prior memoryStart memoryEnd run)
    (inRange : limit < 2 ^ 32)
    (baseAligned :
      pageSize ∣ (pmmInit prior memoryStart memoryEnd).baseAddr)
    (below :
      ∀ block ∈ (pmmInit prior memoryStart memoryEnd).freeBlocks,
        block.Below limit) :
    ∀ block ∈ run.live ++ run.sys.freeBlocks, block.Below limit := by
  have both :
      run.sys.baseAddr = (pmmInit prior memoryStart memoryEnd).baseAddr ∧
        ∀ block ∈ run.live ++ run.sys.freeBlocks, block.Below limit := by
    induction reached with
    | refl =>
        exact ⟨rfl, below⟩
    | tail _ step inductionHypothesis =>
        obtain ⟨base, allBelow⟩ := inductionHypothesis
        obtain ⟨same, kept⟩ := step.below inRange (base ▸ baseAligned) allBelow
        exact ⟨same.trans base, kept⟩
  exact both.2

/-! ## The blocks of `pmm_init` -/

section Region

variable {memoryStart memoryEnd : Nat}

/-- The number of pages `pmm_init` counts. -/
def regionPages (memoryStart memoryEnd : Nat) : Nat :=
  (memoryEnd - memoryStart) / pageSize

/-- The first multiple of the largest block behind the bitmap. -/
def firstBlock (memoryStart memoryEnd : Nat) : Nat :=
  (memoryStart + bitmapSize (regionPages memoryStart memoryEnd) +
    (2 ^ 23 - 1)) / 2 ^ 23 * 2 ^ 23

/-- The state in which the loop of `pmm_init` starts. -/
def initStart (prior : BuddySystem) (memoryStart memoryEnd : Nat) :
    BuddySystem where
  totalPages := regionPages memoryStart memoryEnd
  managedPages := regionPages memoryStart memoryEnd
  baseAddr := memoryStart
  freeArea := fun order =>
    if order ≤ maxOrder then ⟨[], 0⟩ else prior.freeArea order
  bitmap := fun index =>
    if index < bitmapSize (regionPages memoryStart memoryEnd) then 0
    else prior.bitmap index

theorem initStart_freeBlocks (prior : BuddySystem) :
    (initStart prior memoryStart memoryEnd).freeBlocks = [] :=
  freeBlocks_eq_nil fun order bound => by simp [initStart, bound]

/-- `pmm_init` on a page-aligned region that holds at least one block. -/
theorem pmmInit_eq
    (prior : BuddySystem)
    (startAligned : pageSize ∣ memoryStart)
    (ordered : memoryStart < memoryEnd)
    (inRange : memoryEnd < 2 ^ 32)
    (enough : 2 ^ 11 ≤ regionPages memoryStart memoryEnd) :
    firstBlock memoryStart memoryEnd < 2 ^ 32 ∧
      pmmInit prior memoryStart memoryEnd =
        pmmInitLoop (regionPages memoryStart memoryEnd)
          (initStart prior memoryStart memoryEnd)
          (regionPages memoryStart memoryEnd)
          (firstBlock memoryStart memoryEnd) := by
  obtain ⟨startPages, startShape⟩ := startAligned
  have space :
      memoryStart + bitmapSize (regionPages memoryStart memoryEnd) +
        (2 ^ 23 - 1) < 2 ^ 32 := by
    simp only [regionPages, bitmapSize, pageSize] at startShape enough ⊢
    omega
  have cursor :
      alignMaxBlock (wrap32 (memoryStart +
          bitmapSize (regionPages memoryStart memoryEnd))) =
        firstBlock memoryStart memoryEnd := by
    rw [wrap32_of_lt (by omega), alignMaxBlock_eq space]
    rfl
  refine ⟨?_, ?_⟩
  · simp only [firstBlock]
    omega
  · rw [← cursor]
    simp only [pmmInit, sub32_of_le inRange (Nat.le_of_lt ordered)]
    rfl

/-- A region with fewer pages than the largest block gets no block. -/
theorem pmmInit_of_lt
    (prior : BuddySystem)
    (ordered : memoryStart < memoryEnd)
    (inRange : memoryEnd < 2 ^ 32)
    (few : regionPages memoryStart memoryEnd < 2 ^ 11) :
    pmmInit prior memoryStart memoryEnd =
      initStart prior memoryStart memoryEnd := by
  simp only [pmmInit, sub32_of_le inRange (Nat.le_of_lt ordered)]
  exact pmmInitLoop_of_lt few

theorem pmmInit_baseAddr (prior : BuddySystem) :
    (pmmInit prior memoryStart memoryEnd).baseAddr = memoryStart := by
  have loop : ∀ fuel (sys : BuddySystem) remainingPages currentAddr,
      (pmmInitLoop fuel sys remainingPages currentAddr).baseAddr =
        sys.baseAddr := by
    intro fuel
    induction fuel with
    | zero =>
        exact fun _ _ _ => rfl
    | succ fuel inductionHypothesis =>
        intro sys remainingPages currentAddr
        rw [pmmInitLoop]
        split
        · exact inductionHypothesis _ _ _
        · rfl
  exact loop _ _ _ _

/-- The base address is the start of the region in every state of a run. -/
theorem Reachable.baseAddr
    {prior : BuddySystem} {run : PmmRun}
    (reached : Reachable prior memoryStart memoryEnd run) :
    run.sys.baseAddr = memoryStart := by
  induction reached with
  | refl =>
      exact pmmInit_baseAddr prior
  | tail _ step inductionHypothesis =>
      cases step with
      | alloc order =>
          exact (pmmAllocPages_baseAddr _ order).trans inductionHypothesis
      | free block held =>
          exact (pmmFreePages_baseAddr _ _ _).trans inductionHypothesis

/-- The addresses of the blocks of `pmm_init`. -/
theorem mem_pmmInit
    (prior : BuddySystem)
    (startAligned : pageSize ∣ memoryStart)
    (ordered : memoryStart < memoryEnd)
    (inRange : memoryEnd < 2 ^ 32)
    (block : PageBlock) :
    block ∈ (pmmInit prior memoryStart memoryEnd).freeBlocks ↔
      block.order = maxOrder ∧
        ∃ position < regionPages memoryStart memoryEnd / 2 ^ 11,
          block.addr =
            wrap32 (firstBlock memoryStart memoryEnd + position * 2 ^ 23) := by
  by_cases enough : 2 ^ 11 ≤ regionPages memoryStart memoryEnd
  · obtain ⟨cursorRange, shape⟩ :=
      pmmInit_eq prior startAligned ordered inRange enough
    rw [shape, mem_pmmInitLoop _ rfl (Nat.div_le_self _ _) cursorRange,
      initStart_freeBlocks]
    simp
  · have none : regionPages memoryStart memoryEnd / 2 ^ 11 = 0 := by omega
    rw [pmmInit_of_lt prior ordered inRange (by omega),
      initStart_freeBlocks, none]
    simp

/-- A region is as long as its pages. -/
theorem memoryEnd_eq
    (startAligned : pageSize ∣ memoryStart)
    (endAligned : pageSize ∣ memoryEnd)
    (ordered : memoryStart < memoryEnd) :
    memoryEnd =
      memoryStart + regionPages memoryStart memoryEnd * pageSize := by
  rw [regionPages, Nat.div_mul_cancel (Nat.dvd_sub endAligned startAligned)]
  omega

/-- The first block is the first one behind the bitmap. -/
theorem firstBlock_bounds (memoryStart memoryEnd : Nat) :
    memoryStart + bitmapSize (regionPages memoryStart memoryEnd) ≤
        firstBlock memoryStart memoryEnd ∧
      firstBlock memoryStart memoryEnd <
        memoryStart + bitmapSize (regionPages memoryStart memoryEnd) +
          2 ^ 23 ∧
      firstBlock memoryStart memoryEnd % 2 ^ 23 = 0 := by
  simp only [firstBlock]
  omega

/-- When the last block ends in the region, every block does. -/
theorem pmmInit_blocks_below
    (startAligned : pageSize ∣ memoryStart)
    (ordered : memoryStart < memoryEnd)
    (inRange : memoryEnd < 2 ^ 32)
    (fits :
      regionPages memoryStart memoryEnd / 2 ^ 11 = 0 ∨
        firstBlock memoryStart memoryEnd +
          regionPages memoryStart memoryEnd / 2 ^ 11 * 2 ^ 23 ≤ memoryEnd)
    (prior : BuddySystem)
    {block : PageBlock}
    (member : block ∈ (pmmInit prior memoryStart memoryEnd).freeBlocks) :
    memoryStart + bitmapSize (regionPages memoryStart memoryEnd) ≤
        block.addr ∧
      PageBlock.Below memoryEnd block := by
  have cursor := firstBlock_bounds memoryStart memoryEnd
  obtain ⟨order, position, bound, addr⟩ :=
    (mem_pmmInit prior startAligned ordered inRange block).mp member
  rw [wrap32_of_lt (by omega)] at addr
  have aligned : pageSize ∣ block.addr := by
    rw [addr]
    exact Nat.dvd_add
      (pageSize_dvd_maxBlock.trans (Nat.dvd_of_mod_eq_zero cursor.2.2))
      (pageSize_dvd_maxBlock.trans (Nat.dvd_mul_left _ _))
  refine ⟨by omega, aligned, ?_⟩
  rw [order, maxBlockLength]
  omega

/-- When the last block ends in the region, only its bitmap is written. -/
theorem pmmInit_bitmap
    (startAligned : pageSize ∣ memoryStart)
    (endAligned : pageSize ∣ memoryEnd)
    (ordered : memoryStart < memoryEnd)
    (inRange : memoryEnd < 2 ^ 32)
    (fits :
      regionPages memoryStart memoryEnd / 2 ^ 11 = 0 ∨
        firstBlock memoryStart memoryEnd +
          regionPages memoryStart memoryEnd / 2 ^ 11 * 2 ^ 23 ≤ memoryEnd)
    (prior : BuddySystem)
    {byte : Nat}
    (outside : bitmapSize (regionPages memoryStart memoryEnd) ≤ byte) :
    (pmmInit prior memoryStart memoryEnd).bitmap byte =
      prior.bitmap byte := by
  have pages := memoryEnd_eq startAligned endAligned ordered
  have cursor := firstBlock_bounds memoryStart memoryEnd
  have untouched :
      (initStart prior memoryStart memoryEnd).bitmap byte =
        prior.bitmap byte := by
    simp only [initStart, Nat.not_lt.mpr outside, ↓reduceIte]
  by_cases enough : 2 ^ 11 ≤ regionPages memoryStart memoryEnd
  · obtain ⟨_, shape⟩ :=
      pmmInit_eq prior startAligned ordered inRange enough
    rw [shape, pmmInitLoop_bitmap _ rfl (by omega)
      (show memoryStart ≤ _ by omega), untouched]
    simp only [initStart, pageSize, bitmapSize] at *
    omega
  · rw [pmmInit_of_lt prior ordered inRange (by omega), untouched]

/--
What the region given to `pmm_init` should bound: the blocks it adds, the
bitmap bytes it writes, and every block a later allocation returns.
-/
structure StaysInside (memoryStart memoryEnd : Nat) : Prop where
  blocks :
    ∀ prior, ∀ block ∈ (pmmInit prior memoryStart memoryEnd).freeBlocks,
      memoryStart + bitmapSize (regionPages memoryStart memoryEnd) ≤
          block.addr ∧
        block.addr + 2 ^ block.order * pageSize ≤ memoryEnd
  bitmap :
    ∀ prior byte, bitmapSize (regionPages memoryStart memoryEnd) ≤ byte →
      (pmmInit prior memoryStart memoryEnd).bitmap byte = prior.bitmap byte
  allocations :
    ∀ prior run, Reachable prior memoryStart memoryEnd run →
      ∀ order, (pmmAllocPages run.sys order).1 ≠ 0 →
        (pmmAllocPages run.sys order).1 + 2 ^ order * pageSize ≤ memoryEnd

/--
`pmm_init` stays inside its region exactly when the region is too small for a
block, or when the pages left over after the last block make up for the gap
between the start of the region and the first block.
-/
theorem staysInside_iff
    (startAligned : pageSize ∣ memoryStart)
    (endAligned : pageSize ∣ memoryEnd)
    (ordered : memoryStart < memoryEnd)
    (inRange : memoryEnd < 2 ^ 32) :
    StaysInside memoryStart memoryEnd ↔
      regionPages memoryStart memoryEnd < 2 ^ 11 ∨
        firstBlock memoryStart memoryEnd - memoryStart ≤
          regionPages memoryStart memoryEnd % 2 ^ 11 * pageSize := by
  have pages := memoryEnd_eq startAligned endAligned ordered
  have cursor := firstBlock_bounds memoryStart memoryEnd
  constructor
  · intro inside
    by_contra overrun
    obtain ⟨enough, gap⟩ := not_or.mp overrun
    -- the last block either ends behind the region or has wrapped to 0
    obtain ⟨last, count⟩ :
        ∃ last, regionPages memoryStart memoryEnd / 2 ^ 11 = last + 1 :=
      ⟨regionPages memoryStart memoryEnd / 2 ^ 11 - 1, by omega⟩
    obtain ⟨above, below⟩ := inside.blocks bss
      ⟨wrap32 (firstBlock memoryStart memoryEnd + last * 2 ^ 23), maxOrder⟩
      ((mem_pmmInit bss startAligned ordered inRange _).mpr
        ⟨rfl, last, by omega, rfl⟩)
    have bytes : bitmapSize (regionPages memoryStart memoryEnd) ≤ 2 ^ 17 := by
      simp only [pageSize] at pages
      simp only [bitmapSize]
      omega
    rw [maxBlockLength] at below
    simp only [wrap32, pageSize] at above below pages gap
    omega
  · intro condition
    have fits :
        regionPages memoryStart memoryEnd / 2 ^ 11 = 0 ∨
          firstBlock memoryStart memoryEnd +
            regionPages memoryStart memoryEnd / 2 ^ 11 * 2 ^ 23 ≤
              memoryEnd := by
      simp only [pageSize] at pages condition
      omega
    refine ⟨fun prior block member => ?_, ?_, ?_⟩
    · obtain ⟨above, _, below⟩ :=
        pmmInit_blocks_below startAligned ordered inRange fits prior member
      exact ⟨above, below⟩
    · intro prior byte outside
      exact pmmInit_bitmap startAligned endAligned ordered inRange fits prior
        outside
    · intro prior run reached order found
      have baseAligned :
          pageSize ∣ (pmmInit prior memoryStart memoryEnd).baseAddr := by
        rwa [pmmInit_baseAddr]
      have all := reached.below inRange baseAligned fun block member =>
        (pmmInit_blocks_below startAligned ordered inRange fits prior member).2
      have free := fun block member =>
        all block (List.mem_append_right _ member)
      exact ((pmmAllocPages_below order free).2.2 found).2

/-- A region that starts one page below a multiple of the largest block. -/
theorem staysInside_shifted :
    StaysInside 0x00FFF000 0x01800000 :=
  (staysInside_iff (by norm_num [pageSize]) (by norm_num [pageSize])
    (by norm_num) (by norm_num)).mpr
      (Or.inr (by norm_num [firstBlock, bitmapSize, regionPages, pageSize]))

/-- The region of `boot_config.h` does not bound the blocks of `pmm_init`. -/
theorem boot_region_overrun :
    ¬ StaysInside 0x01000000 0x02000000 := by
  intro inside
  obtain ⟨_, below⟩ := inside.blocks bss ⟨0x02000000, maxOrder⟩
    ((mem_pmmInit bss (by norm_num [pageSize]) (by norm_num) (by norm_num)
      _).mpr
        ⟨rfl, 1, by norm_num [regionPages, pageSize],
          by norm_num [firstBlock, bitmapSize, regionPages, pageSize, wrap32]⟩)
  norm_num [maxOrder, pageSize] at below

end Region

end MatrixOS.Pmm
