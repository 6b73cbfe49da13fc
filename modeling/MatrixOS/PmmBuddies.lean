import MatrixOS.PmmRegion

namespace MatrixOS.Pmm

/-!
# Buddies of splits and of merges

`pmm_alloc_pages` flips a bit of the address to find the buddy of a block,
`pmm_free_pages` a bit of the page index inside the region.  Both give the
same block when the region starts at a multiple of the largest block.
-/

/-- The blocks that splitting the blocks of a state can lead to. -/
inductive SplitFrom (sys : BuddySystem) : PageBlock → Prop
  | whole (block : PageBlock) (free : block ∈ sys.freeBlocks) :
      SplitFrom sys block
  | lower {addr order : Nat} (parent : SplitFrom sys ⟨addr, order + 1⟩) :
      SplitFrom sys ⟨addr, order⟩
  | upper {addr order : Nat} (parent : SplitFrom sys ⟨addr, order + 1⟩) :
      SplitFrom sys ⟨splitBuddyAddr addr order, order⟩

/-- Two blocks that `pmm_free_pages` joins. -/
structure Merge where
  order : Nat
  addr : Nat
  buddyAddr : Nat
  deriving Repr, DecidableEq

/-- The blocks are the halves of a block at a multiple of its own length. -/
def Merge.Halves (merge : Merge) : Prop :=
  ∃ lower, (⟨lower, merge.order + 1⟩ : PageBlock).Aligned ∧
    (merge.addr = lower ∧
        merge.buddyAddr = lower + 2 ^ merge.order * pageSize ∨
      merge.addr = lower + 2 ^ merge.order * pageSize ∧
        merge.buddyAddr = lower)

/-- The merges of `mergeLoop`, which it follows step by step. -/
def mergeTrace :
    Nat → BuddySystem → (currentOrder pageIdx currentAddr : Nat) → List Merge
  | 0, _, _, _, _ => []
  | fuel + 1, sys, currentOrder, pageIdx, currentAddr =>
      if currentOrder < maxOrder then
        let buddyIdx := findBuddyPfn pageIdx currentOrder
        let buddyAddr := mergeBuddyAddr sys pageIdx currentOrder
        if buddyAddr ∈ (sys.freeArea currentOrder).freeList then
          let sys := sys.delFree currentOrder buddyAddr
          ⟨currentOrder, currentAddr, buddyAddr⟩ ::
            if currentAddr > buddyAddr then
              mergeTrace fuel sys (currentOrder + 1) buddyIdx buddyAddr
            else
              mergeTrace fuel sys (currentOrder + 1) pageIdx currentAddr
        else
          []
      else
        []

/-- The merges of `pmm_free_pages`. -/
def freeTrace (sys : BuddySystem) (pageAddr order : Nat) : List Merge :=
  mergeTrace (maxOrder - order) sys order
    (sub32 pageAddr sys.baseAddr / pageSize) pageAddr

/-- Splits and merges take the same block for the buddy of a block. -/
structure BuddiesAgree (memoryStart memoryEnd : Nat) : Prop where
  same : ∀ prior block,
    SplitFrom (pmmInit prior memoryStart memoryEnd) block →
      block.order < maxOrder →
        splitBuddyAddr block.addr block.order =
          mergeBuddyAddr (pmmInit prior memoryStart memoryEnd)
            (sub32 block.addr memoryStart / pageSize) block.order
  merges : ∀ prior block,
    SplitFrom (pmmInit prior memoryStart memoryEnd) block →
      ∀ sys : BuddySystem, sys.baseAddr = memoryStart →
        ∀ merge ∈ freeTrace sys block.addr block.order, merge.Halves

/-! ## Regions at a multiple of the largest block -/

/-- A block at a multiple of its length, inside the address space. -/
structure PageBlock.InRegion (block : PageBlock) (memoryStart : Nat) :
    Prop where
  aligned : block.Aligned
  above : memoryStart ≤ block.addr
  inRange : block.addr < 2 ^ 32

section Aligned

variable {memoryStart memoryEnd : Nat}

/-- The halves of a block are in the region. -/
theorem PageBlock.InRegion.halves
    {addr order : Nat}
    (parent : (⟨addr, order + 1⟩ : PageBlock).InRegion memoryStart)
    (below : order < maxOrder) :
    (⟨addr, order⟩ : PageBlock).InRegion memoryStart ∧
      (⟨splitBuddyAddr addr order, order⟩ : PageBlock).InRegion
        memoryStart := by
  obtain ⟨aligned, above, inRange⟩ := parent
  simp only [PageBlock.Aligned] at aligned above inRange
  have halfDvd : 2 ^ order * pageSize ∣ 2 ^ (order + 1) * pageSize :=
    ⟨2, by ring⟩
  have buddyRange : splitBuddyAddr addr order < 2 ^ 32 := by
    refine Nat.xor_lt_two_pow inRange ?_
    rw [Nat.one_shiftLeft]
    exact Nat.pow_lt_pow_right (by omega)
      (by simp only [maxOrder] at below; omega)
  refine ⟨⟨halfDvd.trans aligned, above, inRange⟩, ?_, ?_, buddyRange⟩
  · rw [splitBuddyAddr_of_lower aligned]
    exact Nat.dvd_add (halfDvd.trans aligned) (Nat.dvd_refl _)
  · rw [splitBuddyAddr_of_lower aligned]
    exact Nat.le_add_right_of_le above

/-- Every merge of a release of such a block joins two halves. -/
theorem mergeTrace_halves
    {sys : BuddySystem} {fuel order addr : Nat}
    (baseAligned : 2 ^ maxOrder * pageSize ∣ sys.baseAddr)
    (inRegion : (⟨addr, order⟩ : PageBlock).InRegion sys.baseAddr)
    {merge : Merge}
    (member : merge ∈ mergeTrace fuel sys order
      (sub32 addr sys.baseAddr / pageSize) addr) :
    merge.Halves := by
  induction fuel generalizing sys order addr with
  | zero =>
      cases member
  | succ fuel inductionHypothesis =>
      rw [mergeTrace] at member
      split at member
      case isFalse =>
        cases member
      case isTrue below =>
        obtain ⟨aligned, above, inRange⟩ := inRegion
        simp only [PageBlock.Aligned] at aligned above inRange
        obtain ⟨buddyIs, indexIs⟩ :=
          mergeBuddyAddr_eq baseAligned below aligned above inRange
        simp only [buddyIs, indexIs] at member
        split at member
        case isFalse =>
          cases member
        case isTrue =>
          rcases lower_or_upper aligned with isLower | ⟨lower, rfl, isLower⟩
          · have buddy := splitBuddyAddr_of_lower isLower
            have notAbove : ¬ addr > splitBuddyAddr addr order := by omega
            rw [if_neg notAbove] at member
            rcases List.mem_cons.mp member with rfl | later
            · exact ⟨addr, isLower, Or.inl ⟨rfl, buddy⟩⟩
            · exact @inductionHypothesis (sys.delFree order _) _ _
                baseAligned ⟨isLower, above, inRange⟩ later
          · have buddy := splitBuddyAddr_of_upper isLower
            have positive : 0 < 2 ^ order * pageSize :=
              Nat.mul_pos (Nat.two_pow_pos _) (by decide)
            have isAbove : lower + 2 ^ order * pageSize >
                splitBuddyAddr (lower + 2 ^ order * pageSize) order := by
              omega
            rw [if_pos isAbove, buddy] at member
            rcases List.mem_cons.mp member with rfl | later
            · exact ⟨lower, isLower, Or.inr ⟨rfl, rfl⟩⟩
            · refine @inductionHypothesis (sys.delFree order _) _ _
                baseAligned ⟨isLower, ?_, by simp only; omega⟩ later
              exact le_lower (((Nat.mul_dvd_mul_right
                (Nat.pow_dvd_pow 2 below) _).trans baseAligned)) isLower above

variable (ordered : memoryStart < memoryEnd) (inRange : memoryEnd < 2 ^ 32)
include ordered inRange

/-- The blocks of `pmm_init` are in the region's half of the address space. -/
theorem pmmInit_inRegion
    (startAligned : 2 ^ 23 ∣ memoryStart)
    {prior : BuddySystem} {block : PageBlock}
    (free : block ∈ (pmmInit prior memoryStart memoryEnd).freeBlocks) :
    block.order = maxOrder ∧ block.InRegion memoryStart := by
  obtain ⟨orderIs, position, bound, addrIs⟩ :=
    (mem_pmmInit prior (pageSize_dvd_maxBlock.trans startAligned) ordered
      inRange block).mp free
  have first : firstBlock memoryStart memoryEnd % 2 ^ 23 = 0 ∧
      memoryStart ≤ firstBlock memoryStart memoryEnd ∧
      firstBlock memoryStart memoryEnd + position * 2 ^ 23 < 2 ^ 32 := by
    simp only [firstBlock, bitmapSize, regionPages, pageSize] at bound ⊢
    omega
  rw [wrap32_of_lt first.2.2] at addrIs
  refine ⟨orderIs, ?_, by omega, by omega⟩
  rw [PageBlock.Aligned, orderIs, maxBlockLength]
  omega

/-- So are all blocks they are split into. -/
theorem SplitFrom.inRegion
    (startAligned : 2 ^ 23 ∣ memoryStart)
    {prior : BuddySystem} {block : PageBlock}
    (split : SplitFrom (pmmInit prior memoryStart memoryEnd) block) :
    block.order ≤ maxOrder ∧ block.InRegion memoryStart := by
  induction split with
  | whole block free =>
      obtain ⟨orderIs, inRegion⟩ :=
        pmmInit_inRegion ordered inRange startAligned free
      exact ⟨Nat.le_of_eq orderIs, inRegion⟩
  | lower _ inductionHypothesis =>
      exact ⟨Nat.le_of_succ_le inductionHypothesis.1,
        (inductionHypothesis.2.halves inductionHypothesis.1).1⟩
  | upper _ inductionHypothesis =>
      exact ⟨Nat.le_of_succ_le inductionHypothesis.1,
        (inductionHypothesis.2.halves inductionHypothesis.1).2⟩

theorem buddiesAgree_of_aligned
    (startAligned : 2 ^ 23 ∣ memoryStart) :
    BuddiesAgree memoryStart memoryEnd := by
  rw [← maxBlockLength] at startAligned
  refine ⟨fun prior block split below => ?_,
    fun prior block split sys base merge member => ?_⟩
  · obtain ⟨_, aligned, above, inWord⟩ :=
      split.inRegion ordered inRange (maxBlockLength ▸ startAligned)
    have baseIs : (pmmInit prior memoryStart memoryEnd).baseAddr =
        memoryStart :=
      pmmInit_baseAddr prior
    have agree := mergeBuddyAddr_eq (baseIs.symm ▸ startAligned) below aligned
      (baseIs.symm ▸ above) inWord
    rw [baseIs] at agree
    exact agree.1.symm
  · subst base
    obtain ⟨_, inRegion⟩ :=
      split.inRegion ordered inRange (maxBlockLength ▸ startAligned)
    exact mergeTrace_halves startAligned inRegion member

end Aligned

/-! ## Other regions -/

/-- A number that is no multiple of a power of two has a lowest bit below it. -/
theorem exists_lowest_bit
    {number bits : Nat}
    (notMultiple : ¬ 2 ^ bits ∣ number) :
    ∃ bit < bits, ∃ lower, number = lower + 2 ^ bit ∧
      2 ^ (bit + 1) ∣ lower := by
  induction bits with
  | zero =>
      exact absurd (Nat.one_dvd _) notMultiple
  | succ bits inductionHypothesis =>
      by_cases multiple : 2 ^ bits ∣ number
      · rcases DyadicBlock.dvd_succ_or_exists_add multiple with
          more | ⟨lower, shape, lowerDvd⟩
        · exact absurd more notMultiple
        · exact ⟨bits, Nat.lt_succ_self _, lower, shape, lowerDvd⟩
      · obtain ⟨bit, below, lower, shape⟩ := inductionHypothesis multiple
        exact ⟨bit, Nat.lt_succ_of_lt below, lower, shape⟩

/-- The lower halves of a block start where it does. -/
theorem SplitFrom.first
    {sys : BuddySystem} {addr order : Nat}
    (split : SplitFrom sys ⟨addr, order⟩)
    {smaller : Nat}
    (below : smaller ≤ order) :
    SplitFrom sys ⟨addr, smaller⟩ := by
  induction order with
  | zero =>
      obtain rfl : smaller = 0 := by omega
      exact split
  | succ order inductionHypothesis =>
      by_cases whole : smaller = order + 1
      · exact whole ▸ split
      · exact inductionHypothesis split.lower (by omega)

/-- With a block at all, the region has to start at a multiple of it. -/
theorem not_buddiesAgree
    {memoryStart memoryEnd : Nat}
    (startAligned : pageSize ∣ memoryStart)
    (ordered : memoryStart < memoryEnd)
    (inRange : memoryEnd < 2 ^ 32)
    (enough : 2 ^ 11 ≤ regionPages memoryStart memoryEnd)
    (misaligned : ¬ 2 ^ 23 ∣ memoryStart) :
    ¬ BuddiesAgree memoryStart memoryEnd := by
  intro agree
  obtain ⟨firstRange, _⟩ :=
    pmmInit_eq bss startAligned ordered inRange enough
  have first : firstBlock memoryStart memoryEnd % 2 ^ 23 = 0 ∧
      memoryStart ≤ firstBlock memoryStart memoryEnd := by
    simp only [firstBlock]
    omega
  generalize firstAddr : firstBlock memoryStart memoryEnd = addr
    at firstRange first
  have free : ⟨addr, maxOrder⟩ ∈
      (pmmInit bss memoryStart memoryEnd).freeBlocks := by
    refine (mem_pmmInit bss startAligned ordered inRange _).mpr
      ⟨rfl, 0, by omega, ?_⟩
    rw [firstAddr, Nat.zero_mul, Nat.add_zero, wrap32_of_lt firstRange]
  -- the lowest bit of the block's page index inside the region
  obtain ⟨startPages, rfl⟩ := startAligned
  have notMultiple :
      ¬ 2 ^ maxOrder ∣ (addr - pageSize * startPages) / pageSize := by
    simp only [pageSize, maxOrder] at misaligned first ⊢
    omega
  obtain ⟨order, below, lower, index, lowerDvd⟩ :=
    exists_lowest_bit notMultiple
  have same := agree.same bss ⟨addr, order⟩
    ((SplitFrom.whole _ free).first (Nat.le_of_lt below)) below
  have parentAligned : 2 ^ (order + 1) * pageSize ∣ addr := by
    refine (Nat.mul_dvd_mul_right (Nat.pow_dvd_pow 2 below) _).trans ?_
    rw [maxBlockLength]
    omega
  have flipped : findBuddyPfn (lower + 2 ^ order) order = lower := by
    rw [findBuddyPfn, Nat.one_shiftLeft]
    exact DyadicBlock.add_two_pow_xor_of_dvd lowerDvd
  have positive : 0 < 2 ^ order := Nat.two_pow_pos _
  rw [splitBuddyAddr_of_lower parentAligned, mergeBuddyAddr,
    sub32_of_le firstRange first.2, index, flipped, pmmInit_baseAddr] at same
  simp only [pageSize] at same index first
  rw [wrap32_of_lt (by omega)] at same
  omega

/--
Splits and merges agree exactly in the regions that start at a multiple of the
largest block, and in those without a block.
-/
theorem buddiesAgree_iff
    {memoryStart memoryEnd : Nat}
    (startAligned : pageSize ∣ memoryStart)
    (ordered : memoryStart < memoryEnd)
    (inRange : memoryEnd < 2 ^ 32) :
    BuddiesAgree memoryStart memoryEnd ↔
      2 ^ 23 ∣ memoryStart ∨ regionPages memoryStart memoryEnd < 2 ^ 11 := by
  constructor
  · intro agree
    by_contra neither
    obtain ⟨misaligned, enough⟩ := not_or.mp neither
    exact not_buddiesAgree startAligned ordered inRange (by omega) misaligned
      agree
  · rintro (aligned | few)
    · exact buddiesAgree_of_aligned ordered inRange aligned
    · have none : ∀ prior block,
          ¬ SplitFrom (pmmInit prior memoryStart memoryEnd) block := by
        intro prior block split
        induction split with
        | whole block free =>
            rw [pmmInit_of_lt prior ordered inRange few,
              initStart_freeBlocks] at free
            cases free
        | lower _ inductionHypothesis =>
            exact inductionHypothesis
        | upper _ inductionHypothesis =>
            exact inductionHypothesis
      exact ⟨fun prior block split => absurd split (none prior block),
        fun prior block split => absurd split (none prior block)⟩

/-- The region of `boot_config.h` starts at a multiple of the largest block. -/
theorem buddiesAgree_boot : BuddiesAgree 0x01000000 0x02000000 :=
  (buddiesAgree_iff (by norm_num [pageSize]) (by norm_num) (by norm_num)).mpr
    (Or.inl (by norm_num))

/-- One page further on they do not agree. -/
theorem not_buddiesAgree_shifted : ¬ BuddiesAgree 0x01001000 0x02001000 :=
  not_buddiesAgree (by norm_num [pageSize]) (by norm_num) (by norm_num)
    (by norm_num [regionPages, pageSize]) (by norm_num)

end MatrixOS.Pmm
