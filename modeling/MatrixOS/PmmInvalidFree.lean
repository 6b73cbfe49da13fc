import MatrixOS.PmmRegion

namespace MatrixOS.Pmm

/-!
# Invalid releases

`pmm_free_pages` prints "Invalid free" and returns when the order is too large
or the address is below the region.  Every other pair goes on a free list,
whether or not its block is outstanding.
-/

/-- The free lists, their counters and the bitmap are the same. -/
structure Unchanged (sys next : BuddySystem) : Prop where
  freeArea : ∀ order ≤ maxOrder, next.freeArea order = sys.freeArea order
  bitmap : next.bitmap = sys.bitmap

/-- A release of a block that is not outstanding changes nothing. -/
def InvalidFreesRejected (memoryStart memoryEnd : Nat) : Prop :=
  ∀ prior run, Reachable prior memoryStart memoryEnd run →
    ∀ addr order, (⟨addr, order⟩ : PageBlock) ∉ run.live →
      Unchanged run.sys (pmmFreePages run.sys addr order)

/-! ## What a release adds -/

/-- A list that was not merged from is left alone. -/
theorem delFree_freeList_of_ne
    {sys : BuddySystem} {order addr other : Nat}
    (different : other ≠ order) :
    ((sys.delFree order addr).freeArea other).freeList =
      (sys.freeArea other).freeList := by
  simp only [BuddySystem.delFree, Function.update_of_ne different]

/-- The list a block is put on grows by one. -/
theorem addFree_length
    {sys : BuddySystem} {order addr : Nat} :
    ((sys.addFree order addr).freeArea order).freeList.length =
      (sys.freeArea order).freeList.length + 1 := by
  simp only [BuddySystem.addFree, Function.update_self, List.length_cons]

/--
The merge loop ends with one insertion.  It takes blocks only off the lists of
smaller orders, so the list it inserts into has become longer.
-/
theorem mergeLoop_grows
    (fuel : Nat)
    {sys : BuddySystem} {order pageIdx addr : Nat}
    (bound : order + fuel ≤ maxOrder) :
    ∃ final, order ≤ final ∧ final ≤ maxOrder ∧
      ((mergeLoop fuel sys order pageIdx addr).freeArea final).freeList.length =
        (sys.freeArea final).freeList.length + 1 := by
  induction fuel generalizing sys order pageIdx addr with
  | zero =>
      exact ⟨order, Nat.le_refl _, bound, addFree_length⟩
  | succ fuel inductionHypothesis =>
      have below : order < maxOrder := by omega
      have stops :
          ∃ final, order ≤ final ∧ final ≤ maxOrder ∧
            ((sys.addFree order addr).freeArea final).freeList.length =
              (sys.freeArea final).freeList.length + 1 :=
        ⟨order, Nat.le_refl _, Nat.le_of_lt below, addFree_length⟩
      -- after a merge the loop goes on one order further up
      have merges : ∀ nextIdx nextAddr,
          ∃ final, order ≤ final ∧ final ≤ maxOrder ∧
            ((mergeLoop fuel
                (sys.delFree order (mergeBuddyAddr sys pageIdx order))
                (order + 1) nextIdx nextAddr).freeArea final).freeList.length =
              (sys.freeArea final).freeList.length + 1 := by
        intro nextIdx nextAddr
        obtain ⟨final, above, within, longer⟩ :=
          @inductionHypothesis
            (sys.delFree order (mergeBuddyAddr sys pageIdx order))
            (order + 1) nextIdx nextAddr (by omega)
        refine ⟨final, by omega, within, ?_⟩
        rw [longer, delFree_freeList_of_ne (by omega)]
      simp only [mergeLoop, below, ↓reduceIte]
      by_cases free :
          mergeBuddyAddr sys pageIdx order ∈ (sys.freeArea order).freeList
      · by_cases lower : addr > mergeBuddyAddr sys pageIdx order
        · simpa only [free, lower, ↓reduceIte] using merges _ _
        · simpa only [free, lower, ↓reduceIte] using merges _ _
      · simpa only [free, ↓reduceIte] using stops

/-- In any state the guard of `pmm_free_pages` is all that rejects a release. -/
theorem unchanged_pmmFreePages
    {sys : BuddySystem} {addr order : Nat} :
    Unchanged sys (pmmFreePages sys addr order) ↔
      order > maxOrder ∨ addr < sys.baseAddr := by
  constructor
  · intro unchanged
    by_contra accepted
    simp only [pmmFreePages, accepted, ↓reduceIte] at unchanged
    have small : order ≤ maxOrder := Nat.not_lt.mp (not_or.mp accepted).1
    obtain ⟨final, _, within, longer⟩ :=
      @mergeLoop_grows (maxOrder - order)
        { sys with
          bitmap := clearBits sys.bitmap
            (sub32 addr sys.baseAddr / pageSize) (1 <<< order) }
        order (sub32 addr sys.baseAddr / pageSize) addr
        (Nat.le_of_eq (Nat.add_sub_cancel' small))
    rw [unchanged.freeArea final within] at longer
    exact Nat.succ_ne_self _ longer.symm
  · intro rejected
    simp only [pmmFreePages, rejected, ↓reduceIte]
    exact ⟨fun _ _ => rfl, rfl⟩

/-! ## Runs with invalid releases -/

/-- A call of a run in which invalid releases may occur, if they are rejected. -/
inductive GuardedStep : PmmRun → PmmRun → Prop where
  | call {run next : PmmRun} (step : PmmStep run next) : GuardedStep run next
  | invalidFree (run : PmmRun) (addr order : Nat)
      (absent : (⟨addr, order⟩ : PageBlock) ∉ run.live)
      (guarded : order > maxOrder ∨ addr < run.sys.baseAddr) :
      GuardedStep run { run with sys := pmmFreePages run.sys addr order }

/-- The states of the runs whose invalid releases all meet the guard. -/
def GuardedReachable (prior : BuddySystem) (memoryStart memoryEnd : Nat) :
    PmmRun → Prop :=
  Relation.ReflTransGen GuardedStep ⟨pmmInit prior memoryStart memoryEnd, []⟩

variable {prior : BuddySystem} {memoryStart memoryEnd : Nat} {run : PmmRun}

/-- Rejected releases lead to no further states. -/
theorem GuardedReachable.reachable
    (reached : GuardedReachable prior memoryStart memoryEnd run) :
    Reachable prior memoryStart memoryEnd run := by
  induction reached with
  | refl =>
      exact Relation.ReflTransGen.refl
  | tail _ step inductionHypothesis =>
      cases step with
      | call step =>
          exact inductionHypothesis.tail step
      | invalidFree addr order absent guarded =>
          simpa only [pmmFreePages, guarded, ↓reduceIte]
            using inductionHypothesis

/--
In every run whose invalid releases meet the guard, a further invalid release
changes nothing exactly when it meets the guard too, and the outstanding
blocks are disjoint and consist of pages that `pmm_init` handed over.
-/
theorem invalidFree_unchanged_iff
    (reached : GuardedReachable prior memoryStart memoryEnd run) :
    (∀ addr order, (⟨addr, order⟩ : PageBlock) ∉ run.live →
      (Unchanged run.sys (pmmFreePages run.sys addr order) ↔
        order > maxOrder ∨ addr < memoryStart)) ∧
      (2 ^ 23 ∣ memoryStart → memoryStart < memoryEnd →
        memoryEnd < 2 ^ 32 →
          run.live.Pairwise
              (fun first second => Disjoint first.pages second.pages) ∧
            ∀ block ∈ run.live,
              block.pages ⊆ (pmmInit prior memoryStart memoryEnd).freePages) := by
  have valid := reached.reachable
  refine ⟨fun addr order _ => ?_, fun aligned ordered inRange => ?_⟩
  · rw [unchanged_pmmFreePages, valid.baseAddr]
  · have tiles := (valid.invariant aligned ordered inRange).tiles
    exact ⟨(List.pairwise_append.mp tiles.disjoint).1, fun block held =>
      tiles.extent_subset (List.mem_append_left _ held)⟩

theorem invalidFree_unchanged_iff_boot :
    Unchanged bootRun.sys (pmmFreePages bootRun.sys 0x01001000 12) :=
  ((invalidFree_unchanged_iff
    (Relation.ReflTransGen.single
      (GuardedStep.call (PmmStep.alloc ⟨_, []⟩ 0)) :
        GuardedReachable bss 0x01000000 0x02000000 bootRun)).1 0x01001000 12
      (by
        intro member
        simp only [bootRun] at member
        split at member
        · cases member
        · simp at member)).mpr (Or.inl (by decide))

/-- An allocation takes the first block of its own order if there is one. -/
theorem pmmAllocPages_head
    {sys : BuddySystem} {order addr : Nat} {rest : List Nat}
    (small : order ≤ maxOrder)
    (shape : (sys.freeArea order).freeList = addr :: rest) :
    (pmmAllocPages sys order).1 = addr := by
  have found :
      findFreeOrder sys (maxOrder + 1 - order) order = order := by
    rw [Nat.succ_sub small, findFreeOrder]
    simp only [small, shape, List.isEmpty_cons, ↓reduceIte, Bool.false_eq_true]
  simp only [pmmAllocPages, found, Nat.not_lt.mpr small, ↓reduceIte, shape]

/--
A page between the bitmap and the first block, which `pmm_init` never handed
over, is accepted and handed out by the next allocation.
-/
theorem not_invalidFreesRejected :
    ¬ InvalidFreesRejected 0x01000000 0x02000000 ∧
      (pmmAllocPages
        (pmmFreePages (pmmInit bss 0x01000000 0x02000000) 0x01001000 0) 0).1 =
          0x01001000 := by
  refine ⟨fun rejected => ?_, ?_⟩
  · have unchanged := rejected bss _ Relation.ReflTransGen.refl 0x01001000 0
      (List.not_mem_nil)
    rw [unchanged_pmmFreePages, pmmInit_baseAddr] at unchanged
    exact absurd unchanged (by decide)
  · refine @pmmAllocPages_head _ _ _ [] (by decide) ?_
    have accepted :
        ¬ (0 > maxOrder ∨
          0x01001000 < (pmmInit bss 0x01000000 0x02000000).baseAddr) := by
      rw [pmmInit_baseAddr]
      decide
    have empty :
        ((pmmInit bss 0x01000000 0x02000000).freeArea 0).freeList = [] := by
      refine List.eq_nil_iff_forall_not_mem.mpr fun addr member => ?_
      obtain ⟨order, _⟩ :=
        (mem_pmmInit bss (by norm_num [pageSize]) (by norm_num) (by norm_num)
          ⟨addr, 0⟩).mp (BuddySystem.mem_freeBlocks.mpr ⟨Nat.zero_le _, member⟩)
      exact absurd order (show ¬ 0 = maxOrder by decide)
    simp only [pmmFreePages, accepted, ↓reduceIte, Nat.sub_zero]
    simp [maxOrder, mergeLoop, empty, BuddySystem.addFree]

end MatrixOS.Pmm
