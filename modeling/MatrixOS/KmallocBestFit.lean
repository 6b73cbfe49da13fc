import MatrixOS.KmallocRuns
import MatrixOS.RunningMinimum

namespace MatrixOS.Kmalloc

open ByteMemory Layout RunningMinimum

/-!
# Best fit

`kmalloc` takes the first of the smallest free blocks that are large enough,
cuts off what is left of it when that is worth a block, and changes no other
block.
-/

/-! ## The blocks of a heap -/

/-- The block whose header is at an address. -/
def blockAt (mem : Memory) (header : Nat) : HeapBlock where
  addr := header
  size := (readHeader mem header).size
  isFree := (readHeader mem header).isFree ≠ 0

/-- The blocks found from `heap_mgr.head`, if the walk ends. -/
def chainBlocks (heap : Heap) : Option (List HeapBlock) :=
  (walkChain heap.mem chainFuel heap.head).map (List.map (blockAt heap.mem))

/-- `size` bytes and a header, rounded up to a multiple of 8. -/
def roundedSize (size : Nat) : Nat :=
  (size + headerSize + 7) / 8 * 8

/-- A free block of at least this size. -/
def Fits (actualSize : Nat) (block : HeapBlock) : Prop :=
  block.isFree = true ∧ actualSize ≤ block.size

instance (actualSize : Nat) : DecidablePred (Fits actualSize) :=
  fun _ => inferInstanceAs (Decidable (_ ∧ _))

theorem actualSizeFor_eq_roundedSize
    {size : Nat}
    (small : size ≤ kmallocMaxSize) :
    actualSizeFor size = roundedSize size := by
  rw [actualSizeFor_eq small, roundedSize, headerSize]

theorem HeapInvariant.chainBlocks_eq
    {heap : Heap} {start : Nat} {live : Live} {blocks : List HeapBlock}
    (invariant : HeapInvariant heap start blocks live) :
    chainBlocks heap = some blocks := by
  have same : ∀ block ∈ blocks, blockAt heap.mem block.addr = block := by
    intro block member
    have size := invariant.chain.header_size member
    have flag := invariant.chain.header_isFree member
    obtain ⟨addr, blockSize, isFree⟩ := block
    simp only [blockAt, size, flag, HeapBlock.mk.injEq, true_and]
    exact Bool.decide_eq_true
  rw [chainBlocks, invariant.tilesHeap.visited, Option.map_some, List.map_map]
  exact congrArg some ((List.map_congr_left same).trans (List.map_id blocks))

/-! ## The search -/

/-- The search of `kmalloc` is a running minimum. -/
theorem bestFitBlock_eq
    (actualSize : Nat)
    (blocks : List HeapBlock)
    (best : Option HeapBlock) :
    bestFitBlock actualSize blocks best =
      runningMinimum (Fits actualSize) HeapBlock.size blocks best := by
  induction blocks generalizing best with
  | nil =>
      rfl
  | cons block rest inductionHypothesis =>
      rw [bestFitBlock, runningMinimum, inductionHypothesis, improve]
      simp only [Fits, and_assoc]

theorem bestFitBlock_isBest
    (actualSize : Nat)
    (blocks : List HeapBlock) :
    IsBest (Fits actualSize) HeapBlock.size blocks
      (bestFitBlock actualSize blocks none) := by
  rw [bestFitBlock_eq]
  exact runningMinimum_isBest _ _ blocks

/-! ## The allocation -/

/--
In every state of a run `kmalloc` fails only when no free block is large
enough, and then changes nothing; else it takes the first of the smallest
blocks that are large enough and leaves the others as they are.
-/
theorem reachable_kmalloc_bestFit
    {sys : Pmm.BuddySystem}
    (granted : HeapGranted sys)
    {mem : Memory}
    {run : HeapRun}
    (reached : HeapReachable sys mem run)
    {size : Nat}
    (positive : 0 < size)
    (small : size ≤ kmallocMaxSize) :
    ∃ blocks ptr next,
      chainBlocks run.heap = some blocks ∧
      kmalloc run.heap size = some (ptr, next) ∧
      (ptr = 0 ↔ ∀ block ∈ blocks, ¬ Fits (roundedSize size) block) ∧
      (ptr = 0 → next = run.heap) ∧
      (ptr ≠ 0 → ∃ before block after,
        blocks = before ++ block :: after ∧
        FirstMinimum (Fits (roundedSize size)) HeapBlock.size
          before block after ∧
        ptr = block.addr + headerSize ∧
        chainBlocks next =
          some (before ++ takeBlock block (roundedSize size) ++ after) ∧
        ∀ other ∈ before ++ after, ∀ byte ∈ other.payload,
          next.mem byte = run.heap.mem byte) := by
  obtain ⟨blocks, invariant⟩ := reached.invariant granted
  rw [← actualSizeFor_eq_roundedSize small]
  have isBest := bestFitBlock_isBest (actualSizeFor size) blocks
  cases found : bestFitBlock (actualSizeFor size) blocks none with
  | none =>
      rw [found] at isBest
      exact ⟨blocks, 0, run.heap, invariant.chainBlocks_eq,
        invariant.kmalloc_of_none (Or.inr (Or.inr found)),
        iff_of_true rfl isBest, fun _ => rfl, fun nonzero => absurd rfl nonzero⟩
  | some block =>
      rw [found] at isBest
      obtain ⟨before, after, rfl, first⟩ := isBest
      obtain ⟨next, result, kept, _, frame⟩ :=
        invariant.kmalloc_takes (by omega) small found first.fits.1
          first.fits.2
      have nonzero : block.addr + headerSize ≠ 0 := by
        simp only [headerSize]
        omega
      refine ⟨_, _, next, invariant.chainBlocks_eq, result,
        iff_of_false nonzero fun none => none block (by simp) first.fits,
        fun zero => absurd zero nonzero,
        fun _ => ⟨before, block, after, rfl, first, rfl, ?_, frame⟩⟩
      rw [List.append_assoc]
      exact kept.chainBlocks_eq

/-- The first allocation takes a piece of the one block there is. -/
theorem reachable_kmalloc_bestFit_boot :
    ∃ blocks ptr next,
      chainBlocks (initialHeap bootSys fun _ => 0) = some blocks ∧
      kmalloc (initialHeap bootSys fun _ => 0) 100 = some (ptr, next) ∧
      (ptr = 0 ↔ ∀ block ∈ blocks, ¬ Fits 120 block) ∧
      (ptr = 0 → next = initialHeap bootSys fun _ => 0) ∧
      (ptr ≠ 0 → ∃ before block after,
        blocks = before ++ block :: after ∧
        FirstMinimum (Fits 120) HeapBlock.size before block after ∧
        ptr = block.addr + headerSize ∧
        chainBlocks next = some (before ++ takeBlock block 120 ++ after) ∧
        ∀ other ∈ before ++ after, ∀ byte ∈ other.payload,
          next.mem byte = (initialHeap bootSys fun _ => 0).mem byte) :=
  @reachable_kmalloc_bestFit _ bootSys_granted _ _ .init 100 (by decide)
    (by decide)

end MatrixOS.Kmalloc
