import Mathlib.Algebra.BigOperators.Group.Finset.Basic
import MatrixOS.KmallocRuns

namespace MatrixOS.Kmalloc

open ByteMemory Layout

/-!
# The report on the heap

`kmalloc_stats` walks the chain and counts its free blocks and its blocks in
use.  What it prints is set against the pointers that clients hold.
-/

/-! ## The function -/

/-- Two of the variables of `kmalloc_stats`: blocks of a kind and their bytes. -/
structure BlockCount where
  blocks : Nat
  bytes : Nat
  deriving Repr, DecidableEq

/-- One more block. -/
def BlockCount.add (count : BlockCount) (size : Nat) : BlockCount :=
  ⟨wrap32 (count.blocks + 1), wrap32 (count.bytes + size)⟩

/-- The loop of `kmalloc_stats`, with the counts of free and of used blocks. -/
def countBlocks (mem : Memory) :
    (fuel current : Nat) → (free used : BlockCount) →
      Option (BlockCount × BlockCount)
  | 0, _, _, _ => none
  | fuel + 1, current, free, used =>
      if current = 0 then
        some (free, used)
      else
        let block := readHeader mem current
        if block.isFree ≠ 0 then
          countBlocks mem fuel block.next (free.add block.size) used
        else
          countBlocks mem fuel block.next free (used.add block.size)

/-- The numbers that `kmalloc_stats` prints; the last one not always. -/
structure KmallocReport where
  totalAllocated : Nat
  totalFreed : Nat
  currentUsage : Nat
  freeBlocks : Nat
  totalFree : Nat
  usedBlocks : Nat
  totalUsed : Nat
  totalBlocks : Nat
  efficiency : Option Nat
  deriving Repr, DecidableEq

/-- `kmalloc_stats`. -/
def kmallocStats (heap : Heap) : Option (KmallocReport × Heap) := do
  let heap ← heap.acquire
  let (free, used) ← countBlocks heap.mem chainFuel heap.head ⟨0, 0⟩ ⟨0, 0⟩
  let report : KmallocReport :=
    { totalAllocated := heap.totalAllocated
      totalFreed := heap.totalFreed
      currentUsage := heap.currentUsage
      freeBlocks := free.blocks
      totalFree := free.bytes
      usedBlocks := used.blocks
      totalUsed := used.bytes
      totalBlocks := wrap32 (free.blocks + used.blocks)
      efficiency :=
        if heap.currentUsage > 0 then
          some (wrap32 (heap.totalAllocated * 100) / heap.currentUsage)
        else
          none }
  some (report, heap.release)

/-! ## The loop -/

/-- The free blocks. -/
def unusedBlocks (blocks : List HeapBlock) : List HeapBlock :=
  blocks.filter fun block => block.isFree

/-- Blocks and their bytes, without a bound. -/
def tally (blocks : List HeapBlock) : BlockCount :=
  ⟨blocks.length, (blocks.map HeapBlock.size).sum⟩

def BlockCount.plus (count other : BlockCount) : BlockCount :=
  ⟨count.blocks + other.blocks, count.bytes + other.bytes⟩

section Counting

variable {blocks before after : List HeapBlock} {block : HeapBlock}
variable {count free used : BlockCount}

theorem unusedBlocks_cons_of_free
    (isFree : block.isFree = true)
    (rest : List HeapBlock) :
    unusedBlocks (block :: rest) = block :: unusedBlocks rest :=
  List.filter_cons_of_pos isFree

theorem unusedBlocks_cons_of_used
    (isUsed : block.isFree = false)
    (rest : List HeapBlock) :
    unusedBlocks (block :: rest) = unusedBlocks rest :=
  List.filter_cons_of_neg (by simp [isUsed])

/-- A block is counted without overflow. -/
theorem BlockCount.add_plus_tally
    {size : Nat}
    (same : block.size = size)
    (blocksFit : count.blocks + 1 < 2 ^ 32)
    (bytesFit : count.bytes + size < 2 ^ 32)
    (rest : List HeapBlock) :
    (count.add size).plus (tally rest) = count.plus (tally (block :: rest)) := by
  subst same
  simp only [BlockCount.add, BlockCount.plus, tally, wrap32_of_lt blocksFit,
    wrap32_of_lt bytesFit, List.length_cons, List.map_cons, List.sum_cons,
    BlockCount.mk.injEq]
  omega

theorem BlockCount.add_bounds
    (count : BlockCount)
    (size : Nat)
    (blocksFit : count.blocks + 1 < 2 ^ 32)
    (bytesFit : count.bytes + size < 2 ^ 32) :
    (count.add size).blocks = count.blocks + 1 ∧
      (count.add size).bytes = count.bytes + size :=
  ⟨wrap32_of_lt blocksFit, wrap32_of_lt bytesFit⟩

/-- The loop, from the blocks that it has not reached. -/
theorem Chain.countBlocks_eq
    {mem : Memory} {start fuel : Nat}
    (chain : Chain mem start (before ++ after))
    (enough : after.length < fuel)
    (blocksFit : free.blocks + used.blocks + after.length < 2 ^ 32)
    (bytesFit :
      free.bytes + used.bytes + (after.map HeapBlock.size).sum < 2 ^ 32) :
    countBlocks mem fuel (blockPtr after.head?) free used =
      some (free.plus (tally (unusedBlocks after)),
        used.plus (tally (usedBlocks after))) := by
  induction after generalizing before fuel free used with
  | nil =>
      obtain ⟨fuel, rfl⟩ : ∃ less, fuel = less + 1 := ⟨fuel - 1, by omega⟩
      rfl
  | cons block rest inductionHypothesis =>
      obtain ⟨fuel, rfl⟩ : ∃ less, fuel = less + 1 := ⟨fuel - 1, by omega⟩
      have further : Chain mem start ((before ++ [block]) ++ rest) := by
        simpa using chain
      have listed : block ∈ before ++ block :: rest := by simp
      have nonzero := chain.addr_ne_zero listed
      have size := chain.header_size listed
      have flag := chain.header_isFree listed
      rw [List.length_cons] at enough blocksFit
      rw [List.map_cons, List.sum_cons] at bytesFit
      rw [show blockPtr (block :: rest).head? = block.addr from rfl,
        countBlocks, if_neg nonzero]
      simp only [chain.header_next, size, flag]
      -- The flag decides which of the two counts goes up.
      cases isFree : block.isFree with
      | true =>
          obtain ⟨moreBlocks, moreBytes⟩ :=
            free.add_bounds block.size (by omega) (by omega)
          rw [if_pos (by decide), unusedBlocks_cons_of_free isFree,
            usedBlocks_cons_of_free isFree,
            inductionHypothesis further (by omega) (by omega) (by omega),
            BlockCount.add_plus_tally rfl (by omega) (by omega)]
      | false =>
          obtain ⟨moreBlocks, moreBytes⟩ :=
            used.add_bounds block.size (by omega) (by omega)
          rw [if_neg (by decide), unusedBlocks_cons_of_used isFree,
            usedBlocks_cons_of_used isFree,
            inductionHypothesis further (by omega) (by omega) (by omega),
            BlockCount.add_plus_tally rfl (by omega) (by omega)]

/-- Every block is counted once. -/
theorem unusedBytes_add_usedBytes (blocks : List HeapBlock) :
    (tally (unusedBlocks blocks)).bytes + usedBytes blocks =
      (blocks.map HeapBlock.size).sum := by
  induction blocks with
  | nil =>
      rfl
  | cons block rest inductionHypothesis =>
      simp only [tally, usedBytes] at inductionHypothesis ⊢
      rw [List.map_cons, List.sum_cons, ← inductionHypothesis]
      cases isFree : block.isFree with
      | true =>
          rw [unusedBlocks_cons_of_free isFree, usedBlocks_cons_of_free isFree,
            List.map_cons, List.sum_cons]
          omega
      | false =>
          rw [unusedBlocks_cons_of_used isFree, usedBlocks_cons_of_used isFree,
            List.map_cons, List.sum_cons]
          omega

/-- Between any two free blocks there is one in use. -/
theorem Coalesced.unusedBlocks_le
    (coalesced : Coalesced blocks) :
    (unusedBlocks blocks).length ≤ (usedBlocks blocks).length + 1 := by
  -- A list that does not start with a free block has at least as many others.
  suffices sharper : (unusedBlocks blocks).length ≤
      (usedBlocks blocks).length +
        (if ∃ block ∈ blocks.head?, block.isFree = true then 1 else 0) by
    split at sharper <;> omega
  induction blocks with
  | nil =>
      exact Nat.zero_le _
  | cons block rest inductionHypothesis =>
      obtain ⟨apart, restCoalesced⟩ := List.isChain_cons.mp coalesced
      have shorter := inductionHypothesis restCoalesced
      cases isFree : block.isFree with
      | true =>
          have usedNext : ¬ ∃ next ∈ rest.head?, next.isFree = true := by
            rintro ⟨next, follows, nextFree⟩
            exact apart next follows ⟨isFree, nextFree⟩
          rw [if_neg usedNext] at shorter
          rw [unusedBlocks_cons_of_free isFree, usedBlocks_cons_of_free isFree,
            if_pos ⟨block, rfl, isFree⟩, List.length_cons]
          omega
      | false =>
          rw [unusedBlocks_cons_of_used isFree, usedBlocks_cons_of_used isFree,
            List.length_cons]
          split at shorter <;> omega

end Counting

/-! ## The pointers that clients hold -/

/-- The pointers to the blocks in use. -/
def heldPointers (blocks : List HeapBlock) : Finset Nat :=
  ((usedBlocks blocks).map fun block => block.addr + headerSize).toFinset

/-- What is asked for with a pointer, and its header. -/
def requestBytes (live : Live) (ptr : Nat) : Nat :=
  (live ptr).getD 0 + headerSize

/-- The report on a heap that consists of these blocks. -/
def blocksReport (heap : Heap) (blocks : List HeapBlock) : KmallocReport where
  totalAllocated := heap.totalAllocated
  totalFreed := heap.totalFreed
  currentUsage := usedBytes blocks
  freeBlocks := (unusedBlocks blocks).length
  totalFree := (tally (unusedBlocks blocks)).bytes
  usedBlocks := (usedBlocks blocks).length
  totalUsed := usedBytes blocks
  totalBlocks := (unusedBlocks blocks).length + (usedBlocks blocks).length
  efficiency :=
    if usedBytes blocks > 0 then
      some (wrap32 (heap.totalAllocated * 100) / usedBytes blocks)
    else
      none

/-- The report on a heap whose clients hold the pointers `held`. -/
structure ReportsHeld
    (run : HeapRun) (held : Finset Nat) (report : KmallocReport) : Prop where
  usedBlocks : report.usedBlocks = held.card
  freeBlocks : report.freeBlocks ≤ held.card + 1
  totalBlocks : report.totalBlocks = report.freeBlocks + report.usedBlocks
  totalUsed : report.totalUsed = report.currentUsage
  wholeHeap : report.totalFree + report.totalUsed = 2 ^ 20
  requests : ∑ ptr ∈ held, requestBytes run.live ptr ≤ report.totalUsed
  efficiency : report.efficiency = none ↔ held = ∅

namespace HeapInvariant

variable {heap : Heap} {start : Nat} {live : Live} {blocks : List HeapBlock}

theorem heldPointers_nodup
    (invariant : HeapInvariant heap start blocks live) :
    ((usedBlocks blocks).map fun block => block.addr + headerSize).Nodup := by
  have increasing := invariant.chain.contiguous.starts_increasing
    fun block member =>
      Nat.lt_of_lt_of_le (by decide) (invariant.chain.sizes block member).2
  rw [List.pairwise_map] at increasing
  rw [List.Nodup, List.pairwise_map]
  refine (increasing.sublist List.filter_sublist).imp ?_
  intro left right apart same
  omega

theorem mem_heldPointers
    (invariant : HeapInvariant heap start blocks live)
    {ptr : Nat} :
    ptr ∈ heldPointers blocks ↔ live ptr ≠ none := by
  rw [heldPointers, List.mem_toFinset, List.mem_map]
  constructor
  · rintro ⟨block, member, rfl⟩
    obtain ⟨request, held, _⟩ := invariant.fits block member
    rw [held]
    exact Option.some_ne_none request
  · intro held
    obtain ⟨block, member, same⟩ := invariant.owned ptr held
    exact ⟨block, member, same.symm⟩

theorem card_heldPointers
    (invariant : HeapInvariant heap start blocks live) :
    (heldPointers blocks).card = (usedBlocks blocks).length := by
  rw [heldPointers, List.toFinset_card_of_nodup invariant.heldPointers_nodup,
    List.length_map]

/-- The blocks in use have room for what is asked for. -/
theorem requestBytes_le
    (invariant : HeapInvariant heap start blocks live) :
    ∑ ptr ∈ heldPointers blocks, requestBytes live ptr ≤ usedBytes blocks := by
  rw [heldPointers, List.sum_toFinset _ invariant.heldPointers_nodup,
    List.map_map, usedBytes]
  refine List.sum_le_sum fun block member => ?_
  obtain ⟨request, held, enough⟩ := invariant.fits block member
  simp only [Function.comp_apply, requestBytes, held, Option.getD_some]
  exact enough

/-- The usage counter is zero when no pointer is held. -/
theorem usedBytes_eq_zero_iff
    (invariant : HeapInvariant heap start blocks live) :
    usedBytes blocks = 0 ↔ heldPointers blocks = ∅ := by
  rw [← Finset.card_eq_zero, invariant.card_heldPointers,
    List.length_eq_zero_iff]
  constructor
  · intro noBytes
    rw [List.eq_nil_iff_forall_not_mem]
    intro block member
    have size := (invariant.chain.sizes block (mem_usedBlocks.mp member).1).2
    have counted : block.size ≤ usedBytes blocks :=
      List.le_sum_of_mem (List.mem_map_of_mem member)
    omega
  · intro noBlocks
    rw [usedBytes, noBlocks]
    rfl

/-- `kmalloc_stats` counts the free blocks and the blocks in use. -/
theorem countBlocks_heap
    (invariant : HeapInvariant heap start blocks live) :
    countBlocks heap.mem chainFuel heap.head ⟨0, 0⟩ ⟨0, 0⟩ =
      some (tally (unusedBlocks blocks), tally (usedBlocks blocks)) := by
  have whole : Chain heap.mem start ([] ++ blocks) := invariant.chain
  have total := invariant.chain.contiguous.sum_eq
  have heapBytes : heapSize = 1048576 := rfl
  have enough := invariant.chain.length_lt_chainFuel
  have fuel : chainFuel = 2 ^ 32 := by
    unfold chainFuel
    rfl
  have counted :
      countBlocks heap.mem chainFuel (blockPtr blocks.head?) ⟨0, 0⟩ ⟨0, 0⟩ = _ :=
    whole.countBlocks_eq enough (by simp only; omega) (by simp only; omega)
  rw [invariant.head_eq, counted]
  simp [BlockCount.plus]

theorem length_unused_add_used
    (invariant : HeapInvariant heap start blocks live) :
    (unusedBlocks blocks).length + (usedBlocks blocks).length < 2 ^ 32 := by
  have enough := invariant.chain.length_lt_chainFuel
  have counted : blocks.length = _ :=
    List.length_eq_length_filter_add fun block => block.isFree
  rw [chainFuel] at enough
  simp only [unusedBlocks, usedBlocks]
  omega

/-- The lock is taken and given back, so that the heap is as before. -/
theorem kmallocStats_eq
    (invariant : HeapInvariant heap start blocks live) :
    kmallocStats heap = some (blocksReport heap blocks, heap) := by
  have acquired : heap.acquire = some { heap with lock := true } := by
    rw [Heap.acquire, if_neg (by simp [invariant.unlocked])]
  have released : ({ heap with lock := true } : Heap).release = heap := by
    rw [Heap.release, ← invariant.unlocked]
  have counted := invariant.countBlocks_heap
  have fewBlocks := invariant.length_unused_add_used
  simp only [kmallocStats, acquired, counted, released, tally,
    wrap32_of_lt fewBlocks, Option.bind_eq_bind, Option.bind_some]
  rw [blocksReport, usedBytes, invariant.usage]
  rfl

theorem blocksReport_reports
    (invariant : HeapInvariant heap start blocks live)
    (coalesced : Coalesced blocks) :
    ReportsHeld ⟨heap, live⟩ (heldPointers blocks)
      (blocksReport heap blocks) := by
  have heapBytes : heapSize = 2 ^ 20 := by norm_num [heapSize, pageSize]
  have total := invariant.chain.contiguous.sum_eq
  have split := unusedBytes_add_usedBytes blocks
  constructor
  · exact invariant.card_heldPointers.symm
  · rw [invariant.card_heldPointers]
    exact coalesced.unusedBlocks_le
  · rfl
  · rfl
  · simp only [blocksReport]
    omega
  · exact invariant.requestBytes_le
  · rw [← invariant.usedBytes_eq_zero_iff, blocksReport]
    split
    · rename_i inUse
      exact iff_of_false (Option.some_ne_none _) (by omega)
    · rename_i unused
      exact iff_of_true rfl (by omega)

end HeapInvariant

/-! ## Whole runs -/

/--
In every state of a run `kmalloc_stats` returns and leaves the heap as it is.
It counts one block in use for each pointer that a client holds, and at most
one free block more.  The bytes in use are the usage counter; with the free
bytes they are the whole heap, and there is room in them for all that clients
have asked for.  The percentage is left out when nothing is held.
-/
theorem kmallocStats_reportsHeld
    {sys : Pmm.BuddySystem}
    (granted : HeapGranted sys)
    {mem : Memory}
    {run : HeapRun}
    (reached : HeapReachable sys mem run) :
    ∃ (report : KmallocReport) (held : Finset Nat),
      kmallocStats run.heap = some (report, run.heap) ∧
      (∀ ptr, ptr ∈ held ↔ run.live ptr ≠ none) ∧
      ReportsHeld run held report := by
  obtain ⟨blocks, invariant, coalesced⟩ := reached.coalesced granted
  exact ⟨blocksReport run.heap blocks, heldPointers blocks,
    invariant.kmallocStats_eq, fun _ => invariant.mem_heldPointers,
    invariant.blocksReport_reports coalesced⟩

theorem kmallocStats_reportsHeld_boot :
    ∃ (run : HeapRun) (ptr : Nat), run.live ptr = some 100 ∧
      ∃ (report : KmallocReport) (held : Finset Nat),
        kmallocStats run.heap = some (report, run.heap) ∧
        (∀ ptr, ptr ∈ held ↔ run.live ptr ≠ none) ∧
        ReportsHeld run held report := by
  obtain ⟨run, performed, ptr, held, _⟩ :=
    first_kmalloc bootSys_granted fun _ => 0
  exact ⟨run, ptr, held,
    kmallocStats_reportsHeld bootSys_granted
      (.call (.kmalloc 100) .init trivial performed)⟩

end MatrixOS.Kmalloc
