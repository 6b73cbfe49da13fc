import MatrixOS.KmallocCoalescing

namespace MatrixOS.Kmalloc

open ByteMemory Layout

/-!
# The heap invariant

The chain, the usage counter and the pointers held by clients fit together:
a pointer is live exactly when it points behind the header of a block in use,
and that block is large enough for the request.
-/

/-- The blocks in use. -/
def usedBlocks (blocks : List HeapBlock) : List HeapBlock :=
  blocks.filter fun block => !block.isFree

/-- Bytes of the blocks in use. -/
def usedBytes (blocks : List HeapBlock) : Nat :=
  ((usedBlocks blocks).map HeapBlock.size).sum

/-- The pointers clients hold, with the bytes they asked for. -/
abbrev Live := Nat → Option Nat

/-- The invariant of the heap, with its blocks and live pointers. -/
structure HeapInvariant
    (heap : Heap) (start : Nat) (blocks : List HeapBlock) (live : Live) :
    Prop where
  unlocked : heap.lock = false
  head : heap.head = start
  chain : Chain heap.mem start blocks
  usage : heap.currentUsage = usedBytes blocks
  owned : ∀ ptr, live ptr ≠ none →
    ∃ block ∈ usedBlocks blocks, ptr = block.addr + headerSize
  fits : ∀ block ∈ usedBlocks blocks, ∃ request,
    live (block.addr + headerSize) = some request ∧
      request + headerSize ≤ block.size

/-- No payload byte of a block in use has changed. -/
def PayloadsKept (blocks : List HeapBlock) (mem changed : Memory) : Prop :=
  ∀ block ∈ usedBlocks blocks, ∀ address ∈ block.payload,
    changed address = mem address

/-! ## Blocks in use -/

@[simp] theorem mem_usedBlocks {blocks : List HeapBlock} {block : HeapBlock} :
    block ∈ usedBlocks blocks ↔ block ∈ blocks ∧ block.isFree = false := by
  simp [usedBlocks]

@[simp] theorem usedBlocks_append (before after : List HeapBlock) :
    usedBlocks (before ++ after) = usedBlocks before ++ usedBlocks after :=
  List.filter_append ..

theorem usedBlocks_cons_of_free
    {block : HeapBlock}
    (free : block.isFree = true)
    (rest : List HeapBlock) :
    usedBlocks (block :: rest) = usedBlocks rest := by
  simp [usedBlocks, free]

theorem usedBlocks_cons_of_used
    {block : HeapBlock}
    (used : block.isFree = false)
    (rest : List HeapBlock) :
    usedBlocks (block :: rest) = block :: usedBlocks rest := by
  simp [usedBlocks, used]

/-- A forward merge joins free blocks only. -/
theorem usedBlocks_joinNext
    {block : HeapBlock}
    (free : block.isFree = true)
    (after : List HeapBlock) :
    (joinNext block after).1.isFree = true ∧
      usedBlocks (joinNext block after).2 = usedBlocks after := by
  cases after with
  | nil =>
      exact ⟨free, rfl⟩
  | cons next rest =>
      rw [joinNext]
      split
      · rename_i nextFree
        exact ⟨free, (usedBlocks_cons_of_free nextFree rest).symm⟩
      · exact ⟨free, rfl⟩

/-- A backward merge joins free blocks only. -/
theorem usedBlocks_joinPrev
    {block : HeapBlock}
    (free : block.isFree = true)
    (before : List HeapBlock) :
    usedBlocks (joinPrev block before) = usedBlocks before := by
  rcases List.eq_nil_or_concat' before with rfl | ⟨front, prev, rfl⟩
  · exact usedBlocks_cons_of_free free []
  · rw [joinPrev_append, usedBlocks_append, usedBlocks_append]
    congr 1
    split
    · rename_i prevFree
      rw [usedBlocks_cons_of_free prevFree]
      exact usedBlocks_cons_of_free (by exact prevFree) []
    · rename_i prevUsed
      have used : prev.isFree = false := by simpa using prevUsed
      rw [usedBlocks_cons_of_used used, usedBlocks_cons_of_used used,
        usedBlocks_cons_of_free free]

/-- A release takes one block out of use. -/
theorem usedBlocks_releaseBlocks
    (before after : List HeapBlock) (block : HeapBlock) :
    usedBlocks (releaseBlocks before block after) =
      usedBlocks before ++ usedBlocks after := by
  have isFree : ({ block with isFree := true } : HeapBlock).isFree = true := rfl
  have joined := usedBlocks_joinNext isFree after
  rw [releaseBlocks, usedBlocks_append, usedBlocks_joinPrev joined.1,
    joined.2]

/-- The block in use that an allocation makes. -/
def takenBlock (block : HeapBlock) (actualSize : Nat) : HeapBlock :=
  ⟨block.addr, takenSize block actualSize, false⟩

theorem usedBlocks_takeBlock (block : HeapBlock) (actualSize : Nat) :
    usedBlocks (takeBlock block actualSize) = [takenBlock block actualSize] := by
  rw [takeBlock, takenBlock, takenSize]
  split <;> rfl

theorem takenBlock_mem (block : HeapBlock) (actualSize : Nat) :
    takenBlock block actualSize ∈ takeBlock block actualSize := by
  rw [takeBlock, takenBlock, takenSize]
  split <;> simp

theorem takenBlock_used
    (before after : List HeapBlock)
    (block : HeapBlock)
    (actualSize : Nat) :
    takenBlock block actualSize ∈
      usedBlocks (before ++ (takeBlock block actualSize ++ after)) := by
  rw [usedBlocks_append, usedBlocks_append, usedBlocks_takeBlock]
  exact List.mem_append_right _ (List.mem_cons_self ..)

/-- An allocation leaves the blocks in use alone. -/
theorem usedBlocks_take_of_mem
    {before after : List HeapBlock} {block other : HeapBlock}
    (used : other ∈ usedBlocks (before ++ block :: after))
    (free : block.isFree = true)
    (actualSize : Nat) :
    other ∈ usedBlocks (before ++ (takeBlock block actualSize ++ after)) := by
  rw [usedBlocks_append, usedBlocks_cons_of_free free, List.mem_append] at used
  rw [usedBlocks_append, usedBlocks_append, List.mem_append, List.mem_append]
  exact used.imp_right Or.inr

/-- A release leaves the other blocks in use alone. -/
theorem usedBlocks_release_of_mem
    {before after : List HeapBlock} {block other : HeapBlock}
    (used : other ∈ usedBlocks (before ++ block :: after))
    (inUse : block.isFree = false)
    (different : other ≠ block) :
    other ∈ usedBlocks (releaseBlocks before block after) := by
  rw [usedBlocks_append, usedBlocks_cons_of_used inUse, List.mem_append] at used
  rw [usedBlocks_releaseBlocks, List.mem_append]
  exact used.imp_right fun inRest =>
    (List.mem_cons.mp inRest).resolve_left different

/-- An allocation adds the bytes of the block it takes. -/
theorem usedBytes_take
    (before after : List HeapBlock)
    {block : HeapBlock}
    (free : block.isFree = true)
    (actualSize : Nat) :
    usedBytes (before ++ (takeBlock block actualSize ++ after)) =
      usedBytes (before ++ block :: after) + takenSize block actualSize := by
  simp only [usedBytes, usedBlocks_append, usedBlocks_takeBlock,
    usedBlocks_cons_of_free free, List.map_append, List.map_cons,
    List.map_nil, List.sum_append, List.sum_cons, List.sum_nil, takenBlock]
  omega

theorem le_takenSize
    {block : HeapBlock} {actualSize : Nat}
    (fits : actualSize ≤ block.size) :
    actualSize ≤ takenSize block actualSize ∧
      takenSize block actualSize ≤ block.size := by
  rw [takenSize]
  split <;> omega

theorem Chain.usedBytes_le
    {mem : Memory} {start : Nat} {blocks : List HeapBlock}
    (chain : Chain mem start blocks) :
    usedBytes blocks ≤ heapSize := by
  have total := chain.contiguous.sum_eq
  have part : usedBytes blocks ≤ (blocks.map HeapBlock.size).sum :=
    List.Sublist.sum_le_sum (List.filter_sublist.map _) (by simp)
  omega

theorem actualSizeFor_eq
    {size : Nat}
    (small : size ≤ kmallocMaxSize) :
    actualSizeFor size = (size + 23) / 8 * 8 := by
  have bound : kmallocMaxSize = 4194304 := rfl
  have mask : not32 (8 - 1) = not32 (2 ^ 3 - 1) := rfl
  have small32 : wrap32 (size + 16) = size + 16 := wrap32_of_lt (by omega)
  rw [actualSizeFor, alignUp8, headerSize, small32, wrap32_of_lt (by omega),
    mask, and_not32_mask (by omega) (by omega)]
  omega

namespace HeapInvariant

variable {heap : Heap} {start : Nat} {live : Live}
variable {blocks before after : List HeapBlock} {block : HeapBlock}

/-- A live pointer points into a block in use. -/
theorem block_of_live
    (invariant : HeapInvariant heap start blocks live)
    {ptr request : Nat}
    (held : live ptr = some request) :
    ∃ block ∈ blocks, block.isFree = false ∧
      ptr = block.addr + headerSize ∧
      request + headerSize ≤ block.size := by
  obtain ⟨block, member, rfl⟩ := invariant.owned ptr (by simp [held])
  obtain ⟨same, found, enough⟩ := invariant.fits block member
  obtain rfl : request = same := Option.some.inj (held.symm.trans found)
  obtain ⟨listed, used⟩ := mem_usedBlocks.mp member
  exact ⟨block, listed, used, rfl, enough⟩

theorem ptr_arithmetic
    (invariant : HeapInvariant heap start blocks live)
    (member : block ∈ blocks) :
    dataFromHeader block.addr = block.addr + headerSize ∧
      headerFromData (block.addr + headerSize) = block.addr := by
  have size := (invariant.chain.sizes block member).2
  have bounds := invariant.chain.bounds member
  have heapRange := invariant.chain.inRange
  have range : block.addr + headerSize < 2 ^ 32 := by
    simp only [headerSize]
    omega
  refine ⟨wrap32_of_lt range, ?_⟩
  rw [headerFromData, sub32_of_le range (Nat.le_add_left _ _),
    Nat.add_sub_cancel_right]

/-- The heap may change any byte that is not in a header. -/
theorem withMemory
    (invariant : HeapInvariant heap start blocks live)
    {mem : Memory}
    (same : ∀ address, HeaderByte blocks address →
      mem address = heap.mem address) :
    HeapInvariant { heap with mem := mem } start blocks live where
  unlocked := invariant.unlocked
  head := invariant.head
  chain := invariant.chain.congr same
  usage := invariant.usage
  owned := invariant.owned
  fits := invariant.fits

/-! ## `kfree` -/

/-- The heap after `kfree` has left this memory. -/
def freedHeap (heap : Heap) (block : HeapBlock) (mem : Memory) : Heap :=
  { heap with
    mem := mem
    totalFreed := wrap32 (heap.totalFreed + (block.size - headerSize))
    currentUsage := heap.currentUsage - block.size }

theorem kfree_eq
    (invariant : HeapInvariant heap start blocks live)
    (member : block ∈ blocks)
    (used : block.isFree = false) :
    kfree heap (block.addr + headerSize) =
      some (freedHeap heap block (freedMemory heap.mem block)) := by
  have chain := invariant.chain
  have nonzero : block.addr + headerSize ≠ 0 := by
    simp only [headerSize]
    omega
  have inUse : ¬ (readHeader heap.mem block.addr).isFree ≠ 0 := by
    simp [chain.header_isFree member, used]
  have size := (chain.sizes block member).2
  have enough : block.size ≤ heap.currentUsage := by
    rw [invariant.usage]
    exact List.single_le_sum (by simp) _
      (List.mem_map.mpr ⟨block, mem_usedBlocks.mpr ⟨member, used⟩, rfl⟩)
  have usageRange : heap.currentUsage < 2 ^ 32 := by
    have bounded := chain.usedBytes_le
    have heapBytes : heapSize = 1048576 := rfl
    rw [invariant.usage]
    omega
  simp only [kfree, nonzero, ↓reduceIte, Heap.acquire, invariant.unlocked,
    Bool.false_eq_true, Option.bind_eq_bind, Option.bind_some,
    (invariant.ptr_arithmetic member).2, inUse, chain.header_size member,
    Heap.release]
  rw [sub32_of_le (by omega) (by simp only [headerSize]; omega),
    sub32_of_le usageRange enough]
  simp only [freedHeap, freedMemory, invariant.unlocked]

/-- Releasing the block of a live pointer keeps the invariant. -/
theorem freed
    {mem : Memory}
    (invariant : HeapInvariant heap start (before ++ block :: after) live)
    (used : block.isFree = false)
    (released : Chain mem start (releaseBlocks before block after)) :
    HeapInvariant (freedHeap heap block mem) start
      (releaseBlocks before block after)
      (Function.update live (block.addr + headerSize) none) := by
  have chain := invariant.chain
  refine ⟨invariant.unlocked, invariant.head, released, ?_, ?_, ?_⟩
  · have usage := invariant.usage
    simp only [usedBytes, usedBlocks_append, usedBlocks_cons_of_used used,
      List.map_append, List.map_cons, List.sum_append, List.sum_cons] at usage
    rw [usedBytes, usedBlocks_releaseBlocks, List.map_append, List.sum_append]
    simp only [freedHeap]
    omega
  · intro ptr held
    by_cases freed : ptr = block.addr + headerSize
    · simp [freed] at held
    · rw [Function.update_of_ne freed] at held
      obtain ⟨owner, member, rfl⟩ := invariant.owned ptr held
      refine ⟨owner, ?_, rfl⟩
      rw [usedBlocks_releaseBlocks]
      rw [usedBlocks_append, usedBlocks_cons_of_used used] at member
      rcases List.mem_append.mp member with inBefore | inRest
      · exact List.mem_append_left _ inBefore
      · rcases List.mem_cons.mp inRest with rfl | inAfter
        · exact absurd rfl freed
        · exact List.mem_append_right _ inAfter
  · intro other member
    rw [usedBlocks_releaseBlocks, List.mem_append] at member
    have different : other.addr + headerSize ≠ block.addr + headerSize := by
      have apart := chain.addr_ne
        (member.imp (fun inside => (mem_usedBlocks.mp inside).1)
          (fun inside => (mem_usedBlocks.mp inside).1))
      omega
    rw [Function.update_of_ne different]
    refine invariant.fits other ?_
    rw [usedBlocks_append, usedBlocks_cons_of_used used]
    rcases member with inBefore | inAfter
    · exact List.mem_append_left _ inBefore
    · exact List.mem_append_right _ (List.mem_cons_of_mem _ inAfter)

/-- `kfree` of a live pointer. -/
theorem kfree
    (invariant : HeapInvariant heap start (before ++ block :: after) live)
    (used : block.isFree = false) :
    ∃ next, Kmalloc.kfree heap (block.addr + headerSize) = some next ∧
      HeapInvariant next start (releaseBlocks before block after)
        (Function.update live (block.addr + headerSize) none) ∧
      PayloadsKept (before ++ block :: after) heap.mem next.mem := by
  obtain ⟨released, onlyHeaders⟩ := invariant.chain.release
  have result := invariant.kfree_eq (by simp) used
  generalize freedMemory heap.mem block = mem
    at released onlyHeaders result
  refine ⟨freedHeap heap block mem, result, invariant.freed used released, ?_⟩
  intro other member address inside
  exact onlyHeaders address
    (invariant.chain.payload_not_header (mem_usedBlocks.mp member).1 inside)

/-! ## `kmalloc` -/

/-- The heap after `kmalloc` has taken a block and left this memory. -/
def takenHeap
    (heap : Heap) (block : HeapBlock) (actualSize size : Nat) (mem : Memory) :
    Heap :=
  { heap with
    mem := mem
    totalAllocated := wrap32 (heap.totalAllocated + size)
    currentUsage := heap.currentUsage + takenSize block actualSize }

theorem head_eq
    (invariant : HeapInvariant heap start blocks live) :
    heap.head = blockPtr blocks.head? := by
  rw [invariant.head]
  have layout := invariant.chain.contiguous
  cases blocks with
  | nil =>
      have same : start = start + heapSize := layout
      have heapBytes : heapSize = 1048576 := rfl
      omega
  | cons block rest =>
      exact layout.1.symm

/-- `kmalloc` finds the best-fitting block. -/
theorem findBestFit_eq
    (invariant : HeapInvariant heap start blocks live)
    (actualSize : Nat) :
    findBestFit heap.mem actualSize chainFuel heap.head 0 =
      some (blockPtr (bestFitBlock actualSize blocks none)) := by
  have chain : Chain heap.mem start ([] ++ blocks) := invariant.chain
  have candidate : ∀ other ∈ (none : Option HeapBlock), other ∈ [] ++ blocks :=
    by simp
  rw [invariant.head_eq]
  exact chain.findBestFit_eq chain.length_lt_chainFuel candidate

theorem kmalloc_of_none
    (invariant : HeapInvariant heap start blocks live)
    {size : Nat}
    (refused : size = 0 ∨ kmallocMaxSize < size ∨
      bestFitBlock (actualSizeFor size) blocks none = none) :
    kmalloc heap size = some (0, heap) := by
  by_cases zero : size = 0
  · rw [kmalloc, if_pos zero]
  by_cases large : size > kmallocMaxSize
  · rw [kmalloc, if_neg zero, if_pos large]
  · have none : bestFitBlock (actualSizeFor size) blocks none = none := by
      rcases refused with isZero | isLarge | none
      · exact absurd isZero zero
      · exact absurd isLarge large
      · exact none
    have search := invariant.findBestFit_eq (actualSizeFor size)
    have unlocked := invariant.unlocked
    rw [none] at search
    obtain ⟨mem, lock, head, totalAllocated, totalFreed, currentUsage⟩ := heap
    simp only at search unlocked
    subst unlocked
    simp only [kmalloc, zero, large, ↓reduceIte, Heap.acquire, search,
      Bool.false_eq_true, Option.bind_eq_bind, Option.bind_some, blockPtr,
      Option.map_none, Option.getD_none, ne_eq, not_true_eq_false,
      Heap.release]

/-- The chain behind an allocation, with the numbers it computes. -/
theorem take
    (invariant : HeapInvariant heap start (before ++ block :: after) live)
    {size : Nat}
    (positive : size ≠ 0)
    (small : size ≤ kmallocMaxSize)
    (free : block.isFree = true) :
    Chain (takeMemory heap.mem block (actualSizeFor size)) start
        (before ++ (takeBlock block (actualSizeFor size) ++ after)) ∧
      size + headerSize ≤ actualSizeFor size ∧
      24 ≤ actualSizeFor size ∧
      wrap32 (actualSizeFor size + headerSize + kmallocMinSize) =
        actualSizeFor size + headerSize + kmallocMinSize ∧
      wrap32 (heap.currentUsage + takenSize block (actualSizeFor size)) =
        heap.currentUsage + takenSize block (actualSizeFor size) := by
  have actual := actualSizeFor_eq small
  have maxBytes : kmallocMaxSize = 4194304 := rfl
  have heapBytes : heapSize = 1048576 := rfl
  have least : 24 ≤ actualSizeFor size := by omega
  have aligned : 8 ∣ actualSizeFor size := ⟨(size + 23) / 8, by omega⟩
  have chain := invariant.chain.take aligned least
  have used := usedBytes_take before after free (actualSizeFor size)
  have bounded := chain.usedBytes_le
  have usage := invariant.usage
  refine ⟨chain, by simp only [headerSize]; omega, least, ?_, ?_⟩
  · exact wrap32_of_lt (by simp only [headerSize, kmallocMinSize]; omega)
  · exact wrap32_of_lt (by omega)

theorem kmalloc_of_some
    (invariant : HeapInvariant heap start (before ++ block :: after) live)
    {size : Nat}
    (positive : size ≠ 0)
    (small : size ≤ kmallocMaxSize)
    (found : bestFitBlock (actualSizeFor size) (before ++ block :: after) none =
      some block)
    (free : block.isFree = true)
    (fits : actualSizeFor size ≤ block.size) :
    kmalloc heap size =
      some (block.addr + headerSize,
        takenHeap heap block (actualSizeFor size) size
          (fill (takeMemory heap.mem block (actualSizeFor size))
            (block.addr + headerSize) size 0)) := by
  have chain := invariant.chain
  have member : block ∈ before ++ block :: after := by simp
  have notLarge : ¬ size > kmallocMaxSize := by omega
  have bounds := chain.bounds member
  have heapRange := chain.inRange
  have search := invariant.findBestFit_eq (actualSizeFor size)
  have nonzero := chain.addr_ne_zero member
  rw [found] at search
  obtain ⟨taken, enough, least, room, usage⟩ :=
    invariant.take positive small free
  have clearing :
      memsetFlat (takeMemory heap.mem block (actualSizeFor size))
          (block.addr + headerSize) 0 size =
        fill (takeMemory heap.mem block (actualSizeFor size))
          (block.addr + headerSize) size 0 :=
    memsetFlat_eq (by omega)
  have newSize :
      (readHeader
        (fill (takeMemory heap.mem block (actualSizeFor size))
          (block.addr + headerSize) size 0) block.addr).size =
        takenSize block (actualSizeFor size) := by
    rw [readHeader_congr (agree_fill (Or.inl (Nat.le_refl _)))]
    exact taken.header_size (show takenBlock block (actualSizeFor size) ∈ _ by
      simp [takenBlock_mem])
  have memory :
      setIsFree
          (if block.size ≥ actualSizeFor size + headerSize + kmallocMinSize then
            splitBlock heap.mem block.addr (actualSizeFor size)
          else
            heap.mem)
          block.addr 0 =
        takeMemory heap.mem block (actualSizeFor size) :=
    rfl
  simp only [kmalloc, positive, notLarge, ↓reduceIte, Heap.acquire, search,
    invariant.unlocked, Bool.false_eq_true, Option.bind_eq_bind,
    Option.bind_some, blockPtr, Option.map_some, Option.getD_some, ne_eq,
    nonzero, not_false_eq_true, chain.header_size member, room,
    (invariant.ptr_arithmetic member).1, memory, clearing, newSize,
    usage, Heap.release]
  rw [takenHeap, invariant.unlocked]

/-- Taking a free block for a request keeps the invariant. -/
theorem taken
    {mem : Memory}
    {actualSize size : Nat}
    (invariant : HeapInvariant heap start (before ++ block :: after) live)
    (free : block.isFree = true)
    (enough : size + headerSize ≤ actualSize)
    (fits : actualSize ≤ block.size)
    (chain : Chain mem start
      (before ++ (takeBlock block actualSize ++ after))) :
    HeapInvariant (takenHeap heap block actualSize size mem) start
      (before ++ (takeBlock block actualSize ++ after))
      (Function.update live (block.addr + headerSize) (some size)) := by
  refine ⟨invariant.unlocked, invariant.head, chain, ?_, ?_, ?_⟩
  · rw [usedBytes_take before after free, takenHeap, invariant.usage]
  · intro ptr held
    simp only [usedBlocks_append, usedBlocks_takeBlock, List.mem_append,
      List.mem_singleton]
    by_cases new : ptr = block.addr + headerSize
    · exact ⟨takenBlock block actualSize, by simp, new⟩
    · rw [Function.update_of_ne new] at held
      obtain ⟨owner, member, rfl⟩ := invariant.owned ptr held
      rw [usedBlocks_append, usedBlocks_cons_of_free free,
        List.mem_append] at member
      refine ⟨owner, ?_, rfl⟩
      rcases member with inBefore | inAfter
      · exact Or.inl inBefore
      · exact Or.inr (Or.inr inAfter)
  · intro other member
    simp only [usedBlocks_append, usedBlocks_takeBlock, List.mem_append,
      List.mem_singleton] at member
    rcases member with inBefore | rfl | inAfter
    · have apart := invariant.chain.addr_ne
        (Or.inl (mem_usedBlocks.mp inBefore).1)
      rw [Function.update_of_ne (by omega)]
      exact invariant.fits other (by simp [mem_usedBlocks.mp inBefore])
    · exact ⟨size, Function.update_self .., enough.trans (le_takenSize fits).1⟩
    · have apart := invariant.chain.addr_ne
        (Or.inr (mem_usedBlocks.mp inAfter).1)
      rw [Function.update_of_ne (by omega)]
      exact invariant.fits other (by simp [mem_usedBlocks.mp inAfter])

/-- The bytes `kmalloc` clears are payload of the block it takes. -/
theorem cleared_subset
    (invariant : HeapInvariant heap start (before ++ block :: after) live)
    {size : Nat}
    (positive : size ≠ 0)
    (small : size ≤ kmallocMaxSize)
    (free : block.isFree = true)
    (fits : actualSizeFor size ≤ block.size) :
    {byte | InRange (block.addr + headerSize) size byte} ⊆
        (takenBlock block (actualSizeFor size)).payload ∧
      (takenBlock block (actualSizeFor size)).payload ⊆ block.payload := by
  obtain ⟨_, enough, _⟩ := invariant.take positive small free
  have bounds := le_takenSize fits
  constructor
  · rintro byte ⟨lower, upper⟩
    exact ⟨lower, by simp only [takenBlock]; omega⟩
  · rintro byte ⟨lower, upper⟩
    simp only [takenBlock] at lower upper
    exact ⟨lower, by omega⟩

/--
`kmalloc` takes the block it has found, clears the requested bytes and leaves
the payloads of the other blocks alone.
-/
theorem kmalloc_takes
    (invariant : HeapInvariant heap start (before ++ block :: after) live)
    {size : Nat}
    (positive : size ≠ 0)
    (small : size ≤ kmallocMaxSize)
    (found : bestFitBlock (actualSizeFor size) (before ++ block :: after) none =
      some block)
    (free : block.isFree = true)
    (fits : actualSizeFor size ≤ block.size) :
    ∃ next,
      Kmalloc.kmalloc heap size = some (block.addr + headerSize, next) ∧
      HeapInvariant next start
        (before ++ (takeBlock block (actualSizeFor size) ++ after))
        (Function.update live (block.addr + headerSize) (some size)) ∧
      (∀ address, InRange (block.addr + headerSize) size address →
        next.mem address = 0) ∧
      ∀ other ∈ before ++ after, ∀ address ∈ other.payload,
        next.mem address = heap.mem address := by
  obtain ⟨chain, enough, least, _, _⟩ := invariant.take positive small free
  have result := invariant.kmalloc_of_some positive small found free fits
  obtain ⟨clearedTaken, takenOld⟩ :=
    invariant.cleared_subset positive small free fits
  have cleared : Chain
      (fill (takeMemory heap.mem block (actualSizeFor size))
        (block.addr + headerSize) size 0) start
      (before ++ (takeBlock block (actualSizeFor size) ++ after)) := by
    refine chain.congr fun address headerByte => fill_of_not_inRange ?_
    intro inside
    exact chain.payload_not_header
      (show takenBlock block (actualSizeFor size) ∈ _ by simp [takenBlock_mem])
      (clearedTaken inside) headerByte
  refine ⟨_, result, invariant.taken free enough fits cleared,
    fun _ inside => fill_of_inRange inside, ?_⟩
  intro other member address inside
  have listed : other ∈ before ++ block :: after := by
    rcases List.mem_append.mp member with inBefore | inAfter
    · exact List.mem_append_left _ inBefore
    · exact List.mem_append_right _ (List.mem_cons_of_mem _ inAfter)
  have different : other ≠ block := by
    rintro rfl
    exact invariant.chain.addr_ne (List.mem_append.mp member) rfl
  have outside : address ∉ block.payload :=
    Set.disjoint_left.mp
      (invariant.chain.payload_disjoint listed (by simp) different) inside
  have notCleared : ¬ InRange (block.addr + headerSize) size address :=
    fun clearedByte => outside (takenOld (clearedTaken clearedByte))
  exact (fill_of_not_inRange notCleared).trans
    (invariant.chain.take_frame least
      (invariant.chain.payload_not_header listed inside) outside)

/-- A block in use is another one than a free block next to it in the list. -/
theorem mem_of_used
    {other : HeapBlock}
    (used : other ∈ usedBlocks (before ++ block :: after))
    (free : block.isFree = true) :
    other ∈ before ++ after := by
  rw [usedBlocks_append, usedBlocks_cons_of_free free, ← usedBlocks_append]
    at used
  exact (mem_usedBlocks.mp used).1

/-- Nobody holds the pointer to a free block. -/
theorem live_of_free
    (invariant : HeapInvariant heap start (before ++ block :: after) live)
    (free : block.isFree = true) :
    live (block.addr + headerSize) = none := by
  by_contra held
  obtain ⟨owner, member, same⟩ := invariant.owned _ held
  exact invariant.chain.addr_ne (List.mem_append.mp (mem_of_used member free))
    (Nat.add_right_cancel same).symm

/-- What is taken of a free block lies apart from the blocks in use. -/
theorem takenBlock_disjoint
    (invariant : HeapInvariant heap start (before ++ block :: after) live)
    (free : block.isFree = true)
    {actualSize : Nat}
    (within : takenSize block actualSize ≤ block.size) :
    ∀ other ∈ usedBlocks (before ++ block :: after),
      Disjoint (takenBlock block actualSize).payload other.payload := by
  intro other used
  have different : block ≠ other := by
    rintro rfl
    simp [free] at used
  have inside : (takenBlock block actualSize).payload ⊆ block.payload := by
    rintro byte ⟨lower, upper⟩
    simp only [takenBlock] at lower upper
    exact ⟨lower, by omega⟩
  exact (invariant.chain.payload_disjoint
    (show block ∈ before ++ block :: after by simp)
    (mem_usedBlocks.mp used).1 different).mono_left inside

/--
`kmalloc` either fails and changes nothing, or takes a free block, clears the
requested bytes and leaves every block in use alone.
-/
theorem kmalloc
    (invariant : HeapInvariant heap start blocks live)
    (size : Nat) :
    Kmalloc.kmalloc heap size = some (0, heap) ∨
      ∃ before block after next,
        blocks = before ++ block :: after ∧
        block.isFree = true ∧
        size + headerSize ≤ takenSize block (actualSizeFor size) ∧
        takenSize block (actualSizeFor size) ≤ block.size ∧
        Kmalloc.kmalloc heap size = some (block.addr + headerSize, next) ∧
        HeapInvariant next start
          (before ++ (takeBlock block (actualSizeFor size) ++ after))
          (Function.update live (block.addr + headerSize) (some size)) ∧
        (∀ address, InRange (block.addr + headerSize) size address →
          next.mem address = 0) ∧
        PayloadsKept blocks heap.mem next.mem := by
  by_cases zero : size = 0
  · exact Or.inl (invariant.kmalloc_of_none (Or.inl zero))
  by_cases large : kmallocMaxSize < size
  · exact Or.inl (invariant.kmalloc_of_none (Or.inr (Or.inl large)))
  cases found : bestFitBlock (actualSizeFor size) blocks none with
  | none =>
      exact Or.inl (invariant.kmalloc_of_none (Or.inr (Or.inr found)))
  | some block =>
      right
      obtain ⟨member, free, fits⟩ :=
        (bestFitBlock_spec found).resolve_left (by simp)
      obtain ⟨before, after, rfl⟩ := List.append_of_mem member
      have small : size ≤ kmallocMaxSize := by omega
      have enough := (invariant.take zero small free).2.1
      have bounds := le_takenSize fits
      obtain ⟨next, result, kept, zeros, frame⟩ :=
        invariant.kmalloc_takes zero small found free fits
      exact ⟨before, block, after, next, rfl, free, enough.trans bounds.1,
        bounds.2, result, kept, zeros,
        fun other used => frame other (mem_of_used used free)⟩

/-! ## `krealloc` -/

/-- A live pointer may be kept for a request that still fits. -/
theorem resized
    (invariant : HeapInvariant heap start blocks live)
    {size : Nat}
    (member : block ∈ usedBlocks blocks)
    (fits : size + headerSize ≤ block.size) :
    HeapInvariant heap start blocks
      (Function.update live (block.addr + headerSize) (some size)) where
  unlocked := invariant.unlocked
  head := invariant.head
  chain := invariant.chain
  usage := invariant.usage
  owned := by
    intro ptr held
    by_cases same : ptr = block.addr + headerSize
    · exact ⟨block, member, same⟩
    · rw [Function.update_of_ne same] at held
      exact invariant.owned ptr held
  fits := by
    intro other otherMember
    by_cases same : other.addr + headerSize = block.addr + headerSize
    · obtain ⟨before, after, shape⟩ :=
        List.append_of_mem (mem_usedBlocks.mp member).1
      have chain := invariant.chain
      have listed := (mem_usedBlocks.mp otherMember).1
      rw [shape] at chain listed
      have equal : other = block := by
        by_contra different
        refine chain.addr_ne ?_ (Nat.add_right_cancel same)
        simpa [different] using listed
      subst equal
      exact ⟨size, Function.update_self .., fits⟩
    · rw [Function.update_of_ne same]
      exact invariant.fits other otherMember

/-- The copy of `krealloc` into a block it has just allocated. -/
theorem copied
    (invariant : HeapInvariant heap start blocks live)
    {source target : HeapBlock}
    (sourceMember : source ∈ blocks)
    (targetMember : target ∈ blocks)
    (different : source ≠ target)
    {count : Nat}
    (sourceFits : count + headerSize ≤ source.size)
    (targetFits : count + headerSize ≤ target.size) :
    memcpyFlat heap.mem (target.addr + headerSize)
        (source.addr + headerSize) count =
      transfer heap.mem (target.addr + headerSize)
        (source.addr + headerSize) count ∧
    HeapInvariant
      { heap with
        mem := transfer heap.mem (target.addr + headerSize)
          (source.addr + headerSize) count }
      start blocks live := by
  have chain := invariant.chain
  have positive : ∀ block ∈ blocks, 0 < block.size := fun block member =>
    Nat.lt_of_lt_of_le (by omega) (chain.sizes block member).2
  have apart := chain.contiguous.apart positive sourceMember targetMember
    different
  have sourceBounds := chain.bounds sourceMember
  have targetBounds := chain.bounds targetMember
  have heapRange := chain.inRange
  constructor
  · exact memcpyFlat_eq (by omega) (by omega) (by omega)
  · refine invariant.withMemory fun address headerByte =>
      transfer_of_not_inRange fun inside => ?_
    have upper := inside.2
    exact chain.payload_not_header targetMember ⟨inside.1, by omega⟩
      headerByte

/-- The bytes of a released block belong to free blocks. -/
theorem free_of_released
    {mem : Memory}
    (chain : Chain heap.mem start (before ++ block :: after))
    (released : Chain mem start (releaseBlocks before block after))
    {address : Nat}
    (inside : address ∈ extent HeapBlock.addr HeapBlock.size block) :
    ∃ other ∈ releaseBlocks before block after, other.isFree = true ∧
      address ∈ extent HeapBlock.addr HeapBlock.size other := by
  have listed : block ∈ before ++ block :: after := by simp
  have inHeap := (chain.contiguous.covered address).mpr ⟨block, listed, inside⟩
  obtain ⟨other, member, holds⟩ :=
    (released.contiguous.covered address).mp inHeap
  refine ⟨other, member, ?_, holds⟩
  -- the blocks in use after the release are other blocks of the old chain
  by_contra notFree
  have used : other ∈ usedBlocks (releaseBlocks before block after) :=
    mem_usedBlocks.mpr ⟨member, by simpa using notFree⟩
  rw [usedBlocks_releaseBlocks, List.mem_append] at used
  have place : other ∈ before ∨ other ∈ after :=
    used.imp (fun inBefore => (mem_usedBlocks.mp inBefore).1)
      (fun inAfter => (mem_usedBlocks.mp inAfter).1)
  have otherListed : other ∈ before ++ block :: after := by
    rcases place with inBefore | inAfter
    · simp [inBefore]
    · simp [inAfter]
  obtain rfl : other = block :=
    chain.contiguous.eq_of_mem_extent otherListed listed holds inside
  exact chain.addr_ne place rfl

/-- What `krealloc` leaves behind when it moves a block to `newPtr`. -/
structure Moved
    (heap : Heap) (start : Nat) (blocks : List HeapBlock) (live : Live)
    (source : HeapBlock) (size newPtr : Nat)
    (next : Heap) (blocks' : List HeapBlock) : Prop where
  nonzero : newPtr ≠ 0
  fresh : live newPtr = none
  invariant : HeapInvariant next start blocks'
    (Function.update (Function.update live newPtr (some size))
      (source.addr + headerSize) none)
  kept : PayloadsKept blocks heap.mem next.mem
  coalesced : Coalesced blocks → Coalesced blocks'
  target : ∃ taken ∈ usedBlocks blocks', newPtr = taken.addr + headerSize ∧
    ∀ other ∈ usedBlocks blocks, Disjoint taken.payload other.payload
  copied : ∀ offset < source.size - headerSize,
    next.mem (newPtr + offset) = heap.mem (source.addr + headerSize + offset)
  released : ∀ address ∈ extent HeapBlock.addr HeapBlock.size source,
    ∃ block ∈ blocks', block.isFree = true ∧
      address ∈ extent HeapBlock.addr HeapBlock.size block

/-- What `krealloc` computes from the header of a block. -/
theorem oldSize_eq
    (invariant : HeapInvariant heap start blocks live)
    {source : HeapBlock}
    (listed : source ∈ blocks) :
    source.addr + headerSize ≠ 0 ∧
      sub32 (readHeader heap.mem source.addr).size headerSize =
        source.size - headerSize := by
  have sourceSize := (invariant.chain.sizes source listed).2
  have sourceBounds := invariant.chain.bounds listed
  have heapRange := invariant.chain.inRange
  have positive := invariant.chain.positive
  rw [invariant.chain.header_size listed]
  simp only [headerSize]
  exact ⟨by omega, sub32_of_le (by omega) (by omega)⟩

/-- A request that fits into the block is granted in place. -/
theorem krealloc_fits
    (invariant : HeapInvariant heap start blocks live)
    {source : HeapBlock}
    (listed : source ∈ blocks)
    {size : Nat}
    (positive : size ≠ 0)
    (fits : size + headerSize ≤ source.size) :
    krealloc heap (source.addr + headerSize) size =
      some (source.addr + headerSize, heap) := by
  obtain ⟨nonzero, oldSize⟩ := invariant.oldSize_eq listed
  have enough : size ≤ source.size - headerSize := by omega
  simp only [krealloc, nonzero, positive, ↓reduceIte,
    (invariant.ptr_arithmetic listed).2, oldSize, enough]

/-- The call of `krealloc` behind its checks. -/
theorem krealloc_eq
    (invariant : HeapInvariant heap start blocks live)
    {source : HeapBlock}
    (listed : source ∈ blocks)
    {size : Nat}
    (grows : source.size < size + headerSize) :
    krealloc heap (source.addr + headerSize) size =
      (Kmalloc.kmalloc heap size).bind fun (newPtr, heap) =>
        if newPtr = 0 then
          some (0, heap)
        else
          (Kmalloc.kfree
            { heap with
              mem := memcpyFlat heap.mem newPtr (source.addr + headerSize)
                (source.size - headerSize) }
            (source.addr + headerSize)).bind
            fun heap => some (newPtr, heap) := by
  have sourceSize := (invariant.chain.sizes source listed).2
  obtain ⟨ptrNonzero, oldSize⟩ := invariant.oldSize_eq listed
  have sizeNonzero : size ≠ 0 := by
    simp only [headerSize] at grows
    omega
  have moves : ¬ size ≤ source.size - headerSize := by omega
  simp only [krealloc, ptrNonzero, sizeNonzero, ↓reduceIte,
    (invariant.ptr_arithmetic listed).2, oldSize, moves,
    Option.bind_eq_bind]

/-- The heap between the copy of `krealloc` and the release of the old block. -/
def copiedHeap (middle : Heap) (block source : HeapBlock) : Heap :=
  { middle with
    mem := transfer middle.mem (block.addr + headerSize)
      (source.addr + headerSize) (source.size - headerSize) }

@[simp] theorem copiedHeap_mem (middle : Heap) (block source : HeapBlock) :
    (copiedHeap middle block source).mem =
      transfer middle.mem (block.addr + headerSize)
        (source.addr + headerSize) (source.size - headerSize) :=
  rfl

/-- The copy writes only into the payload of the block that has been taken. -/
theorem copiedHeap_outside
    {middle : Heap} {block source : HeapBlock} {actualSize address : Nat}
    (fits : source.size ≤ takenSize block actualSize)
    (outside : address ∉ (takenBlock block actualSize).payload) :
    (copiedHeap middle block source).mem address = middle.mem address := by
  refine transfer_of_not_inRange fun copied => ?_
  obtain ⟨lower, upper⟩ := copied
  exact outside ⟨lower, by simp only [takenBlock]; omega⟩

/-- The copy puts the old bytes at the same offsets. -/
theorem copiedHeap_offset
    {middle : Heap} {block source : HeapBlock} {offset : Nat}
    (inside : offset < source.size - headerSize) :
    (copiedHeap middle block source).mem (block.addr + headerSize + offset) =
      middle.mem (source.addr + headerSize + offset) := by
  have inCopy : InRange (block.addr + headerSize) (source.size - headerSize)
      (block.addr + headerSize + offset) :=
    ⟨by omega, by omega⟩
  rw [copiedHeap_mem, transfer_of_inRange inCopy, Nat.add_sub_cancel_left]

/-- `krealloc` up to the release of the old block. -/
theorem krealloc_copied
    (invariant : HeapInvariant heap start (before ++ block :: after) live)
    {source : HeapBlock}
    (sourceMember : source ∈ usedBlocks (before ++ block :: after))
    {size : Nat}
    (grows : source.size < size + headerSize)
    (free : block.isFree = true)
    (enough : size + headerSize ≤ takenSize block (actualSizeFor size))
    {middle : Heap}
    (result : Kmalloc.kmalloc heap size =
      some (block.addr + headerSize, middle))
    (grown : HeapInvariant middle start
      (before ++ (takeBlock block (actualSizeFor size) ++ after))
      (Function.update live (block.addr + headerSize) (some size))) :
    source ≠ takenBlock block (actualSizeFor size) ∧
      HeapInvariant (copiedHeap middle block source) start
        (before ++ (takeBlock block (actualSizeFor size) ++ after))
        (Function.update live (block.addr + headerSize) (some size)) ∧
      krealloc heap (source.addr + headerSize) size =
        (Kmalloc.kfree (copiedHeap middle block source)
          (source.addr + headerSize)).bind
          fun heap => some (block.addr + headerSize, heap) := by
  obtain ⟨listed, _⟩ := mem_usedBlocks.mp sourceMember
  have sourceSize := (invariant.chain.sizes source listed).2
  have inRest := List.mem_append.mp (mem_of_used sourceMember free)
  have stillListed := (mem_usedBlocks.mp
    (usedBlocks_take_of_mem sourceMember free (actualSizeFor size))).1
  have takenListed : takenBlock block (actualSizeFor size) ∈
      before ++ (takeBlock block (actualSizeFor size) ++ after) := by
    simp [takenBlock_mem]
  have newDifferent : source ≠ takenBlock block (actualSizeFor size) := by
    rintro rfl
    exact invariant.chain.addr_ne inRest rfl
  have sourceFits :
      source.size - headerSize + headerSize ≤ source.size := by
    simp only [headerSize]
    omega
  have targetFits :
      source.size - headerSize + headerSize ≤
        (takenBlock block (actualSizeFor size)).size := by
    simp only [takenBlock]
    omega
  have nonzero : block.addr + headerSize ≠ 0 := by
    simp only [headerSize]
    omega
  obtain ⟨copy, copiedInvariant⟩ := grown.copied stillListed takenListed
    newDifferent sourceFits targetFits
  refine ⟨newDifferent, copiedInvariant, ?_⟩
  rw [invariant.krealloc_eq listed grows, result]
  simp only [Option.bind_some, nonzero, ↓reduceIte]
  simp only [takenBlock] at copy
  rw [copy]
  rfl

/-- `krealloc` into the free block that `kmalloc` takes. -/
theorem krealloc_moves
    (invariant : HeapInvariant heap start (before ++ block :: after) live)
    {source : HeapBlock}
    (sourceMember : source ∈ usedBlocks (before ++ block :: after))
    {size : Nat}
    (grows : source.size < size + headerSize)
    (free : block.isFree = true)
    (enough : size + headerSize ≤ takenSize block (actualSizeFor size))
    (within : takenSize block (actualSizeFor size) ≤ block.size)
    {middle : Heap}
    (result : Kmalloc.kmalloc heap size =
      some (block.addr + headerSize, middle))
    (grown : HeapInvariant middle start
      (before ++ (takeBlock block (actualSizeFor size) ++ after))
      (Function.update live (block.addr + headerSize) (some size)))
    (kept : PayloadsKept (before ++ block :: after) heap.mem middle.mem) :
    ∃ next blocks',
      krealloc heap (source.addr + headerSize) size =
        some (block.addr + headerSize, next) ∧
      Moved heap start (before ++ block :: after) live source size
        (block.addr + headerSize) next blocks' := by
  obtain ⟨listed, inUse⟩ := mem_usedBlocks.mp sourceMember
  have sourceSize := (invariant.chain.sizes source listed).2
  have stillUsed : ∀ other ∈ usedBlocks (before ++ block :: after),
      other ∈ usedBlocks
        (before ++ (takeBlock block (actualSizeFor size) ++ after)) :=
    fun other used => usedBlocks_take_of_mem used free (actualSizeFor size)
  have takenUsed : takenBlock block (actualSizeFor size) ∈ usedBlocks
      (before ++ (takeBlock block (actualSizeFor size) ++ after)) :=
    takenBlock_used before after block (actualSizeFor size)
  obtain ⟨newDifferent, copiedInvariant, call⟩ :=
    invariant.krealloc_copied sourceMember grows free enough result grown
  have apart := invariant.takenBlock_disjoint free within
  have fresh := invariant.live_of_free free
  have nonzero : block.addr + headerSize ≠ 0 := by
    simp only [headerSize]
    omega
  obtain ⟨front, back, shape⟩ :=
    List.append_of_mem (mem_usedBlocks.mp (stillUsed source sourceMember)).1
  rw [shape] at copiedInvariant stillUsed takenUsed
  obtain ⟨next, released, final, finalKept⟩ := copiedInvariant.kfree inUse
  have stays : takenBlock block (actualSizeFor size) ∈
      usedBlocks (releaseBlocks front source back) :=
    usedBlocks_release_of_mem takenUsed inUse newDifferent.symm
  refine ⟨next, releaseBlocks front source back, ?_, ?_⟩
  · rw [call, released]
    rfl
  · refine ⟨nonzero, fresh, final, ?_, ?_, ⟨_, stays, rfl, apart⟩, ?_,
      fun address inside =>
        free_of_released copiedInvariant.chain final.chain inside⟩
    · intro other used address inside
      rw [finalKept other (stillUsed other used) address inside,
        ← kept other used address inside]
      exact copiedHeap_outside (by omega)
        (Set.disjoint_right.mp (apart other used) inside)
    · intro coalesced
      have taken := coalesced_takeBlock coalesced free (actualSizeFor size)
      rw [shape] at taken
      exact coalesced_releaseBlocks taken
    · intro offset inside
      have inSource : source.addr + headerSize + offset ∈ source.payload :=
        ⟨by omega, by omega⟩
      have inTaken : block.addr + headerSize + offset ∈
          (takenBlock block (actualSizeFor size)).payload :=
        ⟨by simp only [takenBlock]; omega, by simp only [takenBlock] at *; omega⟩
      rw [finalKept _ takenUsed _ inTaken, ← kept _ sourceMember _ inSource]
      exact copiedHeap_offset inside

/--
`krealloc` of a live pointer that has to move: it fails and changes nothing,
or the old bytes are in the new block and the old block is released.
-/
theorem krealloc_of_lt
    (invariant : HeapInvariant heap start blocks live)
    {source : HeapBlock}
    (sourceMember : source ∈ usedBlocks blocks)
    {size : Nat}
    (grows : source.size < size + headerSize) :
    (Kmalloc.kmalloc heap size = some (0, heap) ∧
      krealloc heap (source.addr + headerSize) size = some (0, heap)) ∨
      ∃ newPtr middle next blocks',
        Kmalloc.kmalloc heap size = some (newPtr, middle) ∧
        krealloc heap (source.addr + headerSize) size = some (newPtr, next) ∧
        Moved heap start blocks live source size newPtr next blocks' := by
  rcases invariant.kmalloc size with failed |
    ⟨before, block, after, middle, rfl, free, enough, within, result, grown, _, kept⟩
  · left
    refine ⟨failed, ?_⟩
    rw [invariant.krealloc_eq (mem_usedBlocks.mp sourceMember).1 grows, failed]
    rfl
  · right
    obtain ⟨next, blocks', moved, holds⟩ :=
      invariant.krealloc_moves sourceMember grows free enough within result
        grown kept
    exact ⟨_, middle, next, blocks', result, moved, holds⟩

end HeapInvariant

end MatrixOS.Kmalloc
