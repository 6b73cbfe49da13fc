import MatrixOS.KmallocBestFit
import MatrixOS.KmallocRelease

namespace MatrixOS.Kmalloc

open ByteMemory Layout

/-!
# Freeing twice

`kfree` recognises a second release by the `is_free` byte of the header in
front of the pointer.  After a merge this header is an ordinary part of a free
block, and after that it can become payload of another one.
-/

/-! ## What is claimed -/

/-- The chain, the counters and the payloads of the live pointers are the same. -/
structure Unchanged (run : HeapRun) (next : Heap) : Prop where
  chain : chainBlocks next = chainBlocks run.heap
  totalAllocated : next.totalAllocated = run.heap.totalAllocated
  totalFreed : next.totalFreed = run.heap.totalFreed
  currentUsage : next.currentUsage = run.heap.currentUsage
  payloads : ∀ ptr, run.live ptr ≠ none → ∀ byte ∈ payload run.heap ptr,
    next.mem byte = run.heap.mem byte

/-- Freeing the pointer returns and changes nothing. -/
def Caught (run : HeapRun) (ptr : Nat) : Prop :=
  ∃ next, kfree run.heap ptr = some next ∧ Unchanged run next

/--
The states of the runs in which a live pointer has been freed and not been
returned again; `holds` is asked of every state since.
-/
inductive Retired
    (sys : Pmm.BuddySystem) (mem : Memory) (holds : HeapRun → Prop)
    (ptr : Nat) : HeapRun → Prop
  | freed {run next : HeapRun}
      (reached : HeapReachable sys mem run)
      (held : run.live ptr ≠ none)
      (performed : (HeapCall.kfree ptr).perform run = some next) :
      Retired sys mem holds ptr next
  | call {run next : HeapRun} (request : HeapCall)
      (retired : Retired sys mem holds ptr run)
      (permitted : request.Permitted run)
      (performed : request.perform run = some next)
      (notReturned : next.live ptr = none)
      (kept : holds next) :
      Retired sys mem holds ptr next

theorem Retired.reached
    {sys : Pmm.BuddySystem} {mem : Memory} {holds : HeapRun → Prop}
    {ptr : Nat} {run : HeapRun}
    (retired : Retired sys mem holds ptr run) :
    HeapReachable sys mem run := by
  induction retired with
  | freed reached held performed =>
      exact .call (.kfree ptr) reached (Or.inr held) performed
  | call request _ permitted performed _ _ inductionHypothesis =>
      exact .call request inductionHypothesis permitted performed

/-! ## The check of `kfree` -/

/-- The flag of a header is one byte. -/
theorem isFree_ne_zero_iff
    {mem : Memory} {header : Nat} :
    (readHeader mem header).isFree ≠ 0 ↔ mem (header + 4) ≠ 0 := by
  have flag : (readHeader mem header).isFree = (mem (header + 4)).toNat := by
    simp [readHeader, load]
  rw [flag, ne_eq, ne_eq, ← UInt8.toNat_inj]
  rfl

section Check

variable {run : HeapRun} {start : Nat} {blocks : List HeapBlock} {ptr : Nat}

/-- A release that finds the flag set does nothing. -/
theorem kfree_of_isFree
    (invariant : HeapInvariant run.heap start blocks run.live)
    (isFree : (readHeader run.heap.mem (headerFromData ptr)).isFree ≠ 0) :
    kfree run.heap ptr = some run.heap := by
  have unlocked := invariant.unlocked
  obtain ⟨⟨mem, lock, head, totalAllocated, totalFreed, currentUsage⟩, live⟩ :=
    run
  simp only at unlocked isFree ⊢
  subst unlocked
  by_cases null : ptr = 0
  · rw [kfree, if_pos null]
  · simp only [kfree, null, ↓reduceIte, Heap.acquire, Bool.false_eq_true,
      Option.bind_eq_bind, Option.bind_some, isFree, ne_eq, not_false_eq_true,
      Heap.release]

/-- A release that finds the flag cleared goes into the counters. -/
theorem kfree_of_not_isFree
    (invariant : HeapInvariant run.heap start blocks run.live)
    (nonzero : ptr ≠ 0)
    (inUse : (readHeader run.heap.mem (headerFromData ptr)).isFree = 0) :
    ∃ next size, kfree run.heap ptr = some next ∧
      next.totalFreed =
        wrap32 (run.heap.totalFreed + sub32 size headerSize) ∧
      next.currentUsage = sub32 run.heap.currentUsage size ∧
      size < 2 ^ 32 := by
  have result : kfree run.heap ptr = some
      { run.heap with
        lock := false
        totalFreed := wrap32 (run.heap.totalFreed +
          sub32 (readHeader run.heap.mem (headerFromData ptr)).size headerSize)
        currentUsage := sub32 run.heap.currentUsage
          (readHeader run.heap.mem (headerFromData ptr)).size
        mem := mergeWithPrev (mergeWithNext
          (setIsFree run.heap.mem (headerFromData ptr) 1) (headerFromData ptr))
          (headerFromData ptr) } := by
    simp only [kfree, nonzero, ↓reduceIte, Heap.acquire, invariant.unlocked,
      Bool.false_eq_true, Option.bind_eq_bind, Option.bind_some, inUse, ne_eq,
      not_true_eq_false, Heap.release]
  exact ⟨_, _, result, rfl, rfl, load_lt _ 4 _⟩

/-- The second release is caught exactly when it finds the flag set. -/
theorem caught_iff
    (invariant : HeapInvariant run.heap start blocks run.live)
    (nonzero : ptr ≠ 0) :
    Caught run ptr ↔
      (readHeader run.heap.mem (headerFromData ptr)).isFree ≠ 0 := by
  constructor
  · rintro ⟨next, result, unchanged⟩ inUse
    obtain ⟨other, size, freed, totalFreed, currentUsage, range⟩ :=
      kfree_of_not_isFree invariant nonzero inUse
    obtain rfl := Option.some.inj (result.symm.trans freed)
    rw [unchanged.totalFreed] at totalFreed
    rw [unchanged.currentUsage] at currentUsage
    simp only [wrap32, sub32, headerSize] at totalFreed currentUsage
    omega
  · intro isFree
    exact ⟨run.heap, kfree_of_isFree invariant isFree,
      rfl, rfl, rfl, rfl, fun _ _ _ _ => rfl⟩

end Check

/-! ## A flag that stays set -/

/--
No block in use holds the flag of the header, and no block starts eight bytes
in front of the header: its `prev` field would be there.
-/
structure Spared (blocks : List HeapBlock) (header : Nat) : Prop where
  uncovered : ∀ block ∈ usedBlocks blocks,
    header + 4 ∉ extent HeapBlock.addr HeapBlock.size block
  noStart : ∀ block ∈ blocks, block.addr + 8 ≠ header

/-- The header in front of the pointer is spared by the blocks of the heap. -/
def Undisturbed (ptr : Nat) (run : HeapRun) : Prop :=
  ∃ blocks, chainBlocks run.heap = some blocks ∧
    Spared blocks (headerFromData ptr)

/-- The two invariants of one heap speak of the same blocks. -/
theorem HeapInvariant.blocks_unique
    {heap : Heap} {start : Nat} {live other : Live}
    {blocks others : List HeapBlock}
    (invariant : HeapInvariant heap start blocks live)
    (second : HeapInvariant heap start others other) :
    blocks = others :=
  Option.some.inj (invariant.chainBlocks_eq.symm.trans second.chainBlocks_eq)

section Flags

variable {mem : Memory} {start header : Nat}
variable {blocks before after : List HeapBlock} {block : HeapBlock}

/-- A flag that lies in a header is the flag of a free block. -/
theorem Chain.flag_of_headerByte
    (chain : Chain mem start blocks)
    (aligned : 8 ∣ header)
    (spared : Spared blocks header)
    (headerByte : HeaderByte blocks (header + 4)) :
    mem (header + 4) ≠ 0 := by
  obtain ⟨block, member, lower, upper⟩ := headerByte
  obtain ⟨before, after, rfl⟩ := List.append_of_mem member
  have blockAligned := chain.addr_dvd
  have notBefore := spared.noStart block member
  simp only [headerSize] at upper
  obtain rfl : block.addr = header := by omega
  rw [← isFree_ne_zero_iff, chain.header_isFree member]
  by_contra used
  have size := (chain.sizes block member).2
  exact spared.uncovered block
    (mem_usedBlocks.mpr ⟨member, by simpa using used⟩)
    ⟨Nat.le_add_right _ _, by omega⟩

/-- The header of a released block is spared at first. -/
theorem Chain.spared_releaseBlocks
    (chain : Chain mem start (before ++ block :: after)) :
    Spared (releaseBlocks before block after) block.addr where
  uncovered := by
    intro other used inside
    rw [usedBlocks_releaseBlocks, List.mem_append] at used
    have place : other ∈ before ∨ other ∈ after :=
      used.imp (fun inBefore => (mem_usedBlocks.mp inBefore).1)
        (fun inAfter => (mem_usedBlocks.mp inAfter).1)
    have listed : other ∈ before ++ block :: after := by
      rcases place with inBefore | inAfter
      · simp [inBefore]
      · simp [inAfter]
    have size := (chain.sizes block (by simp)).2
    obtain rfl := chain.contiguous.eq_of_mem_extent listed
      (show block ∈ _ by simp) inside ⟨Nat.le_add_right _ _, by omega⟩
    exact chain.addr_ne place rfl
  noStart := by
    intro other member same
    obtain ⟨old, oldMember, sameAddr⟩ := releaseBlocks_addrs member
    simp only [List.mem_append, List.mem_cons] at oldMember
    rcases oldMember with inBefore | rfl | inAfter
    · have apart := chain.before_apart inBefore
      simp only [headerSize] at apart
      omega
    · omega
    · have apart := chain.after_apart inAfter
      omega

/-- A release sets the flag, also when the block is joined with the one before. -/
theorem Chain.freed_flag
    (chain : Chain mem start (before ++ block :: after)) :
    freedMemory mem block (block.addr + 4) ≠ 0 := by
  have isFree : ({ block with isFree := true } : HeapBlock).isFree = true := rfl
  obtain ⟨forward, _⟩ := (chain.withFlag true).mergeNext
  obtain ⟨backward, backwardOnly⟩ := forward.mergePrev
  have set := (forward.header_isFree (List.mem_append_right before
    (List.mem_cons_self ..))).mpr (usedBlocks_joinNext isFree after).1
  rw [isFree_ne_zero_iff] at set
  rw [joinNext_addr] at backward backwardOnly set
  simp only at backward backwardOnly set
  by_cases headerByte :
      HeaderByte (releaseBlocks before block after) (block.addr + 4)
  · have aligned := chain.addr_dvd
    exact backward.flag_of_headerByte aligned chain.spared_releaseBlocks
      headerByte
  · rw [freedMemory]
    exact (backwardOnly _ headerByte) ▸ set

/-- A block stays one, unless it lies directly behind the released block. -/
theorem Chain.releaseBlocks_kept
    (chain : Chain mem start (before ++ block :: after))
    {other : HeapBlock}
    (member : other ∈ before ++ after) :
    (∃ kept ∈ releaseBlocks before block after, kept.addr = other.addr) ∨
      other.addr = block.addr + block.size := by
  rcases List.mem_append.mp member with inBefore | inAfter
  · obtain ⟨kept, keptMember, same⟩ := joinPrev_kept inBefore
    exact Or.inl ⟨kept, List.mem_append_left _ keptMember, same⟩
  · rcases joinNext_kept inAfter with stays | isNext
    · exact Or.inl ⟨other, List.mem_append_right _ stays, rfl⟩
    · obtain ⟨rest, rfl⟩ : ∃ rest, after = other :: rest := by
        cases after with
        | nil =>
            cases isNext
        | cons next rest =>
            exact ⟨rest, congrArg (· :: rest) (Option.some.inj isNext)⟩
      exact Or.inr chain.next_addr

/-- A block that lies directly behind a block that is not released stays one. -/
theorem Chain.releaseBlocks_kept_of_behind
    (chain : Chain mem start (before ++ block :: after))
    {previous other : HeapBlock}
    (listed : previous ∈ before ++ block :: after)
    (different : block ≠ previous)
    (member : other ∈ before ++ after)
    (behind : previous.addr + previous.size = other.addr) :
    ∃ kept ∈ releaseBlocks before block after, kept.addr = other.addr := by
  rcases chain.releaseBlocks_kept member with stays | behindBlock
  · exact stays
  · have size := (chain.sizes block (by simp)).2
    have previousSize := (chain.sizes previous listed).2
    exact absurd (chain.contiguous.eq_of_mem_extent (by simp) listed
      (show other.addr - 1 ∈ _ from ⟨by omega, by omega⟩)
      ⟨by omega, by omega⟩) different

end Flags

/-! ## One call -/

namespace HeapInvariant

variable {heap next : Heap} {start header : Nat} {live live' : Live}
variable {blocks blocks' before after : List HeapBlock} {block : HeapBlock}
variable {actualSize : Nat}

/-- `kfree` writes only headers, and nothing else outside the released block. -/
theorem kfree_frame
    (invariant : HeapInvariant heap start (before ++ block :: after) live)
    (used : block.isFree = false)
    (result : Kmalloc.kfree heap (block.addr + headerSize) = some next)
    {address : Nat}
    (outside : address ∉ extent HeapBlock.addr HeapBlock.size block)
    (noHeader : ¬ HeaderByte (releaseBlocks before block after) address) :
    next.mem address = heap.mem address := by
  have size := (invariant.chain.sizes block (by simp)).2
  have released := invariant.kfree_eq (by simp) used
  have frame := invariant.chain.release_writes.2 address
  generalize freedMemory heap.mem block = mem at released frame
  obtain rfl := Option.some.inj (result.symm.trans released)
  refine frame (fun inside => ?_) noHeader
  obtain ⟨lower, upper⟩ := inside
  simp only [headerSize] at upper
  exact outside ⟨lower, by omega⟩

/-- `kmalloc` writes only headers and the block that it takes. -/
theorem kmalloc_frame
    (invariant : HeapInvariant heap start blocks live)
    {size ptr : Nat}
    (result : Kmalloc.kmalloc heap size = some (ptr, next))
    (invariantAfter : HeapInvariant next start blocks' live')
    {address : Nat}
    (uncovered : ∀ block ∈ usedBlocks blocks',
      address ∉ extent HeapBlock.addr HeapBlock.size block)
    (noHeader : ¬ HeaderByte blocks' address) :
    next.mem address = heap.mem address := by
  have unchanged : Kmalloc.kmalloc heap size = some (0, heap) →
      next.mem address = heap.mem address := by
    intro failed
    obtain ⟨_, rfl⟩ := Prod.mk.inj (Option.some.inj (result.symm.trans failed))
    rfl
  by_cases zero : size = 0
  · exact unchanged (invariant.kmalloc_of_none (Or.inl zero))
  by_cases large : kmallocMaxSize < size
  · exact unchanged (invariant.kmalloc_of_none (Or.inr (Or.inl large)))
  cases found : bestFitBlock (actualSizeFor size) blocks none with
  | none =>
      exact unchanged (invariant.kmalloc_of_none (Or.inr (Or.inr found)))
  | some block =>
      obtain ⟨member, free, fits⟩ :=
        (bestFitBlock_spec found).resolve_left (by simp)
      obtain ⟨before, after, rfl⟩ := List.append_of_mem member
      have small : size ≤ kmallocMaxSize := by omega
      obtain ⟨other, takes, kept, _⟩ :=
        invariant.kmalloc_takes zero small found free fits
      have exactly := invariant.kmalloc_of_some zero small found free fits
      obtain ⟨_, rfl⟩ := Prod.mk.inj (Option.some.inj (result.symm.trans takes))
      have memory : next.mem =
          fill (takeMemory heap.mem block (actualSizeFor size))
            (block.addr + headerSize) size 0 :=
        congrArg Heap.mem (Prod.mk.inj
          (Option.some.inj (takes.symm.trans exactly))).2
      obtain rfl := kept.blocks_unique invariantAfter
      have takenUsed :=
        takenBlock_used before after block (actualSizeFor size)
      have notCleared : ¬ InRange (block.addr + headerSize) size address := by
        intro cleared
        obtain ⟨lower, upper⟩ :=
          (invariant.cleared_subset zero small free fits).1 cleared
        exact uncovered _ takenUsed ⟨(Nat.le_add_right _ _).trans lower, upper⟩
      rw [memory, fill_of_not_inRange notCleared]
      exact invariant.chain.take_onlyHeaders
        (invariant.take zero small free).2.2.1 address noHeader

/-- An allocation leaves a spared flag set. -/
theorem kmalloc_flag
    (invariant : HeapInvariant heap start blocks live)
    {size ptr : Nat}
    (result : Kmalloc.kmalloc heap size = some (ptr, next))
    (invariantAfter : HeapInvariant next start blocks' live')
    (aligned : 8 ∣ header)
    (spared : Spared blocks' header)
    (set : heap.mem (header + 4) ≠ 0) :
    next.mem (header + 4) ≠ 0 := by
  by_cases headerByte : HeaderByte blocks' (header + 4)
  · exact invariantAfter.chain.flag_of_headerByte aligned spared headerByte
  · rwa [invariant.kmalloc_frame result invariantAfter spared.uncovered
      headerByte]

/-- A release leaves a spared flag set. -/
theorem kfree_flag
    (invariant : HeapInvariant heap start blocks live)
    {ptr : Nat}
    (held : ptr = 0 ∨ live ptr ≠ none)
    (result : Kmalloc.kfree heap ptr = some next)
    (invariantAfter : HeapInvariant next start blocks' live')
    (aligned : 8 ∣ header)
    (spared : Spared blocks header)
    (sparedAfter : Spared blocks' header)
    (set : heap.mem (header + 4) ≠ 0) :
    next.mem (header + 4) ≠ 0 := by
  by_cases null : ptr = 0
  · rw [Kmalloc.kfree, if_pos null] at result
    rwa [← Option.some.inj result]
  by_cases headerByte : HeaderByte blocks' (header + 4)
  · exact invariantAfter.chain.flag_of_headerByte aligned sparedAfter headerByte
  obtain ⟨block, member, rfl⟩ := invariant.owned ptr (held.resolve_left null)
  obtain ⟨listed, used⟩ := mem_usedBlocks.mp member
  obtain ⟨before, after, rfl⟩ := List.append_of_mem listed
  obtain ⟨other, released, kept, _⟩ := invariant.kfree used
  obtain rfl := Option.some.inj (result.symm.trans released)
  obtain rfl := kept.blocks_unique invariantAfter
  rwa [invariant.kfree_frame used result (spared.uncovered block member)
    headerByte]

/--
While `krealloc` holds both blocks, the header is spared: what is cut off the
new block is not joined with the old one, which lies elsewhere.
-/
theorem spared_copied
    (invariant : HeapInvariant heap start
      (before ++ (takeBlock block actualSize ++ after)) live)
    (free : block.isFree = true)
    {source : HeapBlock}
    (sourceUsed : source ∈
      usedBlocks (before ++ (takeBlock block actualSize ++ after)))
    (different : source ≠ takenBlock block actualSize)
    (released : HeapInvariant next start blocks' live')
    (result : Kmalloc.kfree heap (source.addr + headerSize) = some next)
    (spared : Spared (before ++ block :: after) header)
    (sparedAfter : Spared blocks' header) :
    Spared (before ++ (takeBlock block actualSize ++ after)) header := by
  have takenUsed := takenBlock_used before after block actualSize
  obtain ⟨sourceListed, sourceInUse⟩ := mem_usedBlocks.mp sourceUsed
  obtain ⟨front, back, shape⟩ := List.append_of_mem sourceListed
  rw [shape] at invariant takenUsed
  obtain ⟨other, freed, kept, _⟩ := invariant.kfree sourceInUse
  obtain rfl := Option.some.inj (result.symm.trans freed)
  obtain rfl := kept.blocks_unique released
  constructor
  · intro owner used
    rw [usedBlocks_append, usedBlocks_append, usedBlocks_takeBlock] at used
    simp only [List.mem_append, List.mem_singleton] at used
    rcases used with inBefore | rfl | inAfter
    · exact spared.uncovered owner (by
        rw [usedBlocks_append]
        exact List.mem_append_left _ inBefore)
    · exact sparedAfter.uncovered _
        (usedBlocks_release_of_mem takenUsed sourceInUse different.symm)
    · refine spared.uncovered owner ?_
      rw [usedBlocks_append, usedBlocks_cons_of_free free]
      exact List.mem_append_right _ inAfter
  · intro owner member
    rcases List.mem_append.mp member with inBefore | inRest
    · exact spared.noStart owner (List.mem_append_left _ inBefore)
    rcases List.mem_append.mp inRest with inTaken | inAfter
    swap
    · exact spared.noStart owner
        (List.mem_append_right _ (List.mem_cons_of_mem _ inAfter))
    rcases takeBlock_addr inTaken with same | ⟨room, atEnd⟩
    · exact same ▸ spared.noStart block (by simp)
    have notSource : owner ≠ source := by
      rintro rfl
      have onlyUsed : owner ∈ usedBlocks (takeBlock block actualSize) :=
        mem_usedBlocks.mpr ⟨inTaken, sourceInUse⟩
      rw [usedBlocks_takeBlock] at onlyUsed
      exact different (List.mem_singleton.mp onlyUsed)
    have elsewhere : owner ∈ front ++ back := by
      rw [shape] at member
      simpa [notSource] using member
    have takenEnd : (takenBlock block actualSize).addr +
        (takenBlock block actualSize).size = owner.addr := by
      rw [takenBlock, takenSize, if_pos room, atEnd]
    obtain ⟨stays, staysMember, sameStart⟩ :=
      invariant.chain.releaseBlocks_kept_of_behind
        (mem_usedBlocks.mp takenUsed).1 different elsewhere takenEnd
    exact sameStart ▸ sparedAfter.noStart stays staysMember

/-- `krealloc` leaves a spared flag set. -/
theorem krealloc_flag
    (invariant : HeapInvariant heap start blocks live)
    {ptr size newPtr : Nat}
    (held : ptr = 0 ∨ live ptr ≠ none)
    (result : krealloc heap ptr size = some (newPtr, next))
    (invariantAfter : HeapInvariant next start blocks' live')
    (aligned : 8 ∣ header)
    (spared : Spared blocks header)
    (sparedAfter : Spared blocks' header)
    (set : heap.mem (header + 4) ≠ 0) :
    next.mem (header + 4) ≠ 0 := by
  by_cases null : ptr = 0
  · rw [krealloc, if_pos null] at result
    exact invariant.kmalloc_flag result invariantAfter aligned sparedAfter set
  by_cases zero : size = 0
  · rw [krealloc, if_neg null, if_pos zero] at result
    obtain ⟨other, released, same⟩ := Option.bind_eq_some_iff.mp result
    obtain ⟨_, rfl⟩ := Prod.mk.inj (Option.some.inj same)
    exact invariant.kfree_flag held released invariantAfter aligned spared
      sparedAfter set
  obtain ⟨source, member, rfl⟩ := invariant.owned ptr (held.resolve_left null)
  have listed := (mem_usedBlocks.mp member).1
  by_cases fits : size + headerSize ≤ source.size
  · rw [invariant.krealloc_fits listed zero fits] at result
    obtain ⟨_, rfl⟩ := Prod.mk.inj (Option.some.inj result)
    exact set
  have grows : source.size < size + headerSize := by omega
  rcases invariant.kmalloc size with failed |
    ⟨before, block, after, middle, rfl, free, enough, within, taken, grown,
      _, _⟩
  · rw [invariant.krealloc_eq listed grows, failed] at result
    obtain ⟨_, rfl⟩ := Prod.mk.inj (Option.some.inj result)
    exact set
  · obtain ⟨different, copied, call⟩ :=
      invariant.krealloc_copied member grows free enough taken grown
    rw [call] at result
    obtain ⟨other, released, same⟩ := Option.bind_eq_some_iff.mp result
    obtain ⟨_, rfl⟩ := Prod.mk.inj (Option.some.inj same)
    have stillUsed :=
      usedBlocks_take_of_mem member free (actualSizeFor size)
    have sparedMiddle := copied.spared_copied free stillUsed different
      invariantAfter released spared sparedAfter
    have setMiddle := invariant.kmalloc_flag taken grown aligned sparedMiddle set
    have notTaken :
        header + 4 ∉ (takenBlock block (actualSizeFor size)).payload := by
      rintro ⟨lower, upper⟩
      exact sparedMiddle.uncovered _ (takenBlock_used before after block _)
        ⟨(Nat.le_add_right _ _).trans lower, upper⟩
    have setCopied :
        (copiedHeap middle block source).mem (header + 4) ≠ 0 := by
      rwa [copiedHeap_outside (by omega) notTaken]
    have elsewhere : source.addr + headerSize ≠ block.addr + headerSize := by
      intro same
      exact held.resolve_left null (same ▸ invariant.live_of_free free)
    refine copied.kfree_flag (Or.inr ?_) released invariantAfter aligned
      sparedMiddle sparedAfter setCopied
    rw [Function.update_of_ne elsewhere]
    exact held.resolve_left null

end HeapInvariant

/-- Every permitted call leaves a spared flag set. -/
theorem HeapCall.flag
    {run next : HeapRun} {start header : Nat} {blocks blocks' : List HeapBlock}
    (invariant : HeapInvariant run.heap start blocks run.live)
    (call : HeapCall)
    (permitted : call.Permitted run)
    (performed : call.perform run = some next)
    (invariantAfter : HeapInvariant next.heap start blocks' next.live)
    (aligned : 8 ∣ header)
    (spared : Spared blocks header)
    (sparedAfter : Spared blocks' header)
    (set : run.heap.mem (header + 4) ≠ 0) :
    next.heap.mem (header + 4) ≠ 0 := by
  cases call with
  | kmalloc size =>
      obtain ⟨⟨ptr, heap⟩, result, same⟩ := Option.bind_eq_some_iff.mp performed
      obtain rfl := Option.some.inj same
      exact invariant.kmalloc_flag result invariantAfter aligned sparedAfter set
  | kcalloc num size =>
      obtain ⟨⟨ptr, heap⟩, result, same⟩ := Option.bind_eq_some_iff.mp performed
      obtain rfl := Option.some.inj same
      rw [invariant.kcalloc_eq] at result
      exact invariant.kmalloc_flag result invariantAfter aligned sparedAfter set
  | krealloc ptr size =>
      obtain ⟨⟨newPtr, heap⟩, result, same⟩ :=
        Option.bind_eq_some_iff.mp performed
      obtain rfl := Option.some.inj same
      exact invariant.krealloc_flag permitted result invariantAfter aligned
        spared sparedAfter set
  | kfree ptr =>
      obtain ⟨heap, result, same⟩ := Option.bind_eq_some_iff.mp performed
      obtain rfl := Option.some.inj same
      exact invariant.kfree_flag permitted result invariantAfter aligned spared
        sparedAfter set
  | write ptr offset byte =>
      obtain rfl := Option.some.inj performed
      obtain ⟨request, held, inside⟩ := permitted
      obtain ⟨block, listed, used, rfl, fits⟩ := invariant.block_of_live held
      have elsewhere : header + 4 ≠ block.addr + headerSize + offset := by
        intro same
        exact spared.uncovered block (mem_usedBlocks.mpr ⟨listed, used⟩)
          ⟨by omega, by omega⟩
      exact (Function.update_of_ne elsewhere _ _).trans_ne set

/-! ## Runs -/

section Runs

variable {sys : Pmm.BuddySystem} {mem : Memory} {ptr : Nat} {run : HeapRun}

/-- A pointer that was held is not null. -/
theorem Retired.ptr_ne_zero
    {holds : HeapRun → Prop}
    (granted : HeapGranted sys)
    (retired : Retired sys mem holds ptr run) :
    ptr ≠ 0 := by
  induction retired with
  | freed reached held _ =>
      obtain ⟨blocks, invariant⟩ := reached.invariant granted
      rintro rfl
      exact held invariant.live_zero
  | call _ _ _ _ _ _ inductionHypothesis =>
      exact inductionHypothesis

/-- While the header is spared its flag stays set. -/
theorem Retired.flag
    (granted : HeapGranted sys)
    (retired : Retired sys mem (Undisturbed ptr) ptr run) :
    ∃ blocks, HeapInvariant run.heap (heapStart sys) blocks run.live ∧
      8 ∣ headerFromData ptr ∧ Spared blocks (headerFromData ptr) ∧
      run.heap.mem (headerFromData ptr + 4) ≠ 0 := by
  induction retired with
  | @freed run next reached held performed =>
      obtain ⟨blocks, invariant⟩ := reached.invariant granted
      obtain ⟨block, member, rfl⟩ := invariant.owned ptr held
      obtain ⟨listed, used⟩ := mem_usedBlocks.mp member
      have header := (invariant.ptr_arithmetic listed).2
      obtain ⟨before, after, rfl⟩ := List.append_of_mem listed
      have released := invariant.kfree_eq listed used
      have freed := invariant.freed used invariant.chain.release.1
      have set := invariant.chain.freed_flag
      have nonzero : block.addr + headerSize ≠ 0 := by
        simp only [headerSize]
        omega
      rw [HeapCall.perform, released] at performed
      generalize freedMemory run.heap.mem block = mem at performed freed set
      obtain rfl := Option.some.inj performed
      rw [header]
      exact ⟨releaseBlocks before block after,
        (revoke_of_ne_zero nonzero).symm ▸ freed,
        invariant.chain.addr_dvd, invariant.chain.spared_releaseBlocks, set⟩
  | call request retired permitted performed _ kept inductionHypothesis =>
      obtain ⟨blocks, invariant, aligned, spared, set⟩ := inductionHypothesis
      obtain ⟨others, found, sparedAfter⟩ := kept
      obtain ⟨next, blocks', result, invariantAfter, _⟩ :=
        request.returns invariant permitted
      obtain rfl := Option.some.inj (result.symm.trans performed)
      obtain rfl :=
        Option.some.inj (found.symm.trans invariantAfter.chainBlocks_eq)
      exact ⟨_, invariantAfter, aligned, sparedAfter,
        request.flag invariant permitted performed invariantAfter aligned spared
          sparedAfter set⟩

/-- Every second release is caught. -/
def DoubleFreesCaught (sys : Pmm.BuddySystem) (mem : Memory) : Prop :=
  ∀ ptr run, Retired sys mem (fun _ => True) ptr run → Caught run ptr

/--
A second release is caught in every run in which no block in use has come to
hold the flag of the old header and none has been cut off eight bytes in front
of it; in any run it is caught exactly when the flag is still set.
-/
theorem reachable_doubleFree (granted : HeapGranted sys) :
    (∀ ptr run, Retired sys mem (Undisturbed ptr) ptr run → Caught run ptr) ∧
      ∀ ptr run, Retired sys mem (fun _ => True) ptr run →
        (Caught run ptr ↔
          (readHeader run.heap.mem (headerFromData ptr)).isFree ≠ 0) := by
  constructor
  · intro ptr run retired
    obtain ⟨blocks, invariant, _, _, set⟩ := retired.flag granted
    rw [caught_iff invariant (retired.ptr_ne_zero granted),
      isFree_ne_zero_iff]
    exact set
  · intro ptr run retired
    obtain ⟨blocks, invariant⟩ := retired.reached.invariant granted
    exact caught_iff invariant (retired.ptr_ne_zero granted)

end Runs

/-! ## A release that is not caught -/

section Overwritten

variable {sys : Pmm.BuddySystem} {mem : Memory} {run : HeapRun} {ptr : Nat}

/-- An allocation from the free block at the end of a heap in use. -/
theorem HeapInvariant.kmalloc_last
    {start addr length : Nat}
    {before : List HeapBlock}
    (invariant : HeapInvariant run.heap start
      (before ++ [⟨addr, length, true⟩]) run.live)
    (inUse : ∀ block ∈ before, block.isFree = false)
    {size : Nat}
    (positive : size ≠ 0)
    (small : size ≤ kmallocMaxSize)
    (room : actualSizeFor size + headerSize + kmallocMinSize ≤ length) :
    ∃ next, (HeapCall.kmalloc size).perform run = some next ∧
      HeapInvariant next.heap start
        ((before ++ [⟨addr, actualSizeFor size, false⟩]) ++
          [⟨addr + actualSizeFor size, length - actualSizeFor size, true⟩])
        next.live ∧
      next.live = Function.update run.live (addr + headerSize) (some size) ∧
      ∀ address, InRange (addr + headerSize) size address →
        next.heap.mem address = 0 := by
  have fits : actualSizeFor size ≤ length := by omega
  have found : bestFitBlock (actualSizeFor size)
      (before ++ [⟨addr, length, true⟩]) none = some ⟨addr, length, true⟩ := by
    clear invariant
    induction before with
    | nil =>
        simp [bestFitBlock, fits]
    | cons block rest inductionHypothesis =>
        have used := inUse block (by simp)
        have others : ∀ block ∈ rest, block.isFree = false :=
          fun other member => inUse other (by simp [member])
        rw [List.cons_append, bestFitBlock, used]
        simpa using inductionHypothesis others
  obtain ⟨heap, result, kept, zeros, _⟩ :=
    invariant.kmalloc_takes positive small found rfl fits
  have nonzero : addr + headerSize ≠ 0 := by
    simp only [headerSize]
    omega
  rw [takeBlock, if_pos room] at kept
  refine ⟨⟨heap, grant run.live (addr + headerSize) size⟩,
    by simp [HeapCall.perform, result], ?_, grant_of_ne_zero nonzero, zeros⟩
  rw [grant_of_ne_zero nonzero]
  simpa using kept

/-- A live pointer can be freed in every state of a run. -/
theorem HeapReachable.kfree
    (reached : HeapReachable sys mem run)
    (granted : HeapGranted sys)
    (held : run.live ptr ≠ none) :
    ∃ next, (HeapCall.kfree ptr).perform run = some next ∧
      next.live = Function.update run.live ptr none := by
  obtain ⟨blocks, invariant⟩ := reached.invariant granted
  obtain ⟨heap, _, result, _⟩ := invariant.kfree_returns (Or.inr held)
  have nonzero : ptr ≠ 0 := by
    rintro rfl
    exact held invariant.live_zero
  exact ⟨⟨heap, revoke run.live ptr⟩, by simp [HeapCall.perform, result],
    if_neg nonzero⟩

/-- Once everything has been freed there is one block again. -/
theorem HeapReachable.emptied
    (reached : HeapReachable sys mem run)
    (granted : HeapGranted sys)
    (none : ∀ ptr, run.live ptr = none) :
    HeapInvariant run.heap (heapStart sys)
      [⟨heapStart sys, heapSize, true⟩] run.live := by
  obtain ⟨blocks, invariant, coalesced⟩ := reached.coalesced granted
  have one := invariant.oneFreeBlock coalesced none
  have heapBytes : heapSize = 2 ^ 20 := rfl
  have found : chainBlocks run.heap =
      some [⟨heapStart sys, heapSize, true⟩] := by
    rw [chainBlocks, one.chain]
    simp only [Option.map_some, List.map_cons, List.map_nil, blockAt, one.size,
      one.free, heapBytes, ne_eq, not_false_eq_true, decide_true]
  obtain rfl :=
    Option.some.inj (invariant.chainBlocks_eq.symm.trans found)
  exact invariant

/-- Two blocks of 120 bytes are allocated at the start of the heap. -/
theorem exists_two_blocks (granted : HeapGranted sys) (mem : Memory) :
    ∃ run, HeapReachable sys mem run ∧
      run.live = Function.update
        (Function.update (fun _ => none) (heapStart sys + headerSize)
          (some 100))
        (heapStart sys + 120 + headerSize) (some 100) := by
  have small : 100 ≤ kmallocMaxSize := by decide
  have actual : actualSizeFor 100 = 120 := by
    rw [actualSizeFor_eq small]
  have invariant : HeapInvariant (initialHeap sys mem) (heapStart sys)
      ([] ++ [⟨heapStart sys, heapSize, true⟩]) fun _ => none :=
    initialHeap_invariant granted mem
  obtain ⟨first, performed, firstInvariant, firstLive, _⟩ :=
    @HeapInvariant.kmalloc_last ⟨initialHeap sys mem, fun _ => none⟩ _ _ _ _
      invariant (by simp) 100 (by decide) small (by rw [actual]; decide)
  rw [actual] at firstInvariant
  obtain ⟨second, performedNext, _, secondLive, _⟩ :=
    firstInvariant.kmalloc_last (by simp) (by decide) small
      (by rw [actual]; decide)
  exact ⟨second,
    .call (.kmalloc 100) (.call (.kmalloc 100) .init trivial performed) trivial
      performedNext,
    by rw [secondLive, firstLive]⟩

/--
Both blocks are freed and a larger one is allocated at the start of the heap:
the flag of the second block has been cleared with the new payload, and the
second release of that block goes through.
-/
theorem not_doubleFreesCaught :
    ¬ DoubleFreesCaught bootSys fun _ => 0 := by
  intro caught
  generalize bootMemory : (fun _ => 0 : Memory) = mem at caught
  generalize bootSystem : bootSys = sys at caught
  have granted : HeapGranted sys := bootSystem ▸ bootSys_granted
  obtain ⟨run, reached, live⟩ := exists_two_blocks granted mem
  have firstHeld : run.live (heapStart sys + headerSize) ≠ none := by
    simp [live, headerSize]
  obtain ⟨first, firstFreed, firstLive⟩ := reached.kfree granted firstHeld
  have firstReached : HeapReachable sys mem first :=
    .call (.kfree _) reached (Or.inr firstHeld) firstFreed
  have held : first.live (heapStart sys + 120 + headerSize) ≠ none := by
    simp [firstLive, live, headerSize]
  obtain ⟨second, secondFreed, secondLive⟩ :=
    firstReached.kfree granted held
  have retired : Retired sys mem (fun _ => True)
      (heapStart sys + 120 + headerSize) second :=
    .freed firstReached held secondFreed
  have nothing : ∀ ptr, second.live ptr = none := by
    intro ptr
    rw [secondLive, firstLive, live]
    simp only [Function.update_apply]
    split_ifs <;> rfl
  have invariant := retired.reached.emptied granted nothing
  have small : 200 ≤ kmallocMaxSize := by decide
  have actual : actualSizeFor 200 = 216 := by
    rw [actualSizeFor_eq small]
  obtain ⟨third, performed, kept, thirdLive, zeros⟩ :=
    @HeapInvariant.kmalloc_last _ _ _ _ [] invariant (by simp) 200 (by decide)
      small (by rw [actual]; decide)
  have inRange := kept.chain.inRange
  have retiredStill : Retired sys mem (fun _ => True)
      (heapStart sys + 120 + headerSize) third :=
    .call (.kmalloc 200) retired trivial performed
      (by rw [thirdLive, Function.update_of_ne (by omega), nothing]) trivial
  have header :
      headerFromData (heapStart sys + 120 + headerSize) =
        heapStart sys + 120 := by
    have heapBytes : heapSize = 1048576 := rfl
    have bytes : headerSize = 16 := rfl
    rw [headerFromData, sub32_of_le (by omega) (Nat.le_add_left _ _),
      Nat.add_sub_cancel_right]
  have set := (caught_iff kept (retiredStill.ptr_ne_zero granted)).mp
    (caught _ _ retiredStill)
  rw [isFree_ne_zero_iff, header] at set
  exact set (zeros _ ⟨by simp only [headerSize]; omega,
    by simp only [headerSize]; omega⟩)

/-- A block that has just been freed. -/
theorem reachable_doubleFree_boot :
    ∃ run ptr, Retired bootSys (fun _ => 0) (Undisturbed ptr) ptr run ∧
      Caught run ptr := by
  obtain ⟨run, performed, ptr, live, _⟩ :=
    first_kmalloc bootSys_granted fun _ => 0
  have reached : HeapReachable bootSys (fun _ => 0) run :=
    .call (.kmalloc 100) .init trivial performed
  have held : run.live ptr ≠ none := by simp [live]
  obtain ⟨next, freed, _⟩ := reached.kfree bootSys_granted held
  have retired : Retired bootSys (fun _ => 0) (Undisturbed ptr) ptr next :=
    .freed reached held freed
  exact ⟨next, ptr, retired,
    (reachable_doubleFree bootSys_granted).1 ptr next retired⟩

end Overwritten

end MatrixOS.Kmalloc
