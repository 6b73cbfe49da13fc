import Mathlib.Algebra.BigOperators.Group.List.Basic
import Mathlib.Data.List.Perm.Basic
import MatrixOS.KmallocRealloc

namespace MatrixOS.Kmalloc

open ByteMemory Layout RunningMinimum

/-!
# Heap statistics

`total_allocated` counts what is asked for and `total_freed` counts the payload
of the block that is given back.  The two agree when every block is as long as
what was asked for.
-/

/-! ## Allocations without a remainder -/

/-- Bytes of the payloads in use. -/
def payloadBytes (blocks : List HeapBlock) : Nat :=
  ((usedBlocks blocks).map fun block => block.size - headerSize).sum

/--
The request is a multiple of 8, and the smallest free block for it has exactly
its size or is long enough to be split.
-/
structure ExactFit (blocks : List HeapBlock) (size : Nat) : Prop where
  aligned : 8 ∣ size
  smallest :
    (∃ block ∈ blocks, block.isFree = true ∧
      block.size = size + headerSize) ∨
    ∀ block ∈ blocks, Fits (size + headerSize) block →
      size + headerSize + headerSize + kmallocMinSize ≤ block.size

/-- A request that is granted is granted without a remainder. -/
def TakesExactly (heap : Heap) (size : Nat) : Prop :=
  ∀ blocks, chainBlocks heap = some blocks → size ≠ 0 →
    size ≤ kmallocMaxSize → (∃ block ∈ blocks, Fits (roundedSize size) block) →
      ExactFit blocks size

/-- A call that allocates takes exactly what it asks for. -/
def HeapCall.Exact (run : HeapRun) : HeapCall → Prop
  | .kmalloc size => TakesExactly run.heap size
  | .kcalloc num size => TakesExactly run.heap (wrap32 (num * size))
  | .krealloc ptr size =>
      (ptr = 0 ∨ (readHeader run.heap.mem (headerFromData ptr)).size <
        size + headerSize) → TakesExactly run.heap size
  | .kfree _ => True
  | .write _ _ _ => True

/-- The bytes of a request, if it has been granted a new pointer. -/
def newBytes (held size : Nat) : Option (Nat × Heap) → Nat
  | some (ptr, _) => if ptr = 0 ∨ ptr = held then 0 else size
  | none => 0

/-- The bytes that a call allocates. -/
def HeapCall.newBytes (run : HeapRun) : HeapCall → Nat
  | .kmalloc size => Kmalloc.newBytes 0 size (Kmalloc.kmalloc run.heap size)
  | .kcalloc num size =>
      Kmalloc.newBytes 0 (wrap32 (num * size)) (Kmalloc.kcalloc run.heap num size)
  | .krealloc ptr size =>
      Kmalloc.newBytes ptr size (Kmalloc.krealloc run.heap ptr size)
  | .kfree _ => 0
  | .write _ _ _ => 0

/--
A run in which every allocation takes exactly what it asks for, with the bytes
of all allocations so far.
-/
inductive ExactRun (sys : Pmm.BuddySystem) (mem : Memory) :
    HeapRun → Nat → Prop
  | init : ExactRun sys mem ⟨initialHeap sys mem, fun _ => none⟩ 0
  | call {run next : HeapRun} {total : Nat} (request : HeapCall)
      (reached : ExactRun sys mem run total)
      (permitted : request.Permitted run)
      (exact : request.Exact run)
      (performed : request.perform run = some next)
      (counted : total + request.newBytes run < 2 ^ 32) :
      ExactRun sys mem next (total + request.newBytes run)

theorem ExactRun.reachable
    {sys : Pmm.BuddySystem} {mem : Memory} {run : HeapRun} {total : Nat}
    (reached : ExactRun sys mem run total) :
    HeapReachable sys mem run ∧ total < 2 ^ 32 := by
  induction reached with
  | init =>
      exact ⟨.init, by decide⟩
  | call request _ permitted _ performed counted inductionHypothesis =>
      exact ⟨.call request inductionHypothesis.1 permitted performed, counted⟩

/-- The block that is taken is as long as the request in this case only. -/
theorem exactFit_iff
    {before after : List HeapBlock} {block : HeapBlock} {size : Nat}
    (first : FirstMinimum (Fits (roundedSize size)) HeapBlock.size
      before block after)
    (aligned : 8 ∣ block.size) :
    ExactFit (before ++ block :: after) size ↔
      takenSize block (roundedSize size) = size + headerSize := by
  have enough := first.fits.2
  have rounded : 8 ∣ size → roundedSize size = size + headerSize := by
    rintro ⟨words, rfl⟩
    simp only [roundedSize, headerSize]
    omega
  rw [takenSize]
  constructor
  · rintro ⟨words, ⟨other, member, free, same⟩ | long⟩
    · rw [rounded words] at first enough ⊢
      have atMost := first.key_le member ⟨free, same.ge⟩
      have short : ¬ block.size ≥
          size + headerSize + headerSize + kmallocMinSize := by
        simp only [headerSize] at same ⊢
        omega
      rw [if_neg short]
      omega
    · rw [rounded words] at first ⊢
      exact if_pos (long block (by simp) first.fits)
  · split
    · rename_i room
      intro same
      have words : 8 ∣ size := by
        simp only [roundedSize, headerSize] at same
        omega
      rw [same] at first room
      exact ⟨words, Or.inr fun other member fits =>
        room.trans (first.key_le member fits)⟩
    · intro same
      have words : 8 ∣ size := by
        simp only [headerSize] at same
        omega
      exact ⟨words, Or.inl ⟨block, by simp, first.fits.1, same⟩⟩

/-! ## The counters -/

/-- What has been allocated is in use or has been freed. -/
structure Balanced (heap : Heap) (blocks : List HeapBlock) (total : Nat) :
    Prop where
  allocated : heap.totalAllocated = total
  freed : heap.totalFreed + payloadBytes blocks = total

theorem payloadBytes_take
    (before after : List HeapBlock)
    {block : HeapBlock}
    (free : block.isFree = true)
    (actualSize : Nat) :
    payloadBytes (before ++ (takeBlock block actualSize ++ after)) =
      payloadBytes (before ++ block :: after) +
        (takenSize block actualSize - headerSize) := by
  simp only [payloadBytes, usedBlocks_append, usedBlocks_takeBlock,
    usedBlocks_cons_of_free free, List.map_append, List.map_cons,
    List.map_nil, List.sum_append, List.sum_cons, List.sum_nil, takenBlock]
  omega

theorem payloadBytes_release
    (before after : List HeapBlock)
    {block : HeapBlock}
    (used : block.isFree = false) :
    payloadBytes (releaseBlocks before block after) +
        (block.size - headerSize) =
      payloadBytes (before ++ block :: after) := by
  simp only [payloadBytes, usedBlocks_releaseBlocks, usedBlocks_append,
    usedBlocks_cons_of_used used, List.map_append, List.map_cons,
    List.sum_append, List.sum_cons]
  omega

/-- `kmalloc` counts the request, and takes as many bytes. -/
theorem Balanced.take
    {heap : Heap} {before after : List HeapBlock} {block : HeapBlock}
    {total size : Nat}
    (balanced : Balanced heap (before ++ block :: after) total)
    (free : block.isFree = true)
    {actualSize : Nat}
    (exact : takenSize block actualSize = size + headerSize)
    (counted : total + size < 2 ^ 32)
    (mem : Memory) :
    Balanced (HeapInvariant.takenHeap heap block actualSize size mem)
      (before ++ (takeBlock block actualSize ++ after)) (total + size) := by
  obtain ⟨allocated, freed⟩ := balanced
  constructor
  · rw [HeapInvariant.takenHeap, allocated, wrap32_of_lt counted]
  · rw [payloadBytes_take before after free, exact, Nat.add_sub_cancel]
    simp only [HeapInvariant.takenHeap]
    omega

/-- `kfree` counts the payload of the block it takes out of use. -/
theorem Balanced.release
    {heap : Heap} {before after : List HeapBlock} {block : HeapBlock}
    {total : Nat}
    (balanced : Balanced heap (before ++ block :: after) total)
    (used : block.isFree = false)
    (counted : total < 2 ^ 32)
    (mem : Memory) :
    Balanced (HeapInvariant.freedHeap heap block mem)
      (releaseBlocks before block after) total := by
  obtain ⟨allocated, freed⟩ := balanced
  have payload := payloadBytes_release before after used
  refine ⟨allocated, ?_⟩
  simp only [HeapInvariant.freedHeap]
  rw [wrap32_of_lt (by omega)]
  omega

/-! ## One call -/

namespace HeapInvariant

variable {heap : Heap} {start total : Nat} {live : Live}
variable {blocks : List HeapBlock}

/-- A request that is granted takes a free block, and all of it is asked for. -/
theorem kmalloc_exact
    (invariant : HeapInvariant heap start blocks live)
    {size : Nat}
    (exact : TakesExactly heap size) :
    Kmalloc.kmalloc heap size = some (0, heap) ∨
      ∃ before block after mem,
        blocks = before ++ block :: after ∧
        block.isFree = true ∧
        takenSize block (actualSizeFor size) = size + headerSize ∧
        Kmalloc.kmalloc heap size =
          some (block.addr + headerSize,
            takenHeap heap block (actualSizeFor size) size mem) ∧
        HeapInvariant (takenHeap heap block (actualSizeFor size) size mem)
          start (before ++ (takeBlock block (actualSizeFor size) ++ after))
          (Function.update live (block.addr + headerSize) (some size)) := by
  by_cases zero : size = 0
  · exact Or.inl (invariant.kmalloc_of_none (Or.inl zero))
  by_cases large : kmallocMaxSize < size
  · exact Or.inl (invariant.kmalloc_of_none (Or.inr (Or.inl large)))
  have small : size ≤ kmallocMaxSize := Nat.le_of_not_lt large
  have isBest := bestFitBlock_isBest (actualSizeFor size) blocks
  cases found : bestFitBlock (actualSizeFor size) blocks none with
  | none =>
      exact Or.inl (invariant.kmalloc_of_none (Or.inr (Or.inr found)))
  | some block =>
      right
      rw [found] at isBest
      obtain ⟨before, after, rfl, first⟩ := isBest
      obtain ⟨free, enough⟩ := first.fits
      obtain ⟨next, result, kept, _⟩ :=
        invariant.kmalloc_takes zero small found free enough
      have same := invariant.kmalloc_of_some zero small found free enough
      obtain rfl := (Prod.mk.inj (Option.some.inj (same.symm.trans result))).2
      rw [actualSizeFor_eq_roundedSize small] at first
      have fits := exact _ invariant.chainBlocks_eq zero small
        ⟨block, by simp, first.fits⟩
      have words := (invariant.chain.sizes block (by simp)).1
      refine ⟨before, block, after, _, rfl, free, ?_, same, kept⟩
      rw [actualSizeFor_eq_roundedSize small]
      exact (exactFit_iff first words).mp fits

theorem kmalloc_balanced
    (invariant : HeapInvariant heap start blocks live)
    (balanced : Balanced heap blocks total)
    {size : Nat}
    (exact : TakesExactly heap size)
    (counted : total + newBytes 0 size (Kmalloc.kmalloc heap size) < 2 ^ 32) :
    ∃ ptr next blocks',
      Kmalloc.kmalloc heap size = some (ptr, next) ∧
      HeapInvariant next start blocks' (grant live ptr size) ∧
      Balanced next blocks'
        (total + newBytes 0 size (Kmalloc.kmalloc heap size)) := by
  rcases invariant.kmalloc_exact exact with failed |
    ⟨before, block, after, mem, rfl, free, whole, result, kept⟩
  · rw [failed]
    exact ⟨0, heap, blocks, rfl, invariant, balanced⟩
  · have nonzero : block.addr + headerSize ≠ 0 := by
      simp only [headerSize]
      omega
    rw [result] at counted ⊢
    simp only [newBytes, nonzero, or_self, ↓reduceIte] at counted ⊢
    refine ⟨_, _, _, rfl, ?_, balanced.take free whole counted mem⟩
    rw [grant_of_ne_zero nonzero]
    exact kept

theorem kfree_balanced
    (invariant : HeapInvariant heap start blocks live)
    {ptr : Nat}
    (held : ptr = 0 ∨ live ptr ≠ none) :
    ∃ next blocks',
      Kmalloc.kfree heap ptr = some next ∧
      HeapInvariant next start blocks' (revoke live ptr) ∧
      ∀ total < 2 ^ 32, Balanced heap blocks total →
        Balanced next blocks' total := by
  by_cases null : ptr = 0
  · subst null
    exact ⟨heap, blocks, rfl, invariant, fun _ _ balanced => balanced⟩
  · obtain ⟨block, member, rfl⟩ := invariant.owned ptr (held.resolve_left null)
    obtain ⟨listed, used⟩ := mem_usedBlocks.mp member
    obtain ⟨before, after, rfl⟩ := List.append_of_mem listed
    have result := invariant.kfree_eq (by simp) used
    have released := invariant.chain.release.1
    generalize freedMemory heap.mem block = mem at result released
    refine ⟨_, _, result, ?_, fun total counted balanced =>
      balanced.release used counted mem⟩
    rw [revoke_of_ne_zero null]
    exact invariant.freed used released

/-- `krealloc` that moves: the new block is counted, and the old one is freed. -/
theorem krealloc_move_balanced
    {before after : List HeapBlock} {block source : HeapBlock}
    (invariant : HeapInvariant heap start (before ++ block :: after) live)
    (balanced : Balanced heap (before ++ block :: after) total)
    (sourceMember : source ∈ usedBlocks (before ++ block :: after))
    (held : live (source.addr + headerSize) ≠ none)
    {size : Nat}
    (grows : source.size < size + headerSize)
    (free : block.isFree = true)
    (whole : takenSize block (actualSizeFor size) = size + headerSize)
    {mem : Memory}
    (result : Kmalloc.kmalloc heap size =
      some (block.addr + headerSize,
        takenHeap heap block (actualSizeFor size) size mem))
    (grown : HeapInvariant (takenHeap heap block (actualSizeFor size) size mem)
      start (before ++ (takeBlock block (actualSizeFor size) ++ after))
      (Function.update live (block.addr + headerSize) (some size))) :
    block.addr + headerSize ≠ 0 ∧
      block.addr + headerSize ≠ source.addr + headerSize ∧
      ∃ next blocks',
        krealloc heap (source.addr + headerSize) size =
          some (block.addr + headerSize, next) ∧
        HeapInvariant next start blocks'
          (Function.update (Function.update live (block.addr + headerSize)
            (some size)) (source.addr + headerSize) none) ∧
        (total + size < 2 ^ 32 → Balanced next blocks' (total + size)) := by
  have nonzero : block.addr + headerSize ≠ 0 := by
    simp only [headerSize]
    omega
  have sourceNonzero : source.addr + headerSize ≠ 0 := by
    simp only [headerSize]
    omega
  have moved : block.addr + headerSize ≠ source.addr + headerSize := by
    intro same
    exact held (same ▸ invariant.live_of_free free)
  have stillHeld : Function.update live (block.addr + headerSize) (some size)
      (source.addr + headerSize) ≠ none := by
    rwa [Function.update_of_ne moved.symm]
  obtain ⟨_, copied, call⟩ := invariant.krealloc_copied sourceMember grows free
    whole.ge result grown
  obtain ⟨next, blocks', freed, kept, keeps⟩ :=
    copied.kfree_balanced (Or.inr stillHeld)
  rw [revoke_of_ne_zero sourceNonzero] at kept
  rw [freed, Option.bind_some] at call
  refine ⟨nonzero, moved, next, blocks', call, kept, fun counted => ?_⟩
  -- the copy changes no counter
  have taken := balanced.take free whole counted mem
  exact keeps _ counted ⟨taken.allocated, taken.freed⟩

theorem krealloc_balanced
    (invariant : HeapInvariant heap start blocks live)
    (balanced : Balanced heap blocks total)
    {ptr : Nat}
    (held : ptr = 0 ∨ live ptr ≠ none)
    {size : Nat}
    (exact : (ptr = 0 ∨ (readHeader heap.mem (headerFromData ptr)).size <
      size + headerSize) → TakesExactly heap size)
    (counted : total + newBytes ptr size (krealloc heap ptr size) < 2 ^ 32) :
    ∃ newPtr next blocks',
      krealloc heap ptr size = some (newPtr, next) ∧
      HeapInvariant next start blocks' (regrant live ptr size newPtr) ∧
      Balanced next blocks'
        (total + newBytes ptr size (krealloc heap ptr size)) := by
  by_cases null : ptr = 0
  · subst null
    have call : krealloc heap 0 size = Kmalloc.kmalloc heap size := if_pos rfl
    rw [call] at counted ⊢
    obtain ⟨newPtr, next, blocks', result, kept, counts⟩ :=
      invariant.kmalloc_balanced balanced (exact (Or.inl rfl)) counted
    refine ⟨newPtr, next, blocks', result, ?_, counts⟩
    rw [regrant_null]
    exact kept
  by_cases zero : size = 0
  · have inRange : total < 2 ^ 32 := by omega
    obtain ⟨next, blocks', result, kept, keeps⟩ :=
      invariant.kfree_balanced held
    have call : krealloc heap ptr size = some (0, next) := by
      simp [krealloc, null, zero, result]
    rw [call]
    refine ⟨0, next, blocks', rfl, ?_,
      by simpa [newBytes] using keeps total inRange balanced⟩
    rw [zero, regrant_zero null]
    exact kept
  obtain ⟨source, member, rfl⟩ := invariant.owned ptr (held.resolve_left null)
  obtain ⟨listed, used⟩ := mem_usedBlocks.mp member
  by_cases fits : size + headerSize ≤ source.size
  · rw [invariant.krealloc_fits listed zero fits]
    refine ⟨_, heap, blocks, rfl, ?_, by simpa [newBytes] using balanced⟩
    rw [regrant_same null zero]
    exact invariant.resized member fits
  have grows : source.size < size + headerSize := Nat.lt_of_not_le fits
  rw [(invariant.ptr_arithmetic listed).2,
    invariant.chain.header_size listed] at exact
  rcases invariant.kmalloc_exact (exact (Or.inr grows)) with failed |
    ⟨before, block, after, mem, rfl, free, whole, result, grown⟩
  · have call : krealloc heap (source.addr + headerSize) size =
        some (0, heap) := by
      rw [invariant.krealloc_eq listed grows, failed]
      rfl
    rw [call]
    refine ⟨0, heap, blocks, rfl, ?_, by simpa [newBytes] using balanced⟩
    rw [regrant_failed null zero]
    exact invariant
  · obtain ⟨nonzero, moved, next, blocks', call, kept, counts⟩ :=
      invariant.krealloc_move_balanced balanced member
        (held.resolve_left null) grows free whole result grown
    have taken : newBytes (source.addr + headerSize) size
        (krealloc heap (source.addr + headerSize) size) = size := by
      rw [call, newBytes, if_neg (not_or.mpr ⟨nonzero, moved⟩)]
    rw [taken] at counted ⊢
    refine ⟨_, next, blocks', call, ?_, counts counted⟩
    rw [regrant_moved null zero nonzero moved]
    exact kept

end HeapInvariant

/-! ## Whole runs -/

theorem HeapCall.balanced
    {run : HeapRun} {start total : Nat} {blocks : List HeapBlock}
    (invariant : HeapInvariant run.heap start blocks run.live)
    (balanced : Balanced run.heap blocks total)
    (call : HeapCall)
    (permitted : call.Permitted run)
    (exact : call.Exact run)
    (counted : total + call.newBytes run < 2 ^ 32) :
    ∃ next blocks',
      call.perform run = some next ∧
      HeapInvariant next.heap start blocks' next.live ∧
      Balanced next.heap blocks' (total + call.newBytes run) := by
  cases call with
  | kmalloc size =>
      obtain ⟨ptr, heap, blocks', result, kept, counts⟩ :=
        invariant.kmalloc_balanced balanced exact counted
      exact ⟨⟨heap, grant run.live ptr size⟩, blocks',
        by simp [HeapCall.perform, result], kept, counts⟩
  | kcalloc num size =>
      have call := invariant.kcalloc_eq num size
      simp only [HeapCall.newBytes, call] at counted ⊢
      obtain ⟨ptr, heap, blocks', result, kept, counts⟩ :=
        invariant.kmalloc_balanced balanced exact counted
      exact ⟨⟨heap, grant run.live ptr (wrap32 (num * size))⟩, blocks',
        by simp [HeapCall.perform, call, result], kept, counts⟩
  | krealloc ptr size =>
      obtain ⟨newPtr, heap, blocks', result, kept, counts⟩ :=
        invariant.krealloc_balanced balanced permitted exact counted
      exact ⟨⟨heap, regrant run.live ptr size newPtr⟩, blocks',
        by simp [HeapCall.perform, result], kept, counts⟩
  | kfree ptr =>
      obtain ⟨heap, blocks', result, kept, keeps⟩ :=
        invariant.kfree_balanced permitted
      exact ⟨⟨heap, revoke run.live ptr⟩, blocks',
        by simp [HeapCall.perform, result], kept, keeps total counted balanced⟩
  | write ptr offset byte =>
      obtain ⟨request, held, inside⟩ := permitted
      exact ⟨_, blocks, rfl, invariant.write_returns held inside byte,
        ⟨balanced.allocated, balanced.freed⟩⟩

theorem ExactRun.balanced
    {sys : Pmm.BuddySystem} {mem : Memory} {run : HeapRun} {total : Nat}
    (reached : ExactRun sys mem run total)
    (granted : HeapGranted sys) :
    ∃ blocks, HeapInvariant run.heap (heapStart sys) blocks run.live ∧
      Balanced run.heap blocks total := by
  induction reached with
  | init =>
      exact ⟨_, initialHeap_invariant granted mem, ⟨rfl, rfl⟩⟩
  | call request _ permitted exact performed counted inductionHypothesis =>
      obtain ⟨blocks, invariant, balanced⟩ := inductionHypothesis
      obtain ⟨next, blocks', result, kept, counts⟩ :=
        request.balanced invariant balanced permitted exact counted
      obtain rfl := Option.some.inj (result.symm.trans performed)
      exact ⟨blocks', kept, counts⟩

/-- The same pointers are live, with as many bytes behind each of them. -/
def SameAllocations (run other : HeapRun) : Prop :=
  ∀ ptr, (run.live ptr ≠ none ↔ other.live ptr ≠ none) ∧
    (run.live ptr ≠ none → capacity run.heap ptr = capacity other.heap ptr)

theorem SameAllocations.symm
    {run other : HeapRun}
    (same : SameAllocations run other) :
    SameAllocations other run := by
  intro ptr
  obtain ⟨live, bytes⟩ := same ptr
  exact ⟨live.symm, fun held => (bytes (live.mpr held)).symm⟩

section Allocations

variable {run other : HeapRun} {start otherStart : Nat}
variable {blocks otherBlocks : List HeapBlock}

theorem SameAllocations.usedBlocks_subset
    (same : SameAllocations run other)
    (invariant : HeapInvariant run.heap start blocks run.live)
    (otherInvariant :
      HeapInvariant other.heap otherStart otherBlocks other.live) :
    usedBlocks blocks ⊆ usedBlocks otherBlocks := by
  intro block member
  obtain ⟨request, held, _⟩ := invariant.fits block member
  obtain ⟨live, bytes⟩ := same (block.addr + headerSize)
  have isLive : run.live (block.addr + headerSize) ≠ none := by simp [held]
  obtain ⟨twin, twinMember, place⟩ :=
    otherInvariant.owned _ (live.mp isLive)
  obtain ⟨listed, used⟩ := mem_usedBlocks.mp member
  obtain ⟨twinListed, twinUsed⟩ := mem_usedBlocks.mp twinMember
  have size := (invariant.chain.sizes block listed).2
  have twinSize := (otherInvariant.chain.sizes twin twinListed).2
  have capacities := bytes isLive
  rw [invariant.capacity_eq listed, place,
    otherInvariant.capacity_eq twinListed] at capacities
  simp only [headerSize] at capacities place
  have equal : block = twin := by
    obtain ⟨addr, size, isFree⟩ := block
    obtain ⟨twinAddr, twinSize, twinFree⟩ := twin
    simp only at used twinUsed capacities place size twinSize
    simp only [HeapBlock.mk.injEq]
    refine ⟨by omega, by omega, used.trans twinUsed.symm⟩
  exact equal ▸ twinMember

theorem HeapInvariant.usedBlocks_nodup
    {heap : Heap} {live : Live}
    (invariant : HeapInvariant heap start blocks live) :
    (usedBlocks blocks).Nodup := by
  have increasing := invariant.chain.contiguous.starts_increasing
    fun block member => Nat.lt_of_lt_of_le (Nat.zero_lt_succ 23)
      (invariant.chain.sizes block member).2
  have distinct : (blocks.map HeapBlock.addr).Nodup :=
    increasing.imp fun less => Nat.ne_of_lt less
  exact distinct.of_map.filter _

theorem SameAllocations.payloadBytes_eq
    (same : SameAllocations run other)
    (invariant : HeapInvariant run.heap start blocks run.live)
    (otherInvariant :
      HeapInvariant other.heap otherStart otherBlocks other.live) :
    payloadBytes blocks = payloadBytes otherBlocks := by
  have perm : (usedBlocks blocks).Perm (usedBlocks otherBlocks) :=
    (List.perm_ext_iff_of_nodup invariant.usedBlocks_nodup
      otherInvariant.usedBlocks_nodup).mpr fun _ =>
        ⟨fun member => same.usedBlocks_subset invariant otherInvariant member,
          fun member =>
            same.symm.usedBlocks_subset otherInvariant invariant member⟩
  exact (perm.map _).sum_eq

end Allocations

/-! ## The first allocation -/

/-- The first allocation cuts a piece off the one block there is. -/
theorem initialHeap_kmalloc
    {sys : Pmm.BuddySystem}
    (granted : HeapGranted sys)
    (mem : Memory)
    {size : Nat}
    (positive : size ≠ 0)
    (small : size ≤ 1000) :
    ∃ changed rest,
      kmalloc (initialHeap sys mem) size =
        some (heapStart sys + headerSize,
          HeapInvariant.takenHeap (initialHeap sys mem)
            ⟨heapStart sys, heapSize, true⟩ (roundedSize size) size changed) ∧
      HeapInvariant
        (HeapInvariant.takenHeap (initialHeap sys mem)
          ⟨heapStart sys, heapSize, true⟩ (roundedSize size) size changed)
        (heapStart sys)
        ([] ++ ⟨heapStart sys, roundedSize size, false⟩ :: rest)
        (Function.update (fun _ => none) (heapStart sys + headerSize)
          (some size)) := by
  have invariant : HeapInvariant (initialHeap sys mem) (heapStart sys)
      ([] ++ ⟨heapStart sys, heapSize, true⟩ :: []) fun _ => none :=
    initialHeap_invariant granted mem
  have max : size ≤ kmallocMaxSize := small.trans (by decide)
  have heapBytes : heapSize = 1048576 := rfl
  have fits : actualSizeFor size ≤ heapSize := by
    rw [actualSizeFor_eq max]
    omega
  have found : bestFitBlock (actualSizeFor size)
      ([] ++ ⟨heapStart sys, heapSize, true⟩ :: []) none =
        some ⟨heapStart sys, heapSize, true⟩ := by
    simp [bestFitBlock, fits]
  obtain ⟨next, result, kept, _⟩ :=
    invariant.kmalloc_takes positive max found rfl fits
  have same := invariant.kmalloc_of_some positive max found rfl fits
  obtain rfl := (Prod.mk.inj (Option.some.inj (same.symm.trans result))).2
  rw [actualSizeFor_eq_roundedSize max] at same kept
  have room : heapSize ≥ roundedSize size + headerSize + kmallocMinSize := by
    simp only [roundedSize, headerSize, kmallocMinSize]
    omega
  rw [takeBlock, if_pos room] at kept
  exact ⟨_, _, same, kept⟩

/-- Eight bytes are taken exactly. -/
theorem exactRun_first
    {sys : Pmm.BuddySystem}
    (granted : HeapGranted sys)
    (mem : Memory) :
    ∃ run, ExactRun sys mem run 8 := by
  obtain ⟨changed, rest, result, _⟩ :=
    initialHeap_kmalloc granted mem (show 8 ≠ 0 by decide) (by decide)
  have invariant := initialHeap_invariant granted mem
  have exact : TakesExactly (initialHeap sys mem) 8 := by
    intro blocks found _ _ _
    obtain rfl := Option.some.inj (invariant.chainBlocks_eq.symm.trans found)
    refine ⟨by decide, Or.inr fun block member _ => ?_⟩
    rw [List.mem_singleton.mp member]
    exact (by decide :
      8 + headerSize + headerSize + kmallocMinSize ≤ heapSize)
  have taken : HeapCall.newBytes ⟨initialHeap sys mem, fun _ => none⟩
      (.kmalloc 8) = 8 := by
    simp only [HeapCall.newBytes, result, newBytes, headerSize]
    exact if_neg (by omega)
  have step := ExactRun.call (.kmalloc 8) (@ExactRun.init sys mem) trivial
    exact (by rw [HeapCall.perform, result]; rfl) (by rw [taken]; decide)
  rw [taken] at step
  exact ⟨_, step⟩

/-- `kfree` counts 8 bytes for the one byte that `kmalloc` has counted. -/
theorem kmalloc_kfree_one
    {sys : Pmm.BuddySystem}
    (granted : HeapGranted sys)
    (mem : Memory) :
    ∃ first second ptr,
      HeapCall.perform ⟨initialHeap sys mem, fun _ => none⟩ (.kmalloc 1) =
        some first ∧
      first.live ptr = some 1 ∧
      HeapCall.perform first (.kfree ptr) = some second ∧
      (∀ other, second.live other = none) ∧
      second.heap.totalAllocated = 1 ∧ second.heap.totalFreed = 8 := by
  obtain ⟨changed, rest, result, kept⟩ :=
    initialHeap_kmalloc granted mem (show 1 ≠ 0 by decide) (by decide)
  have nonzero : heapStart sys + headerSize ≠ 0 := by
    simp only [headerSize]
    omega
  have freed := kept.kfree_eq (List.mem_cons_self ..) rfl
  have allocatedOne : (HeapInvariant.takenHeap (initialHeap sys mem)
      ⟨heapStart sys, heapSize, true⟩ (roundedSize 1) 1 changed).totalAllocated =
        1 := rfl
  have freedNone : (HeapInvariant.takenHeap (initialHeap sys mem)
      ⟨heapStart sys, heapSize, true⟩ (roundedSize 1) 1 changed).totalFreed =
        0 := rfl
  generalize HeapInvariant.takenHeap (initialHeap sys mem)
    ⟨heapStart sys, heapSize, true⟩ (roundedSize 1) 1 changed = middle
    at result freed allocatedOne freedNone
  generalize freedMemory middle.mem _ = mem' at freed
  generalize heapStart sys + headerSize = ptr at result freed nonzero
  refine ⟨⟨middle, grant (fun _ => none) ptr 1⟩,
    ⟨HeapInvariant.freedHeap middle ⟨heapStart sys, roundedSize 1, false⟩ mem',
      revoke (grant (fun _ => none) ptr 1) ptr⟩, ptr,
    by rw [HeapCall.perform, result]; rfl, ?_,
    by rw [HeapCall.perform, freed]; rfl, fun other => ?_, allocatedOne, ?_⟩
  · simp only [grant_of_ne_zero nonzero, Function.update_self]
  · simp only [revoke_of_ne_zero nonzero, grant_of_ne_zero nonzero,
      Function.update_idem]
    exact congrFun (Function.update_eq_self ptr fun _ => none) other
  · simp only [HeapInvariant.freedHeap, freedNone]
    decide

/-! ## The balance -/

/--
In every run that takes exactly what is asked for, the counters differ by the
bytes of the live allocations.
-/
theorem heapStatistics_balanced
    {sys : Pmm.BuddySystem}
    (granted : HeapGranted sys)
    {mem : Memory}
    {run : HeapRun} {total : Nat}
    (reached : ExactRun sys mem run total) :
    run.heap.totalFreed ≤ run.heap.totalAllocated ∧
    (∃ blocks, chainBlocks run.heap = some blocks ∧
      run.heap.totalAllocated - run.heap.totalFreed = payloadBytes blocks) ∧
    (∀ otherMem other otherTotal, ExactRun sys otherMem other otherTotal →
      SameAllocations run other →
      run.heap.totalAllocated - run.heap.totalFreed =
        other.heap.totalAllocated - other.heap.totalFreed) ∧
    ((∀ ptr, run.live ptr = none) →
      run.heap.totalAllocated = run.heap.totalFreed) := by
  obtain ⟨blocks, invariant, allocated, freed⟩ := reached.balanced granted
  refine ⟨by omega, ⟨blocks, invariant.chainBlocks_eq, by omega⟩, ?_, ?_⟩
  · intro otherMem other otherTotal otherReached same
    obtain ⟨otherBlocks, otherInvariant, otherAllocated, otherFreed⟩ :=
      otherReached.balanced granted
    have equal := same.payloadBytes_eq invariant otherInvariant
    omega
  · intro nothing
    have none : usedBlocks blocks = [] := by
      refine List.eq_nil_iff_forall_not_mem.mpr fun block member => ?_
      obtain ⟨request, held, _⟩ := invariant.fits block member
      rw [nothing] at held
      cases held
    simp only [payloadBytes, none, List.map_nil, List.sum_nil] at freed
    omega

/-- The run that allocates 8 bytes. -/
theorem heapStatistics_balanced_eight :
    ∃ run, ExactRun bootSys (fun _ => 0) run 8 ∧
      (run.heap.totalFreed ≤ run.heap.totalAllocated ∧
      (∃ blocks, chainBlocks run.heap = some blocks ∧
        run.heap.totalAllocated - run.heap.totalFreed = payloadBytes blocks) ∧
      (∀ otherMem other otherTotal,
        ExactRun bootSys otherMem other otherTotal →
        SameAllocations run other →
        run.heap.totalAllocated - run.heap.totalFreed =
          other.heap.totalAllocated - other.heap.totalFreed) ∧
      ((∀ ptr, run.live ptr = none) →
        run.heap.totalAllocated = run.heap.totalFreed)) := by
  obtain ⟨run, reached⟩ := exactRun_first bootSys_granted (fun _ => 0)
  exact ⟨run, reached, heapStatistics_balanced bootSys_granted reached⟩

/--
One byte is allocated and freed: nothing is live, 1 byte has been allocated
and 8 bytes have been freed.
-/
theorem not_heapStatistics_balanced :
    ∃ first second ptr,
      HeapCall.perform ⟨initialHeap bootSys fun _ => 0, fun _ => none⟩
        (.kmalloc 1) = some first ∧
      first.live ptr = some 1 ∧
      HeapCall.perform first (.kfree ptr) = some second ∧
      HeapReachable bootSys (fun _ => 0) second ∧
      (∀ other, second.live other = none) ∧
      second.heap.totalAllocated = 1 ∧ second.heap.totalFreed = 8 ∧
      ¬ second.heap.totalFreed ≤ second.heap.totalAllocated := by
  obtain ⟨first, second, ptr, granted, held, released, nothing, allocated,
    freed⟩ := kmalloc_kfree_one bootSys_granted fun _ => 0
  refine ⟨first, second, ptr, granted, held, released,
    .call (.kfree ptr) (.call (.kmalloc 1) .init trivial granted)
      (Or.inr (by simp [held])) released,
    nothing, allocated, freed, by omega⟩

end MatrixOS.Kmalloc
