import MatrixOS.KmallocInvariant
import MatrixOS.PmmRegion

namespace MatrixOS.Kmalloc

open ByteMemory Layout Tiling

/-!
# Runs of the kernel heap

A run starts with `kmalloc_init` and goes on with any sequence of calls by
clients that release and resize only what they hold and write only inside
what they asked for.
-/

/-! ## Initialisation -/

/-- The page allocator grants an aligned block of 256 pages. -/
structure HeapGranted (sys : Pmm.BuddySystem) : Prop where
  nonzero : (Pmm.pmmAllocPages sys 8).1 ≠ 0
  aligned : Pmm.PageBlock.Aligned ⟨(Pmm.pmmAllocPages sys 8).1, 8⟩
  inRange : (Pmm.pmmAllocPages sys 8).1 < 2 ^ 32

/-- In every run of the page allocator a successful call grants the heap. -/
theorem heapGranted_of_reachable
    {prior : Pmm.BuddySystem}
    {memoryStart memoryEnd : Nat}
    (aligned : 2 ^ 23 ∣ memoryStart)
    (ordered : memoryStart < memoryEnd)
    (inRange : memoryEnd < 2 ^ 32)
    {run : Pmm.PmmRun}
    (reached : Pmm.Reachable prior memoryStart memoryEnd run)
    (granted : (Pmm.pmmAllocPages run.sys 8).1 ≠ 0) :
    HeapGranted run.sys := by
  have invariant := reached.invariant aligned ordered inRange
  rcases invariant.pmmAllocPages_cases 8 with
    ⟨failed, _⟩ | ⟨_, _, _, allocated⟩
  · rw [failed] at granted
    exact absurd rfl granted
  · have block : ⟨(Pmm.pmmAllocPages run.sys 8).1, 8⟩ ∈
        (⟨(Pmm.pmmAllocPages run.sys 8).1, 8⟩ :: run.live) ++
          (Pmm.pmmAllocPages run.sys 8).2.freeBlocks := by
      simp
    exact ⟨granted, allocated.aligned _ block,
      (allocated.addr_bounds _ block).2⟩

/-- The heap after `kmalloc_init`. -/
def initialHeap (sys : Pmm.BuddySystem) (mem : Memory) : Heap :=
  (kmallocInit sys mem).1

/-- The address of the heap. -/
def heapStart (sys : Pmm.BuddySystem) : Nat :=
  (Pmm.pmmAllocPages sys 8).1

theorem initialHeap_invariant
    {sys : Pmm.BuddySystem}
    (granted : HeapGranted sys)
    (mem : Memory) :
    HeapInvariant (initialHeap sys mem) (heapStart sys)
      [⟨heapStart sys, heapSize, true⟩] fun _ => none := by
  obtain ⟨nonzero, aligned, inRange⟩ := granted
  have heapBytes : heapSize = 1048576 := rfl
  have length : 2 ^ 8 * pageSize = heapSize := by
    norm_num [heapSize, pageSize]
  simp only [Pmm.PageBlock.Aligned, length] at aligned
  simp only [initialHeap, heapStart, kmallocInit]
  generalize (Pmm.pmmAllocPages sys 8).1 = start at nonzero aligned inRange ⊢
  obtain ⟨position, rfl⟩ := aligned
  rw [heapBytes] at nonzero inRange ⊢
  have sizeRange : 256 * pageSize < 2 ^ 32 := by
    norm_num [pageSize]
  refine ⟨rfl, rfl, ⟨by omega, by omega, by omega, ⟨rfl, rfl⟩, ?_, ?_, trivial⟩,
    rfl, by simp, by simp [usedBlocks]⟩
  · intro block member
    rw [List.mem_singleton.mp member]
    exact ⟨by simp only; omega, by simp only; omega⟩
  · simp only [readHeader_setPrev, readHeader_setNext, readHeader_setIsFree,
      readHeader_setSize, HeapBlock.header, wrap32_of_lt sizeRange]
    norm_num [wrap32, pageSize, heapBytes]

/-! ## Calls -/

/-- The heap and the pointers its clients hold. -/
structure HeapRun where
  heap : Heap
  live : Live

/-- What a client may do. -/
inductive HeapCall where
  | kmalloc (size : Nat)
  | kcalloc (num size : Nat)
  | krealloc (ptr size : Nat)
  | kfree (ptr : Nat)
  | write (ptr offset : Nat) (byte : UInt8)
  deriving DecidableEq

/-- Clients pass live pointers and write inside what they asked for. -/
def HeapCall.Permitted (run : HeapRun) : HeapCall → Prop
  | .kmalloc _ => True
  | .kcalloc _ _ => True
  | .krealloc ptr _ => ptr = 0 ∨ run.live ptr ≠ none
  | .kfree ptr => ptr = 0 ∨ run.live ptr ≠ none
  | .write ptr offset _ => ∃ request ∈ run.live ptr, offset < request

/-- A client now holds a pointer it was given for a request. -/
def grant (live : Live) (ptr request : Nat) : Live :=
  if ptr = 0 then live else Function.update live ptr (some request)

/-- A client has given up a pointer. -/
def revoke (live : Live) (ptr : Nat) : Live :=
  if ptr = 0 then live else Function.update live ptr none

/-- The pointers held after `krealloc(ptr, size)` has returned `newPtr`. -/
def regrant (live : Live) (ptr size newPtr : Nat) : Live :=
  if ptr = 0 then grant live newPtr size
  else if size = 0 then revoke live ptr
  else if newPtr = 0 then live
  else grant (revoke live ptr) newPtr size

section Granting

variable {live : Live} {ptr newPtr request size : Nat}

theorem grant_of_ne_zero (nonzero : ptr ≠ 0) :
    grant live ptr request = Function.update live ptr (some request) :=
  if_neg nonzero

theorem revoke_of_ne_zero (nonzero : ptr ≠ 0) :
    revoke live ptr = Function.update live ptr none :=
  if_neg nonzero

theorem regrant_null : regrant live 0 size newPtr = grant live newPtr size :=
  if_pos rfl

theorem regrant_zero (nonzero : ptr ≠ 0) :
    regrant live ptr 0 newPtr = revoke live ptr := by
  rw [regrant, if_neg nonzero, if_pos rfl]

/-- A `krealloc` that fails leaves the old pointer held. -/
theorem regrant_failed (nonzero : ptr ≠ 0) (asked : size ≠ 0) :
    regrant live ptr size 0 = live := by
  rw [regrant, if_neg nonzero, if_neg asked, if_pos rfl]

/-- A `krealloc` in place holds the same pointer for the new size. -/
theorem regrant_same (nonzero : ptr ≠ 0) (asked : size ≠ 0) :
    regrant live ptr size ptr = Function.update live ptr (some size) := by
  rw [regrant, if_neg nonzero, if_neg asked, if_neg nonzero,
    grant_of_ne_zero nonzero, revoke_of_ne_zero nonzero, Function.update_idem]

theorem regrant_moved
    (nonzero : ptr ≠ 0)
    (asked : size ≠ 0)
    (newNonzero : newPtr ≠ 0)
    (moved : newPtr ≠ ptr) :
    regrant live ptr size newPtr =
      Function.update (Function.update live newPtr (some size)) ptr none := by
  rw [regrant, if_neg nonzero, if_neg asked, if_neg newNonzero,
    grant_of_ne_zero newNonzero, revoke_of_ne_zero nonzero,
    Function.update_comm moved.symm]

end Granting

/-- One call; `none` when it does not return. -/
def HeapCall.perform (run : HeapRun) : HeapCall → Option HeapRun
  | .kmalloc size => do
      let (ptr, heap) ← Kmalloc.kmalloc run.heap size
      some ⟨heap, grant run.live ptr size⟩
  | .kcalloc num size => do
      let (ptr, heap) ← Kmalloc.kcalloc run.heap num size
      some ⟨heap, grant run.live ptr (wrap32 (num * size))⟩
  | .krealloc ptr size => do
      let (newPtr, heap) ← Kmalloc.krealloc run.heap ptr size
      some ⟨heap, regrant run.live ptr size newPtr⟩
  | .kfree ptr => do
      let heap ← Kmalloc.kfree run.heap ptr
      some ⟨heap, revoke run.live ptr⟩
  | .write ptr offset byte =>
      some ⟨{ run.heap with
        mem := Function.update run.heap.mem (ptr + offset) byte }, run.live⟩

/-- The states reached from `kmalloc_init` by permitted calls. -/
inductive HeapReachable (sys : Pmm.BuddySystem) (mem : Memory) :
    HeapRun → Prop
  | init : HeapReachable sys mem ⟨initialHeap sys mem, fun _ => none⟩
  | call {run next : HeapRun} (request : HeapCall)
      (reached : HeapReachable sys mem run)
      (permitted : request.Permitted run)
      (performed : request.perform run = some next) :
      HeapReachable sys mem next

/-! ## One call -/

namespace HeapInvariant

variable {heap : Heap} {start : Nat} {live : Live} {blocks : List HeapBlock}

theorem live_zero (invariant : HeapInvariant heap start blocks live) :
    live 0 = none := by
  by_contra held
  obtain ⟨block, _, zero⟩ := invariant.owned 0 held
  simp only [headerSize] at zero
  omega

theorem kmalloc_returns
    (invariant : HeapInvariant heap start blocks live)
    (size : Nat) :
    ∃ ptr next blocks',
      Kmalloc.kmalloc heap size = some (ptr, next) ∧
      HeapInvariant next start blocks' (grant live ptr size) ∧
      (ptr ≠ 0 → ptr + size ≤ 2 ^ 32 ∧
        ∀ address, InRange ptr size address → next.mem address = 0) ∧
      PayloadsKept blocks heap.mem next.mem ∧
      (Coalesced blocks → Coalesced blocks') := by
  rcases invariant.kmalloc size with failed |
    ⟨before, block, after, next, rfl, free, enough, within, result, kept,
      zeros, payloads⟩
  · exact ⟨0, heap, blocks, failed, invariant,
      fun nonzero => absurd rfl nonzero, fun _ _ _ _ => rfl, id⟩
  · have nonzero : block.addr + headerSize ≠ 0 := by
      simp only [headerSize]
      omega
    have bounds := invariant.chain.bounds
      (show block ∈ before ++ block :: after by simp)
    have heapRange := invariant.chain.inRange
    rw [← grant_of_ne_zero nonzero] at kept
    exact ⟨block.addr + headerSize, next, _, result, kept,
      fun _ => ⟨by omega, zeros⟩, payloads,
      fun coalesced => coalesced_takeBlock coalesced free _⟩

/-- The second clearing finds the bytes cleared already. -/
theorem kcalloc_eq
    (invariant : HeapInvariant heap start blocks live)
    (num size : Nat) :
    kcalloc heap num size = Kmalloc.kmalloc heap (wrap32 (num * size)) := by
  obtain ⟨ptr, next, _, result, _, zeros, _⟩ :=
    invariant.kmalloc_returns (wrap32 (num * size))
  by_cases failed : ptr = 0
  · simp [kcalloc, result, failed]
  · obtain ⟨inRange, cleared⟩ := zeros failed
    have unchanged :
        memsetFlat next.mem ptr 0 (wrap32 (num * size)) = next.mem := by
      rw [memsetFlat_eq inRange]
      funext address
      by_cases inside : InRange ptr (wrap32 (num * size)) address
      · rw [fill_of_inRange inside, cleared address inside]
        rfl
      · exact fill_of_not_inRange inside
    simp [kcalloc, result, failed, unchanged]

theorem kcalloc_returns
    (invariant : HeapInvariant heap start blocks live)
    (num size : Nat) :
    ∃ ptr next blocks',
      kcalloc heap num size = some (ptr, next) ∧
      HeapInvariant next start blocks' (grant live ptr (wrap32 (num * size))) ∧
      PayloadsKept blocks heap.mem next.mem ∧
      (Coalesced blocks → Coalesced blocks') := by
  obtain ⟨ptr, next, blocks', result, kept, _, payloads, coalesced⟩ :=
    invariant.kmalloc_returns (wrap32 (num * size))
  rw [invariant.kcalloc_eq]
  exact ⟨ptr, next, blocks', result, kept, payloads, coalesced⟩

theorem kfree_returns
    (invariant : HeapInvariant heap start blocks live)
    {ptr : Nat}
    (held : ptr = 0 ∨ live ptr ≠ none) :
    ∃ next blocks',
      Kmalloc.kfree heap ptr = some next ∧
      HeapInvariant next start blocks' (revoke live ptr) ∧
      PayloadsKept blocks heap.mem next.mem ∧
      (Coalesced blocks → Coalesced blocks') := by
  by_cases null : ptr = 0
  · subst null
    exact ⟨heap, blocks, rfl, invariant, fun _ _ _ _ => rfl, id⟩
  · obtain ⟨block, member, rfl⟩ := invariant.owned ptr (held.resolve_left null)
    obtain ⟨listed, used⟩ := mem_usedBlocks.mp member
    obtain ⟨before, after, rfl⟩ := List.append_of_mem listed
    obtain ⟨next, result, kept, payloads⟩ := invariant.kfree used
    rw [← revoke_of_ne_zero null] at kept
    exact ⟨next, _, result, kept, payloads, coalesced_releaseBlocks⟩

theorem krealloc_returns
    (invariant : HeapInvariant heap start blocks live)
    {ptr : Nat}
    (held : ptr = 0 ∨ live ptr ≠ none)
    (size : Nat) :
    ∃ newPtr next blocks',
      krealloc heap ptr size = some (newPtr, next) ∧
      HeapInvariant next start blocks' (regrant live ptr size newPtr) ∧
      PayloadsKept blocks heap.mem next.mem ∧
      (Coalesced blocks → Coalesced blocks') := by
  by_cases null : ptr = 0
  · obtain ⟨newPtr, next, blocks', result, kept, _, payloads, coalesced⟩ :=
      invariant.kmalloc_returns size
    refine ⟨newPtr, next, blocks', ?_, ?_, payloads, coalesced⟩
    · rw [krealloc, if_pos null, result]
    · rw [null, regrant_null]
      exact kept
  by_cases zero : size = 0
  · obtain ⟨next, blocks', result, kept, payloads, coalesced⟩ :=
      invariant.kfree_returns held
    refine ⟨0, next, blocks', ?_, ?_, payloads, coalesced⟩
    · simp [krealloc, null, zero, result]
    · rw [zero, regrant_zero null]
      exact kept
  obtain ⟨block, member, rfl⟩ := invariant.owned ptr (held.resolve_left null)
  obtain ⟨listed, used⟩ := mem_usedBlocks.mp member
  by_cases fits : size + headerSize ≤ block.size
  · refine ⟨block.addr + headerSize, heap, blocks, ?_, ?_,
      fun _ _ _ _ => rfl, id⟩
    · exact invariant.krealloc_fits listed zero fits
    · rw [regrant_same null zero]
      exact invariant.resized member fits
  · have grows : block.size < size + headerSize := by omega
    rcases invariant.krealloc_of_lt member grows with ⟨_, failed⟩ |
      ⟨newPtr, _, next, blocks', _, result, moved⟩
    · refine ⟨0, heap, blocks, failed, ?_, fun _ _ _ _ => rfl, id⟩
      rw [regrant_failed null zero]
      exact invariant
    · refine ⟨newPtr, next, blocks', result, ?_, moved.kept, moved.coalesced⟩
      have different : newPtr ≠ block.addr + headerSize := by
        rintro rfl
        exact held.resolve_left null moved.fresh
      rw [regrant_moved null zero moved.nonzero different]
      exact moved.invariant

theorem write_returns
    (invariant : HeapInvariant heap start blocks live)
    {ptr offset request : Nat}
    (held : live ptr = some request)
    (inside : offset < request)
    (byte : UInt8) :
    HeapInvariant
      { heap with mem := Function.update heap.mem (ptr + offset) byte }
      start blocks live := by
  obtain ⟨block, listed, _, rfl, fits⟩ := invariant.block_of_live held
  refine invariant.withMemory fun address headerByte => ?_
  refine Function.update_of_ne ?_ _ _
  rintro rfl
  exact invariant.chain.payload_not_header listed
    ⟨Nat.le_add_right _ _, by omega⟩ headerByte

end HeapInvariant

/-! ## Whole runs -/

/-- The call is one of the four heap functions. -/
def HeapCall.IsHeapFunction : HeapCall → Prop
  | .write _ _ _ => False
  | _ => True

/-- Every permitted call returns and keeps the invariant. -/
theorem HeapCall.returns
    {run : HeapRun} {start : Nat} {blocks : List HeapBlock}
    (invariant : HeapInvariant run.heap start blocks run.live)
    (call : HeapCall)
    (permitted : call.Permitted run) :
    ∃ next blocks',
      call.perform run = some next ∧
      HeapInvariant next.heap start blocks' next.live ∧
      (call.IsHeapFunction → PayloadsKept blocks run.heap.mem next.heap.mem) ∧
      (Coalesced blocks → Coalesced blocks') := by
  cases call with
  | kmalloc size =>
      obtain ⟨ptr, heap, blocks', result, kept, _, payloads, coalesced⟩ :=
        invariant.kmalloc_returns size
      exact ⟨⟨heap, grant run.live ptr size⟩, blocks',
        by simp [HeapCall.perform, result], kept, fun _ => payloads, coalesced⟩
  | kcalloc num size =>
      obtain ⟨ptr, heap, blocks', result, kept, payloads, coalesced⟩ :=
        invariant.kcalloc_returns num size
      exact ⟨⟨heap, grant run.live ptr (wrap32 (num * size))⟩, blocks',
        by simp [HeapCall.perform, result], kept, fun _ => payloads, coalesced⟩
  | krealloc ptr size =>
      obtain ⟨newPtr, heap, blocks', result, kept, payloads, coalesced⟩ :=
        invariant.krealloc_returns permitted size
      exact ⟨⟨heap, regrant run.live ptr size newPtr⟩, blocks',
        by simp [HeapCall.perform, result], kept, fun _ => payloads, coalesced⟩
  | kfree ptr =>
      obtain ⟨heap, blocks', result, kept, payloads, coalesced⟩ :=
        invariant.kfree_returns permitted
      exact ⟨⟨heap, revoke run.live ptr⟩, blocks',
        by simp [HeapCall.perform, result], kept, fun _ => payloads, coalesced⟩
  | write ptr offset byte =>
      obtain ⟨request, held, inside⟩ := permitted
      exact ⟨_, blocks, rfl, invariant.write_returns held inside byte,
        fun impossible => impossible.elim, id⟩

/-- The invariant holds in every state of a run, and free blocks are joined. -/
theorem HeapReachable.coalesced
    {sys : Pmm.BuddySystem} {mem : Memory} {run : HeapRun}
    (reached : HeapReachable sys mem run)
    (granted : HeapGranted sys) :
    ∃ blocks, HeapInvariant run.heap (heapStart sys) blocks run.live ∧
      Coalesced blocks := by
  induction reached with
  | init =>
      exact ⟨_, initialHeap_invariant granted mem, List.isChain_singleton _⟩
  | call request _ permitted performed inductionHypothesis =>
      obtain ⟨blocks, invariant, coalesced⟩ := inductionHypothesis
      obtain ⟨next, blocks', result, kept, _, stays⟩ :=
        request.returns invariant permitted
      obtain rfl := Option.some.inj (result.symm.trans performed)
      exact ⟨blocks', kept, stays coalesced⟩

theorem HeapReachable.invariant
    {sys : Pmm.BuddySystem} {mem : Memory} {run : HeapRun}
    (reached : HeapReachable sys mem run)
    (granted : HeapGranted sys) :
    ∃ blocks, HeapInvariant run.heap (heapStart sys) blocks run.live := by
  obtain ⟨blocks, invariant, _⟩ := reached.coalesced granted
  exact ⟨blocks, invariant⟩

/-! ## The heap of the boot region -/

/-- The page allocator of the region of `boot_config.h`. -/
def bootSys : Pmm.BuddySystem :=
  Pmm.pmmInit Pmm.bss 0x01000000 0x02000000

theorem bootSys_granted : HeapGranted bootSys := by
  have reached : Pmm.Reachable Pmm.bss 0x01000000 0x02000000 ⟨bootSys, []⟩ :=
    Relation.ReflTransGen.refl
  have invariant := reached.invariant (by norm_num) (by norm_num) (by norm_num)
  refine heapGranted_of_reachable (by norm_num) (by norm_num) (by norm_num)
    reached ?_
  rcases invariant.pmmAllocPages_cases 8 with ⟨_, empty⟩ | ⟨found, _⟩
  · have listed : ⟨0x01800000, Pmm.maxOrder⟩ ∈ bootSys.freeBlocks :=
      (Pmm.mem_pmmInit Pmm.bss (by norm_num [pageSize]) (by norm_num)
        (by norm_num) _).mpr
        ⟨rfl, 0, by norm_num [Pmm.regionPages, pageSize],
          by norm_num [Pmm.firstBlock, Pmm.bitmapSize, Pmm.regionPages,
            pageSize, wrap32]⟩
    have inList := (Pmm.BuddySystem.mem_freeBlocks.mp listed).2
    rw [empty Pmm.maxOrder (by decide) (Nat.le_refl _)] at inList
    simp at inList
  · exact found

/-- The first allocation of a run succeeds. -/
theorem first_kmalloc
    {sys : Pmm.BuddySystem}
    (granted : HeapGranted sys)
    (mem : Memory) :
    ∃ run, HeapCall.perform ⟨initialHeap sys mem, fun _ => none⟩
        (.kmalloc 100) = some run ∧
      ∃ ptr, run.live ptr = some 100 ∧
        ∀ other, other ≠ ptr → run.live other = none := by
  have invariant : HeapInvariant (initialHeap sys mem) (heapStart sys)
      ([] ++ ⟨heapStart sys, heapSize, true⟩ :: []) fun _ => none :=
    initialHeap_invariant granted mem
  have small : 100 ≤ kmallocMaxSize := by decide
  have fits : actualSizeFor 100 ≤ heapSize := by
    rw [actualSizeFor_eq small]
    decide
  have result := invariant.kmalloc_of_some (by omega) small
    (by simp [bestFitBlock, fits]) rfl fits
  have nonzero : heapStart sys + headerSize ≠ 0 := by
    simp only [headerSize]
    omega
  refine ⟨_, by rw [HeapCall.perform, result]; rfl,
    heapStart sys + headerSize, ?_, fun other different => ?_⟩
  · simp only [grant_of_ne_zero nonzero, Function.update_self]
  · simp only [grant_of_ne_zero nonzero]
    exact Function.update_of_ne different _ _

/-! ## What clients rely on -/

/-- The payload behind a pointer, by the size in its block's header. -/
def payload (heap : Heap) (ptr : Nat) : Set Nat :=
  {address | ptr ≤ address ∧ address <
    ptr + ((readHeader heap.mem (headerFromData ptr)).size - headerSize)}

/-- The headers found from `heap_mgr.head` by following `next`. -/
inductive OnChain (heap : Heap) : Nat → Prop
  | head (nonnull : heap.head ≠ 0) : OnChain heap heap.head
  | next {header : Nat} (found : OnChain heap header)
      (nonnull : (readHeader heap.mem header).next ≠ 0) :
      OnChain heap (readHeader heap.mem header).next

/-- What every state of a run guarantees to the clients of the heap. -/
structure ClientSafe (start : Nat) (run : HeapRun) : Prop where
  disjoint : ∀ first second, run.live first ≠ none → run.live second ≠ none →
    first ≠ second →
      Disjoint (payload run.heap first) (payload run.heap second)
  offHeaders : ∀ ptr header, run.live ptr ≠ none → OnChain run.heap header →
    Disjoint (payload run.heap ptr) {byte | InRange header headerSize byte}
  inHeap : ∀ ptr, run.live ptr ≠ none →
    payload run.heap ptr ⊆ {byte | InRange start heapSize byte}
  aligned : ∀ ptr, run.live ptr ≠ none → 8 ∣ ptr
  enough : ∀ ptr request, run.live ptr = some request →
    request ≤
      (readHeader run.heap.mem (headerFromData ptr)).size - headerSize
  cleared : ∀ size, ∃ ptr next,
    kmalloc run.heap size = some (ptr, next) ∧
      (ptr ≠ 0 → ∀ offset < size, next.mem (ptr + offset) = 0)
  untouched : ∀ call : HeapCall, call.Permitted run → ∃ next,
    call.perform run = some next ∧
      (call.IsHeapFunction → ∀ ptr, run.live ptr ≠ none →
        ∀ byte ∈ payload run.heap ptr,
          next.heap.mem byte = run.heap.mem byte)

namespace HeapInvariant

variable {heap : Heap} {start : Nat} {live : Live} {blocks : List HeapBlock}

theorem payload_of_listed
    (invariant : HeapInvariant heap start blocks live)
    {block : HeapBlock}
    (listed : block ∈ blocks) :
    payload heap (block.addr + headerSize) = block.payload := by
  have size := invariant.chain.header_size listed
  have least := (invariant.chain.sizes block listed).2
  have header := (invariant.ptr_arithmetic listed).2
  ext byte
  simp only [payload, header, size, HeapBlock.payload, Set.mem_ofPred_eq]
  simp only [headerSize]
  omega

/-- A live pointer leads to a block in use and its payload. -/
theorem payload_of_live
    (invariant : HeapInvariant heap start blocks live)
    {ptr : Nat}
    (held : live ptr ≠ none) :
    ∃ block ∈ usedBlocks blocks, ptr = block.addr + headerSize ∧
      (readHeader heap.mem (headerFromData ptr)).size = block.size ∧
      payload heap ptr = block.payload := by
  obtain ⟨block, member, rfl⟩ := invariant.owned ptr held
  have listed := (mem_usedBlocks.mp member).1
  refine ⟨block, member, rfl, ?_, invariant.payload_of_listed listed⟩
  rw [(invariant.ptr_arithmetic listed).2, invariant.chain.header_size listed]

/-- Only headers of blocks are found along the chain. -/
theorem onChain_iff
    (invariant : HeapInvariant heap start blocks live)
    {header : Nat}
    (found : OnChain heap header) :
    ∃ block ∈ blocks, block.addr = header := by
  induction found with
  | head nonnull =>
      rw [invariant.head_eq] at nonnull ⊢
      cases blocks with
      | nil =>
          exact absurd rfl nonnull
      | cons block rest =>
          exact ⟨block, by simp, rfl⟩
  | next _ nonnull inductionHypothesis =>
      obtain ⟨block, member, rfl⟩ := inductionHypothesis
      obtain ⟨before, after, rfl⟩ := List.append_of_mem member
      rw [invariant.chain.header_next] at nonnull ⊢
      cases after with
      | nil =>
          exact absurd rfl nonnull
      | cons next rest =>
          exact ⟨next, by simp, rfl⟩

theorem clientSafe
    {run : HeapRun}
    (invariant : HeapInvariant run.heap start blocks run.live) :
    ClientSafe start run where
  disjoint := by
    intro first second firstHeld secondHeld different
    obtain ⟨block, member, rfl, _, same⟩ := invariant.payload_of_live firstHeld
    obtain ⟨other, otherMember, rfl, _, otherSame⟩ :=
      invariant.payload_of_live secondHeld
    rw [same, otherSame]
    refine invariant.chain.payload_disjoint (mem_usedBlocks.mp member).1
      (mem_usedBlocks.mp otherMember).1 ?_
    rintro rfl
    exact different rfl
  offHeaders := by
    intro ptr header held found
    obtain ⟨block, member, _, _, same⟩ := invariant.payload_of_live held
    obtain ⟨other, otherMember, rfl⟩ := invariant.onChain_iff found
    rw [same]
    refine Set.disjoint_left.mpr fun byte inside inHeader => ?_
    exact invariant.chain.payload_not_header (mem_usedBlocks.mp member).1
      inside ⟨other, otherMember, inHeader⟩
  inHeap := by
    intro ptr held
    obtain ⟨block, member, _, _, same⟩ := invariant.payload_of_live held
    have bounds := invariant.chain.bounds (mem_usedBlocks.mp member).1
    rw [same]
    rintro byte ⟨lower, upper⟩
    exact ⟨by omega, by omega⟩
  aligned := by
    intro ptr held
    obtain ⟨block, member, rfl, _, _⟩ := invariant.payload_of_live held
    obtain ⟨before, after, rfl⟩ :=
      List.append_of_mem (mem_usedBlocks.mp member).1
    exact Nat.dvd_add invariant.chain.addr_dvd ⟨2, rfl⟩
  enough := by
    intro ptr request held
    obtain ⟨block, listed, _, rfl, fits⟩ := invariant.block_of_live held
    rw [(invariant.ptr_arithmetic listed).2,
      invariant.chain.header_size listed]
    omega
  cleared := by
    intro size
    obtain ⟨ptr, next, _, result, _, zeros, _⟩ := invariant.kmalloc_returns size
    refine ⟨ptr, next, result, fun nonzero offset inside => ?_⟩
    exact (zeros nonzero).2 _ ⟨by omega, by omega⟩
  untouched := by
    intro call permitted
    obtain ⟨next, _, result, _, payloads, _⟩ := call.returns invariant permitted
    refine ⟨next, result, fun isFunction ptr held byte inside => ?_⟩
    obtain ⟨block, member, _, _, same⟩ := invariant.payload_of_live held
    exact payloads isFunction block member byte (same ▸ inside)

end HeapInvariant

/--
In every state of a run the payloads of the live pointers are apart from each
other and from the headers, lie in the heap, are aligned and long enough;
every permitted call returns, hands out cleared bytes and leaves the payloads
of the live pointers alone.
-/
theorem reachable_clientSafe
    {sys : Pmm.BuddySystem}
    (granted : HeapGranted sys)
    {mem : Memory}
    {run : HeapRun}
    (reached : HeapReachable sys mem run) :
    ClientSafe (heapStart sys) run := by
  obtain ⟨blocks, invariant⟩ := reached.invariant granted
  exact invariant.clientSafe

theorem reachable_clientSafe_boot :
    ∃ run ptr, run.live ptr = some 100 ∧ ClientSafe (heapStart bootSys) run := by
  obtain ⟨run, performed, ptr, held, _⟩ :=
    first_kmalloc bootSys_granted fun _ => 0
  exact ⟨run, ptr, held,
    reachable_clientSafe bootSys_granted (.call (.kmalloc 100) .init trivial performed)⟩

/-! ## The chain -/

/-- The headers visited from `current` on, if the walk ends. -/
def walkChain (mem : Memory) : (fuel current : Nat) → Option (List Nat)
  | 0, _ => none
  | fuel + 1, current =>
      if current = 0 then
        some []
      else
        (walkChain mem fuel (readHeader mem current).next).map (current :: ·)

/-- The blocks visited from `heap_mgr.head` tile the heap. -/
structure TilesHeap (start : Nat) (heap : Heap) (chain : List Nat) : Prop where
  visited : walkChain heap.mem chainFuel heap.head = some chain
  head : heap.head = start ∧ (readHeader heap.mem heap.head).prev = 0
  increasing : chain.Pairwise (· < ·)
  tiles :
    Tiles
      (fun header => {byte | header ≤ byte ∧
        byte < header + (readHeader heap.mem header).size})
      chain {byte | start ≤ byte ∧ byte < start + heapSize}
  next : ∀ header ∈ chain,
    (readHeader heap.mem header).next =
      if header + (readHeader heap.mem header).size = start + heapSize then 0
      else header + (readHeader heap.mem header).size
  back : ∀ header ∈ chain, (readHeader heap.mem header).next ≠ 0 →
    (readHeader heap.mem (readHeader heap.mem header).next).prev = header
  sizes : ∀ header ∈ chain, 8 ∣ (readHeader heap.mem header).size ∧
    24 ≤ (readHeader heap.mem header).size
  total :
    (chain.map fun header => (readHeader heap.mem header).size).sum = 2 ^ 20
  usage :
    heap.currentUsage =
      ((chain.filter fun header =>
          (readHeader heap.mem header).isFree = 0).map fun header =>
        (readHeader heap.mem header).size).sum

namespace Chain

variable {mem : Memory} {start : Nat} {before after : List HeapBlock}

theorem walkChain_eq
    (chain : Chain mem start (before ++ after))
    {fuel : Nat}
    (enough : after.length < fuel) :
    walkChain mem fuel (blockPtr after.head?) =
      some (after.map HeapBlock.addr) := by
  induction after generalizing before fuel with
  | nil =>
      obtain ⟨fuel, rfl⟩ : ∃ less, fuel = less + 1 := ⟨fuel - 1, by omega⟩
      rfl
  | cons block rest inductionHypothesis =>
      obtain ⟨fuel, rfl⟩ : ∃ less, fuel = less + 1 := ⟨fuel - 1, by omega⟩
      have further : Chain mem start ((before ++ [block]) ++ rest) := by
        simpa using chain
      have tail := inductionHypothesis further (by simpa using enough)
      have nonzero := chain.addr_ne_zero (show block ∈ _ by simp)
      rw [show blockPtr (block :: rest).head? = block.addr from rfl, walkChain,
        if_neg nonzero, chain.header_next, tail]
      rfl

end Chain

theorem HeapInvariant.tilesHeap
    {heap : Heap} {start : Nat} {live : Live} {blocks : List HeapBlock}
    (invariant : HeapInvariant heap start blocks live) :
    TilesHeap start heap (blocks.map HeapBlock.addr) := by
  have chain := invariant.chain
  have size : ∀ block ∈ blocks,
      (readHeader heap.mem block.addr).size = block.size :=
    fun block member => chain.header_size member
  have sizes : (blocks.map HeapBlock.addr).map
        (fun header => (readHeader heap.mem header).size) =
      blocks.map HeapBlock.size := by
    rw [List.map_map]
    exact List.map_congr_left size
  constructor
  · have whole : Chain heap.mem start ([] ++ blocks) := chain
    rw [invariant.head_eq]
    exact whole.walkChain_eq chain.length_lt_chainFuel
  · refine ⟨invariant.head, ?_⟩
    rw [invariant.head_eq]
    cases blocks with
    | nil =>
        have same : start = start + heapSize := chain.contiguous
        have heapBytes : heapSize = 1048576 := rfl
        omega
    | cons block rest =>
        have first : Chain heap.mem start ([] ++ block :: rest) := chain
        exact congrArg KmallocHeader.prev first.header_at
  · exact chain.contiguous.starts_increasing fun block member =>
      Nat.lt_of_lt_of_le (by omega) (chain.sizes block member).2
  · exact chain.contiguous.tiles.map HeapBlock.addr fun block member => by
      rw [size block member]
      rfl
  · intro header member
    obtain ⟨block, listed, rfl⟩ := List.mem_map.mp member
    obtain ⟨prior, shape⟩ := chain.linked.header_of_mem listed
    rw [shape]
    rfl
  · intro header member linked
    obtain ⟨block, listed, rfl⟩ := List.mem_map.mp member
    obtain ⟨before, after, rfl⟩ := List.append_of_mem listed
    rw [chain.header_next] at linked ⊢
    cases after with
    | nil =>
        exact absurd rfl linked
    | cons next rest =>
        change (readHeader _ next.addr).prev = block.addr
        rw [chain.tail.header_at, lastAddr_append]
        rfl
  · intro header member
    obtain ⟨block, listed, rfl⟩ := List.mem_map.mp member
    rw [size block listed]
    exact chain.sizes block listed
  · have total := chain.contiguous.sum_eq
    have heapBytes : heapSize = 2 ^ 20 := by norm_num [heapSize, pageSize]
    rw [sizes]
    omega
  · rw [invariant.usage, usedBytes, usedBlocks, List.filter_map, List.map_map]
    have sameFlag : blocks.filter (fun block => !block.isFree) =
        blocks.filter ((fun header =>
          decide ((readHeader heap.mem header).isFree = 0)) ∘
            HeapBlock.addr) := by
      refine List.filter_congr fun block member => ?_
      have flag := chain.header_isFree member
      cases isFree : block.isFree <;> simp_all
    rw [← sameFlag]
    refine congrArg List.sum (List.map_congr_left fun block member => ?_)
    exact (size block (List.mem_of_mem_filter member)).symm

/--
In every state of a run the chain from `heap_mgr.head` is a doubly linked list
of blocks that tile the heap, and the usage counter is the size of the blocks
in use.
-/
theorem reachable_tilesHeap
    {sys : Pmm.BuddySystem}
    (granted : HeapGranted sys)
    {mem : Memory}
    {run : HeapRun}
    (reached : HeapReachable sys mem run) :
    ∃ chain, TilesHeap (heapStart sys) run.heap chain := by
  obtain ⟨blocks, invariant⟩ := reached.invariant granted
  exact ⟨_, invariant.tilesHeap⟩

theorem reachable_tilesHeap_boot :
    ∃ (run : HeapRun) (ptr : Nat), run.live ptr = some 100 ∧
      ∃ chain, TilesHeap (heapStart bootSys) run.heap chain := by
  obtain ⟨run, performed, ptr, held, _⟩ :=
    first_kmalloc bootSys_granted fun _ => 0
  exact ⟨run, ptr, held,
    reachable_tilesHeap bootSys_granted (.call (.kmalloc 100) .init trivial performed)⟩

end MatrixOS.Kmalloc
