import MatrixOS.BootMemory
import MatrixOS.KmallocRuns
import MatrixOS.ProcessTable
import MatrixOS.TempRuns

namespace MatrixOS

open ByteMemory Paging StateOption

/-!
# When no page is left

`pmm_alloc_pages` returns 0 when it has no block to hand out.  Each request of
the kernel is followed to the end of the function that makes it.  `kmalloc_init`
and `map_page` use the address without looking at it; the other requests give
up, and leave memory alone.
-/

/-! ## The requests -/

/-- `kmalloc_init` with the address of its block. -/
def initHeap (heapStart : Nat) : Kernel Unit := fun state =>
  let mem := Kmalloc.setSize state.mem heapStart (256 * pageSize)
  let mem := Kmalloc.setIsFree mem heapStart 1
  let mem := Kmalloc.setNext mem heapStart 0
  some ((), state.withMem (Kmalloc.setPrev mem heapStart 0))

/-- `map_page` with the page for a missing page table. -/
def mapWithPageTable
    (virtualAddr physicalAddr flags newPageTable : Nat) : Kernel Unit := do
  let tempMapping ← tempMapPage newPageTable
  memset virtualAccess tempMapping 0 pageSize
  store32 (pageDirEntry virtualAddr) (newPageTable ||| flags)
  tempUnmapPage tempMapping
  store32 (pageTableEntry virtualAddr) (physicalAddr ||| flags)

/-- `vmm_create_user_space` with the page for the directory. -/
def createWithPageDir (userPageDir : Nat) : Kernel Nat := do
  if userPageDir = 0 then
    return 0
  let tempMapping ← tempMapPage userPageDir
  memset virtualAccess tempMapping 0 pageSize
  copyKernelEntries tempMapping (1024 - 768)
  tempUnmapPage tempMapping
  return userPageDir

section Load

variable (pageDir binaryPhys size userCodePage userStackPage : Nat)
variable (tempPageDir codePageTable : Nat)

/-- `vmm_load_user_program` with its last page. -/
def loadWithStackPageTable (stackPageTable : Nat) : Kernel Nat := do
  if stackPageTable = 0 then
    tempUnmapPage tempPageDir
    pmmFreePages userCodePage 0
    pmmFreePages userStackPage 0
    pmmFreePages codePageTable 0
    return 0
  setMapping tempPageDir 0 codePageTable 0 userCodePage
  setMapping tempPageDir 0x3FE stackPageTable 0x3FF userStackPage
  tempUnmapPage tempPageDir
  copyUserProgram binaryPhys userCodePage size
  return 1

/-- `vmm_load_user_program` with the page for the code page table. -/
def loadWithCodePageTable (codePageTable : Nat) : Kernel Nat := do
  if codePageTable = 0 then
    tempUnmapPage tempPageDir
    pmmFreePages userCodePage 0
    pmmFreePages userStackPage 0
    return 0
  let stackPageTable ← pmmAllocPages 0
  loadWithStackPageTable binaryPhys size userCodePage userStackPage tempPageDir
    codePageTable stackPageTable

/-- `vmm_load_user_program` with the stack page. -/
def loadWithStackPage (userStackPage : Nat) : Kernel Nat := do
  if userStackPage = 0 then
    pmmFreePages userCodePage 0
    return 0
  let tempPageDir ← tempMapPage pageDir
  let codePageTable ← pmmAllocPages 0
  loadWithCodePageTable binaryPhys size userCodePage userStackPage tempPageDir
    codePageTable

/-- `vmm_load_user_program` with the code page. -/
def loadWithCodePage (userCodePage : Nat) : Kernel Nat := do
  if userCodePage = 0 then
    return 0
  let userStackPage ← pmmAllocPages 0
  loadWithStackPage pageDir binaryPhys size userCodePage userStackPage

end Load

/-- `process_create_from_module` with the page for the kernel stack. -/
def createWithKernelStack
    (slot : Nat) (moduleName : List UInt8) (userPageDir kernelStack : Nat) :
    Kernel Nat := do
  if kernelStack = 0 then
    vmmDestroyUserSpace userPageDir
    return 0
  let pid ← enterProcess slot moduleName userPageDir kernelStack
  verifyPageTables userPageDir
  return pid

/-- The calls of `pmm_alloc_pages`. -/
inductive PageRequest where
  | heap
  | pageTable (virtualAddr physicalAddr flags : Nat)
  | directory
  | codePage (pageDir binaryPhys size : Nat)
  | stackPage (pageDir binaryPhys size userCodePage : Nat)
  | codeTable (binaryPhys size userCodePage userStackPage tempPageDir : Nat)
  | stackTable
      (binaryPhys size userCodePage userStackPage tempPageDir codePageTable :
        Nat)
  | processStack (slot : Nat) (moduleName : List UInt8) (userPageDir : Nat)

namespace PageRequest

/-- The order that is asked for. -/
def order : PageRequest → Nat
  | heap => 8
  | _ => 0

/-- What the function does with the address; its result, if it has one. -/
def rest : PageRequest → Nat → Kernel (Option Nat)
  | heap, page => do
      initHeap page
      return none
  | pageTable virtualAddr physicalAddr flags, page => do
      mapWithPageTable virtualAddr physicalAddr flags page
      return none
  | directory, page => some <$> createWithPageDir page
  | codePage pageDir binaryPhys size, page =>
      some <$> loadWithCodePage pageDir binaryPhys size page
  | stackPage pageDir binaryPhys size userCodePage, page =>
      some <$> loadWithStackPage pageDir binaryPhys size userCodePage page
  | codeTable binaryPhys size userCodePage userStackPage tempPageDir, page =>
      some <$> loadWithCodePageTable binaryPhys size userCodePage userStackPage
        tempPageDir page
  | stackTable binaryPhys size userCodePage userStackPage tempPageDir
      codePageTable, page =>
      some <$> loadWithStackPageTable binaryPhys size userCodePage userStackPage
        tempPageDir codePageTable page
  | processStack slot moduleName userPageDir, page =>
      some <$> createWithKernelStack slot moduleName userPageDir page

/-- From the call of `pmm_alloc_pages` on. -/
def run (request : PageRequest) : Kernel (Option Nat) :=
  pmmAllocPages request.order >>= request.rest

/-- The requests whose callers look at the address. -/
def Checked : PageRequest → Prop
  | heap => False
  | pageTable _ _ _ => False
  | _ => True

end PageRequest

/-! ## The requests are those of the source -/

section Source

variable (state : KernelState)

theorem heap_request :
    PageRequest.run .heap state =
      some (none, (state.withBuddySys
        (Kmalloc.kmallocInit state.buddySys state.mem).2).withMem
          (Kmalloc.kmallocInit state.buddySys state.mem).1.mem) := by
  rcases granted : Pmm.pmmAllocPages state.buddySys 8 with ⟨page, sys⟩
  have asked : pmmAllocPages 8 state = some (page, state.withBuddySys sys) := by
    rw [pmmAllocPages, granted]
  rw [Kmalloc.kmallocInit, granted]
  exact (bind_of_eq asked).trans rfl

theorem pageTable_request
    {virtualAddr entry : Nat}
    (read : load32 (pageDirEntry virtualAddr) state = some (entry, state))
    (missing : entry &&& 0x1 = 0)
    (physicalAddr flags : Nat) :
    mapPage tempMapPage virtualAddr physicalAddr flags state =
      (pmmAllocPages 0 >>= mapWithPageTable virtualAddr physicalAddr flags)
        state := by
  rw [mapPage, bind_of_eq read, if_pos missing]
  rfl

theorem directory_request :
    vmmCreateUserSpace = pmmAllocPages 0 >>= createWithPageDir :=
  rfl

theorem codePage_request (pageDir binaryPhys size : Nat) :
    vmmLoadUserProgram pageDir binaryPhys size =
      pmmAllocPages 0 >>= loadWithCodePage pageDir binaryPhys size :=
  rfl

/-- The last request of a creation that has got as far as that. -/
theorem processStack_request
    {moduleName : List UInt8} {module : ModuleInfo} {slot userPageDir : Nat}
    {created loaded : KernelState}
    (found : state.modules.find? (fun module => module.name = moduleName) =
      some module)
    (unused : findUnusedSlot state.processes = some slot)
    (creates : vmmCreateUserSpace state = some (userPageDir, created))
    (isDir : userPageDir ≠ 0)
    (loads : vmmLoadUserProgram userPageDir module.start module.size created =
      some (1, loaded)) :
    processCreateFromModule moduleName state =
      (pmmAllocPages 0 >>=
        createWithKernelStack slot moduleName userPageDir) loaded := by
  have lookup : loaderFindModule moduleName state =
      some (some module, state) := by
    rw [loaderFindModule, found]
  have current : (get : Kernel KernelState) state = some (state, state) := rfl
  rw [processCreateFromModule, bind_of_eq lookup]
  refine (bind_of_eq current).trans ?_
  rw [unused]
  refine (bind_of_eq creates).trans ?_
  rw [if_neg isDir]
  refine (bind_of_eq loads).trans ?_
  rw [if_neg Nat.one_ne_zero]
  rfl

end Source

/-! ## Giving up -/

/-- Nothing is written to the first page, and nothing new leads anywhere. -/
structure NothingDone (before after : KernelState) : Prop where
  firstPage : Agree 0 pageSize after.mem before.mem
  nothingMapped : ∀ ptr addr, after.resolve ptr = some addr →
    before.resolve ptr = some addr

/--
A caller that is given 0 returns 0, if it returns anything, and leaves the first
page alone whatever is in it.
-/
def HandlesRefusal (request : PageRequest) (state : KernelState) : Prop :=
  ∀ mem, (∀ address, pageSize ≤ address → mem address = state.mem address) →
    Returns request.run (state.withMem mem) fun value next =>
      (value = none ∨ value = some 0) ∧
        NothingDone (state.withMem mem) next

/-- The state in which a request is made. -/
def PageRequest.Ready
    (state : KernelState) (kernelDir windowTable : Nat) : PageRequest → Prop
  | heap => True
  | pageTable virtualAddr _ _ =>
      virtualAddr < 2 ^ 32 ∧
      Windows state kernelDir windowTable (fun _ => none) ∧
        Windows.Clear state.cr3 kernelDir windowTable 0 ∧
        present (entryAt state.mem kernelDir (virtualAddr / 2 ^ 22)) = false
  | _ => ∃ frames, Windows state kernelDir windowTable frames ∧
      Windows.Clear state.cr3 kernelDir windowTable 0

section NothingDone

variable {before middle after : KernelState}

theorem NothingDone.of_same
    (mem : after.mem = before.mem)
    (cr3 : after.cr3 = before.cr3) :
    NothingDone before after := by
  refine ⟨fun address _ => congrFun mem address, fun ptr addr leads => ?_⟩
  rw [KernelState.resolve, mem, cr3] at leads
  exact leads

/-- A table entry is cleared: no walk is new. -/
theorem pointsTo_of_cleared
    {mem : Memory} {table index frame other cleared : Nat}
    (aligned : 2 ^ 12 ∣ table)
    (otherAligned : 2 ^ 12 ∣ other)
    (entry : PointsTo (store mem 4 (entryAddr other cleared) 0) table index
      frame) :
    PointsTo mem table index frame := by
  by_cases same : entryAddr table index = entryAddr other cleared
  · have isPresent := entry.1
    rw [entryAt, same, load_store] at isPresent
    cases isPresent
  · refine entry.congr (agree_store ?_).symm
    simp only [entryAddr] at same ⊢
    omega

/-- Closing a window. -/
theorem NothingDone.unmap
    {kernelDir windowTable : Nat} {frames : Nat → Option Nat}
    (windows : Windows before kernelDir windowTable frames)
    (clear : Windows.Clear before.cr3 kernelDir windowTable 0)
    (virtualAddr : Nat) :
    Returns (tempUnmapPage virtualAddr) before fun _ next =>
      NothingDone before next := by
  have tableAligned := windows.windowTable_aligned
  rcases tempUnmapPage_cases windows.paging windows.slots virtualAddr with
    ⟨same, _⟩ | ⟨slot, _, cleared, inTable, _, _, mgr, _, unmapped⟩
  · exact Returns.of_eq same (.of_same rfl rfl)
  refine Returns.of_eq unmapped ⟨?_, fun ptr addr leads => ?_⟩
  · exact SameOffWindows.agree tableAligned clear.aligned clear.windowTable
      (SameOffWindows.windowEntry _ inTable 0)
  · obtain ⟨table, frame, dirEntry, tableEntry, rfl⟩ := pointsTo_of_walk leads
    have sameDir := pointsTo_of_cleared windows.dirAligned tableAligned dirEntry
    exact walk_of_pointsTo sameDir
      (pointsTo_of_cleared sameDir.frame_lt.2 tableAligned tableEntry)

theorem NothingDone.trans
    (first : NothingDone before middle)
    (second : NothingDone middle after) :
    NothingDone before after :=
  ⟨second.firstPage.trans first.firstPage, fun ptr addr leads =>
    first.nothingMapped ptr addr (second.nothingMapped ptr addr leads)⟩

end NothingDone

/-- The caller returns 0 and has done nothing. -/
def GivesUp (program : Kernel Nat) (state : KernelState) : Prop :=
  Returns program state fun value next => value = 0 ∧ NothingDone state next

section GivesUp

variable {state : KernelState} {kernelDir windowTable : Nat}
variable {frames : Nat → Option Nat}

theorem createWithPageDir_zero : GivesUp (createWithPageDir 0) state := by
  rw [createWithPageDir, if_pos rfl]
  exact Returns.pure ⟨rfl, .of_same rfl rfl⟩

theorem loadWithCodePage_zero (pageDir binaryPhys size : Nat) :
    GivesUp (loadWithCodePage pageDir binaryPhys size 0) state := by
  rw [loadWithCodePage, if_pos rfl]
  exact Returns.pure ⟨rfl, .of_same rfl rfl⟩

theorem loadWithStackPage_zero
    (pageDir binaryPhys size userCodePage : Nat) :
    GivesUp (loadWithStackPage pageDir binaryPhys size userCodePage 0)
      state := by
  rw [loadWithStackPage, if_pos rfl]
  exact Returns.step rfl (Returns.pure ⟨rfl, .of_same rfl rfl⟩)

theorem loadWithCodePageTable_zero
    (windows : Windows state kernelDir windowTable frames)
    (clear : Windows.Clear state.cr3 kernelDir windowTable 0)
    (binaryPhys size userCodePage userStackPage tempPageDir : Nat) :
    GivesUp (loadWithCodePageTable binaryPhys size userCodePage userStackPage
      tempPageDir 0) state := by
  rw [loadWithCodePageTable, if_pos rfl]
  refine (NothingDone.unmap windows clear tempPageDir).bind fun _ _ done => ?_
  exact Returns.step rfl (Returns.step rfl
    (Returns.pure ⟨rfl, done.trans (.of_same rfl rfl)⟩))

theorem loadWithStackPageTable_zero
    (windows : Windows state kernelDir windowTable frames)
    (clear : Windows.Clear state.cr3 kernelDir windowTable 0)
    (binaryPhys size userCodePage userStackPage tempPageDir codePageTable :
      Nat) :
    GivesUp (loadWithStackPageTable binaryPhys size userCodePage userStackPage
      tempPageDir codePageTable 0) state := by
  rw [loadWithStackPageTable, if_pos rfl]
  refine (NothingDone.unmap windows clear tempPageDir).bind fun _ _ done => ?_
  exact Returns.step rfl (Returns.step rfl (Returns.step rfl
    (Returns.pure ⟨rfl, done.trans (.of_same rfl rfl)⟩)))

theorem createWithKernelStack_zero
    (slot : Nat) (moduleName : List UInt8) (userPageDir : Nat) :
    GivesUp (createWithKernelStack slot moduleName userPageDir 0) state := by
  rw [createWithKernelStack, if_pos rfl]
  exact Returns.step (vmmDestroyUserSpace_eq userPageDir)
    (Returns.pure ⟨rfl, .of_same rfl rfl⟩)

/-- The request as its caller sees it. -/
theorem GivesUp.run
    {request : PageRequest} {program : Kernel Nat}
    {sys : Pmm.BuddySystem}
    (refused : Pmm.pmmAllocPages state.buddySys request.order = (0, sys))
    (rest : request.rest 0 = some <$> program)
    (gaveUp : GivesUp program (state.withBuddySys sys)) :
    Returns request.run state fun value next =>
      (value = none ∨ value = some 0) ∧ NothingDone state next := by
  have asked : pmmAllocPages request.order state =
      some (0, state.withBuddySys sys) := by
    rw [pmmAllocPages, refused]
  have first : NothingDone state (state.withBuddySys sys) := .of_same rfl rfl
  refine Returns.step asked ?_
  rw [rest, map_eq_pure_bind]
  refine Returns.bind gaveUp ?_
  rintro _ next ⟨rfl, done⟩
  exact Returns.pure ⟨Or.inr rfl, first.trans done⟩

/-- The windows do not depend on what is in the first page. -/
theorem Windows.withFirstPage
    (windows : Windows state kernelDir windowTable frames)
    (clear : Windows.Clear state.cr3 kernelDir windowTable 0)
    {mem : Memory}
    (same : ∀ address, pageSize ≤ address → mem address = state.mem address) :
    Windows (state.withMem mem) kernelDir windowTable frames :=
  windows.withFrame clear fun address outside => same address (by
    simp only [InRange] at outside
    omega)

/-- The callers that look at the address. -/
theorem PageRequest.handlesRefusal
    (request : PageRequest)
    (checked : request.Checked)
    (ready : request.Ready state kernelDir windowTable)
    (refused : (Pmm.pmmAllocPages state.buddySys request.order).1 = 0) :
    HandlesRefusal request state := by
  intro mem same
  obtain ⟨sys, failed⟩ : ∃ sys,
      Pmm.pmmAllocPages state.buddySys request.order = (0, sys) :=
    ⟨_, Prod.ext refused rfl⟩
  have failedMem : Pmm.pmmAllocPages (state.withMem mem).buddySys
      request.order = (0, sys) := failed
  cases request with
  | heap =>
      exact checked.elim
  | pageTable virtualAddr physicalAddr flags =>
      exact checked.elim
  | directory =>
      exact GivesUp.run failedMem rfl createWithPageDir_zero
  | codePage pageDir binaryPhys size =>
      exact GivesUp.run failedMem rfl (loadWithCodePage_zero _ _ _)
  | stackPage pageDir binaryPhys size userCodePage =>
      exact GivesUp.run failedMem rfl (loadWithStackPage_zero _ _ _ _)
  | codeTable binaryPhys size userCodePage userStackPage tempPageDir =>
      obtain ⟨frames, windows, clear⟩ := ready
      have kept := (windows.withFirstPage clear same).withBuddySys sys
      exact GivesUp.run failedMem rfl
        (loadWithCodePageTable_zero kept clear _ _ _ _ _)
  | stackTable binaryPhys size userCodePage userStackPage tempPageDir
      codePageTable =>
      obtain ⟨frames, windows, clear⟩ := ready
      have kept := (windows.withFirstPage clear same).withBuddySys sys
      exact GivesUp.run failedMem rfl
        (loadWithStackPageTable_zero kept clear _ _ _ _ _ _)
  | processStack slot moduleName userPageDir =>
      exact GivesUp.run failedMem rfl (createWithKernelStack_zero _ _ _)

end GivesUp

/-! ## Using the first page -/

section FirstPage

variable {state : KernelState} {kernelDir windowTable : Nat}
variable {frames : Nat → Option Nat}

/-- The memory with the first page filled with a byte. -/
def withFirstPage (mem : Memory) (byte : UInt8) : Memory := fun address =>
  if address < pageSize then byte else mem address

theorem withFirstPage_behind (mem : Memory) (byte : UInt8) :
    ∀ address, pageSize ≤ address → withFirstPage mem byte address = mem address :=
  fun _ behind => if_neg (Nat.not_lt.mpr behind)

theorem withFirstPage_inside
    (mem : Memory) (byte : UInt8)
    {address : Nat}
    (inside : address < pageSize) :
    withFirstPage mem byte address = byte :=
  if_pos inside

/-- `kmalloc_init` writes a header to address 0. -/
theorem readHeader_initHeap_zero (state : KernelState) :
    Returns (initHeap 0) state fun _ next =>
      Kmalloc.readHeader next.mem 0 = ⟨Kmalloc.heapSize, 1, 0, 0⟩ := by
  refine Returns.of_eq rfl ?_
  simp only [KernelState.withMem_mem, Kmalloc.readHeader_setPrev,
    Kmalloc.readHeader_setNext, Kmalloc.readHeader_setIsFree,
    Kmalloc.readHeader_setSize]
  decide

theorem heap_not_handlesRefusal
    (refused : (Pmm.pmmAllocPages state.buddySys 8).1 = 0) :
    ¬ HandlesRefusal .heap state := by
  intro handles
  obtain ⟨value, next, run, _, done⟩ :=
    handles _ (withFirstPage_behind state.mem 0)
  obtain ⟨sys, failed⟩ : ∃ sys,
      Pmm.pmmAllocPages state.buddySys 8 = (0, sys) :=
    ⟨_, Prod.ext refused rfl⟩
  let cleared := state.withMem (withFirstPage state.mem 0)
  have asked : pmmAllocPages 8 cleared = some (0, cleared.withBuddySys sys) := by
    rw [pmmAllocPages, show Pmm.pmmAllocPages cleared.buddySys 8 = (0, sys)
      from failed]
  have written := (Returns.step asked
    (Returns.bind (readHeader_initHeap_zero _) fun _ last header =>
      (Returns.pure header : Returns (pure none : Kernel (Option Nat)) last
        fun _ last => Kmalloc.readHeader last.mem 0 =
          ⟨Kmalloc.heapSize, 1, 0, 0⟩))).ensures value next run
  have same : load next.mem 4 0 = load cleared.mem 4 0 :=
    load_congr (done.firstPage.mono (Nat.le_refl 0) (by decide))
  have size : load next.mem 4 0 = Kmalloc.heapSize :=
    congrArg Kmalloc.KmallocHeader.size written
  have zero : load cleared.mem 4 0 = 0 := by
    simp [cleared, load, withFirstPage, pageSize]
  rw [size, zero] at same
  exact absurd same (by decide)

/-- An entry of the kernel directory that the windows do not need. -/
theorem Windows.withKernelEntry
    (windows : Windows state kernelDir windowTable frames)
    {index : Nat}
    (bound : index < 1024)
    (notWindows : index ≠ 768)
    (notSelf : index ≠ 1023)
    (value : Nat) :
    Windows (state.withMem
        (store state.mem 4 (entryAddr kernelDir index) value))
      kernelDir windowTable frames := by
  have kernelAligned := windows.kernelDir_aligned
  have kept : ∀ table other, 2 ^ 12 ∣ table → other < 1024 →
      (table = kernelDir → other ≠ index) →
      Agree (entryAddr table other) 4
        (store state.mem 4 (entryAddr kernelDir index) value) state.mem := by
    intro table other aligned otherBound different
    refine agree_store ?_
    by_cases same : table = kernelDir
    · have apart := different same
      simp only [entryAddr, same]
      omega
    · have apart := frames_apart aligned kernelAligned same
      simp only [entryAddr, pageSize] at apart ⊢
      omega
  have notTable := windows.tableApart.2
  refine ⟨⟨?_, ?_, ?_, ?_⟩, windows.slots, ?_, windows.dirAligned,
    windows.tableApart⟩
  · exact windows.paging.dirSelf.congr
      (kept _ _ windows.dirAligned (by omega) fun _ => notSelf.symm)
  · exact windows.paging.kernelSelf.congr
      (kept _ _ kernelAligned (by omega) fun _ => notSelf.symm)
  · exact windows.paging.dirWindows.congr
      (kept _ _ windows.dirAligned (by omega) fun _ => notWindows.symm)
  · exact windows.paging.kernelWindows.congr
      (kept _ _ kernelAligned (by omega) fun _ => notWindows.symm)
  · intro slot inTable frame used
    exact (windows.mapped slot inTable frame used).congr
      (kept _ _ windows.windowTable_aligned (by omega)
        fun isKernel => absurd isKernel notTable)

/-- The bytes of an entry of the first page. -/
theorem pageTableEntry_mod (virtualAddr : Nat) :
    pageTableEntry virtualAddr % 2 ^ 12 =
      virtualAddr / 2 ^ 12 % 2 ^ 10 * 4 := by
  have masked : pageTabIndex virtualAddr = virtualAddr / 2 ^ 12 % 2 ^ 10 := by
    rw [pageTabIndex, Nat.shiftRight_eq_div_pow,
      show (0x3FF : Nat) = 2 ^ 10 - 1 from rfl, Nat.and_two_pow_sub_one_eq_mod]
  have low : (0xFFC00000 ||| pageDirIndex virtualAddr <<< 12) % 2 ^ 12 = 0 := by
    rw [Nat.or_mod_two_pow, Nat.shiftLeft_eq, Nat.mul_mod_left]
    rfl
  rw [pageTableEntry, masked, Nat.add_mod, low]
  omega

/--
`map_page` clears the first page, makes it a page table and enters the page
there.
-/
theorem mapWithPageTable_zero
    (windows : Windows state kernelDir windowTable fun _ => none)
    (clear : Windows.Clear state.cr3 kernelDir windowTable 0)
    {virtualAddr : Nat}
    (inRange : virtualAddr < 2 ^ 32)
    (missing :
      present (entryAt state.mem kernelDir (virtualAddr / 2 ^ 22)) = false)
    (physicalAddr flags : Nat) :
    Ensures (mapWithPageTable virtualAddr physicalAddr flags 0) state
      fun _ next => ∀ address < pageSize,
        address / 4 ≠ virtualAddr / 2 ^ 12 % 2 ^ 10 → next.mem address = 0 := by
  have first : 0 < tempMappingCount := by decide
  have tableAligned := windows.windowTable_aligned
  have kernelAligned := windows.kernelDir_aligned
  obtain ⟨index, isIndex⟩ : ∃ index, virtualAddr / 2 ^ 22 = index := ⟨_, rfl⟩
  have bound : index < 1024 := by omega
  rw [isIndex] at missing
  have notWindows : index ≠ 768 := by
    rintro rfl
    rw [windows.paging.kernelWindows.1] at missing
    cases missing
  have notSelf : index ≠ 1023 := by
    rintro rfl
    rw [windows.paging.kernelSelf.1] at missing
    cases missing
  obtain ⟨mgr, mapped, window⟩ := windows.map first rfl
    (fun _ below => absurd below (Nat.not_lt_zero _)) clear.aligned (by omega)
  have used : Function.update (fun _ => none) 0 (some 0) 0 = some 0 :=
    Function.update_self ..
  have filled := window.withFill clear (Nat.le_refl pageSize) 0
  refine Ensures.step mapped ?_
  refine Ensures.step (window.memset clear first used 0 (Nat.le_refl _)) ?_
  have entryAddrIs : pageDirEntry virtualAddr = 0xFFFFF000 + index * 4 := by
    rw [pageDirEntry, pageDirIndex, Nat.shiftRight_eq_div_pow, isIndex]
  rw [entryAddrIs]
  refine Ensures.step
    (store32_of_resolve (resolve_kernelDir filled.paging bound)) ?_
  have entered := filled.withKernelEntry bound notWindows notSelf (0 ||| flags)
  obtain ⟨lastMgr, unmapped, _⟩ := entered.unmap first (by simp)
  refine Ensures.step unmapped ?_
  intro value next run address inside other
  rw [store32, Option.map_eq_some_iff] at run
  obtain ⟨target, leads, same⟩ := run
  obtain rfl := congrArg Prod.snd same
  obtain ⟨table, frame, _, entry, rfl⟩ := pointsTo_of_walk leads
  have frameAligned := entry.frame_lt.2
  have kernelApart := frames_apart clear.aligned kernelAligned clear.kernelDir
  have tableApart := frames_apart clear.aligned tableAligned clear.windowTable
  rw [pageTableEntry_mod]
  have intoPage : ∀ index, entryAddr windowTable index ≥ windowTable :=
    fun _ => Nat.le_add_right _ _
  simp only [pageSize] at inside kernelApart tableApart
  refine (store_of_not_inRange ?_).trans ((store_of_not_inRange ?_).trans
    ((store_of_not_inRange ?_).trans (fill_of_inRange ?_)))
  · simp only [InRange]
    omega
  · simp only [InRange, entryAddr]
    omega
  · simp only [InRange, entryAddr]
    omega
  · simp only [InRange, pageSize]
    omega

theorem pageTable_not_handlesRefusal
    {virtualAddr physicalAddr flags : Nat}
    (ready : (PageRequest.pageTable virtualAddr physicalAddr flags).Ready state
      kernelDir windowTable)
    (refused : (Pmm.pmmAllocPages state.buddySys 0).1 = 0) :
    ¬ HandlesRefusal (.pageTable virtualAddr physicalAddr flags) state := by
  intro handles
  obtain ⟨inRange, windows, clear, missing⟩ := ready
  have behind := withFirstPage_behind state.mem 0xFF
  obtain ⟨value, next, run, _, done⟩ := handles _ behind
  obtain ⟨sys, failed⟩ : ∃ sys,
      Pmm.pmmAllocPages state.buddySys 0 = (0, sys) :=
    ⟨_, Prod.ext refused rfl⟩
  let full := state.withMem (withFirstPage state.mem 0xFF)
  have asked : pmmAllocPages 0 full = some (0, full.withBuddySys sys) :=
    pmmAllocPages_eq failed
  have kept : Windows (full.withBuddySys sys) kernelDir windowTable
      fun _ => none :=
    (windows.withFirstPage clear behind).withBuddySys sys
  have kernelApart := frames_apart clear.aligned windows.kernelDir_aligned
    clear.kernelDir
  have stillMissing : present (entryAt full.mem kernelDir
      (virtualAddr / 2 ^ 22)) = false := by
    have same : entryAt full.mem kernelDir (virtualAddr / 2 ^ 22) =
        entryAt state.mem kernelDir (virtualAddr / 2 ^ 22) :=
      load_congr fun address inside => behind address (by
        simp only [InRange, entryAddr] at inside
        omega)
    rw [same]
    exact missing
  have cleared : Ensures
      (PageRequest.run (.pageTable virtualAddr physicalAddr flags)) full
      fun _ next => ∀ address < pageSize,
        address / 4 ≠ virtualAddr / 2 ^ 12 % 2 ^ 10 → next.mem address = 0 :=
    Ensures.step asked ((mapWithPageTable_zero kept clear inRange stillMissing
      physicalAddr flags).bind fun _ _ zeros => Ensures.pure zeros)
  -- an entry of the page table that the page is not entered into
  obtain ⟨other, isOther⟩ :
      ∃ other, (virtualAddr / 2 ^ 12 % 2 ^ 10 + 1) % 2 ^ 10 = other := ⟨_, rfl⟩
  have inside : other * 4 < pageSize := by
    simp only [pageSize]
    omega
  have zero := cleared value next run (other * 4) inside (by omega)
  have same := done.firstPage (other * 4) ⟨Nat.zero_le _, by omega⟩
  rw [zero, KernelState.withMem_mem, withFirstPage_inside _ _ inside] at same
  exact absurd same (by decide)

end FirstPage

/-! ## A heap without memory -/

namespace Kmalloc

/-- The heap has no block. -/
structure HeapEmpty (heap : Heap) : Prop where
  head : heap.head = 0
  unlocked : heap.lock = false

namespace HeapEmpty

variable {heap next : Heap} {ptr size : Nat}

/-- A heap without a block that gives its lock back. -/
theorem release (head : heap.head = 0) : HeapEmpty heap.release :=
  ⟨head, rfl⟩

theorem kmalloc (empty : HeapEmpty heap) (size : Nat) :
    Kmalloc.kmalloc heap size = some (0, heap) := by
  have found : ∀ actualSize,
      findBestFit heap.mem actualSize chainFuel 0 0 = some 0 := by
    intro actualSize
    rw [show chainFuel = 4294967295 + 1 by simp only [chainFuel], findBestFit,
      if_pos rfl]
  cases heap with
  | mk mem lock head totalAllocated totalFreed currentUsage =>
      obtain ⟨rfl, rfl⟩ := empty
      simp [Kmalloc.kmalloc, Heap.acquire, found, Heap.release]

theorem kcalloc (empty : HeapEmpty heap) (num size : Nat) :
    Kmalloc.kcalloc heap num size = some (0, heap) := by
  simp [Kmalloc.kcalloc, empty.kmalloc]

theorem kfree
    (empty : HeapEmpty heap)
    (freed : Kmalloc.kfree heap ptr = some next) :
    HeapEmpty next := by
  have acquired : heap.acquire = some { heap with lock := true } := by
    rw [Heap.acquire, empty.unlocked]
    rfl
  rw [Kmalloc.kfree] at freed
  split at freed
  · obtain rfl := Option.some.inj freed
    exact empty
  · rw [acquired, Option.bind_eq_bind, Option.bind_some] at freed
    dsimp only at freed
    split at freed
    · obtain rfl := Option.some.inj freed
      exact release empty.head
    · have same := Option.some.inj freed
      rw [← same]
      exact release empty.head

theorem krealloc
    {newPtr : Nat}
    (empty : HeapEmpty heap)
    (resized : Kmalloc.krealloc heap ptr size = some (newPtr, next)) :
    HeapEmpty next := by
  rw [Kmalloc.krealloc] at resized
  split at resized
  · rw [empty.kmalloc] at resized
    obtain ⟨_, rfl⟩ := Prod.mk.inj (Option.some.inj resized)
    exact empty
  split at resized
  · rw [Option.bind_eq_bind, Option.bind_eq_some_iff] at resized
    obtain ⟨freed, run, same⟩ := resized
    obtain ⟨_, rfl⟩ := Prod.mk.inj (Option.some.inj same)
    exact empty.kfree run
  dsimp only at resized
  split at resized
  · obtain ⟨_, rfl⟩ := Prod.mk.inj (Option.some.inj resized)
    exact empty
  · rw [empty.kmalloc, Option.bind_eq_bind, Option.bind_some] at resized
    dsimp only at resized
    rw [if_pos rfl] at resized
    obtain ⟨_, rfl⟩ := Prod.mk.inj (Option.some.inj resized)
    exact empty
/-- No call gives the heap a block. -/
theorem call
    {run after : HeapRun} {request : HeapCall}
    (empty : HeapEmpty run.heap)
    (performed : request.perform run = some after) :
    HeapEmpty after.heap := by
  cases request with
  | kmalloc size =>
      rw [HeapCall.perform, empty.kmalloc] at performed
      obtain rfl := Option.some.inj performed
      exact empty
  | kcalloc num size =>
      rw [HeapCall.perform, empty.kcalloc] at performed
      obtain rfl := Option.some.inj performed
      exact empty
  | krealloc ptr size =>
      rw [HeapCall.perform, Option.bind_eq_bind, Option.bind_eq_some_iff]
        at performed
      obtain ⟨⟨newPtr, heap⟩, resized, same⟩ := performed
      obtain rfl := Option.some.inj same
      exact empty.krealloc resized
  | kfree ptr =>
      rw [HeapCall.perform, Option.bind_eq_bind, Option.bind_eq_some_iff]
        at performed
      obtain ⟨heap, freed, same⟩ := performed
      obtain rfl := Option.some.inj same
      exact empty.kfree freed
  | write ptr offset byte =>
      obtain rfl := Option.some.inj performed
      exact ⟨empty.head, empty.unlocked⟩

end HeapEmpty

/-- After a `kmalloc_init` that got no pages the heap never has a block. -/
theorem HeapReachable.heapEmpty
    {sys : Pmm.BuddySystem} {mem : Memory} {run : HeapRun}
    (refused : (Pmm.pmmAllocPages sys 8).1 = 0)
    (reached : HeapReachable sys mem run) :
    HeapEmpty run.heap := by
  induction reached with
  | init =>
      exact ⟨refused, rfl⟩
  | call request _ _ performed inductionHypothesis =>
      exact inductionHypothesis.call performed

end Kmalloc

/-! ## Which callers handle a refusal -/

/--
The callers that look at the address give up, and those that do not use the
first page.  After a `kmalloc_init` that got no pages, `kmalloc` always returns
`NULL`.
-/
theorem handlesRefusal_iff
    {state : KernelState} {kernelDir windowTable : Nat}
    (request : PageRequest)
    (ready : request.Ready state kernelDir windowTable)
    (refused : (Pmm.pmmAllocPages state.buddySys request.order).1 = 0) :
    (HandlesRefusal request state ↔ request.Checked) ∧
      (request = .heap → ∀ run,
        Kmalloc.HeapReachable state.buddySys state.mem run →
        ∀ size, Kmalloc.kmalloc run.heap size = some (0, run.heap)) := by
  refine ⟨⟨fun handles => ?_, fun checked =>
    request.handlesRefusal checked ready refused⟩, ?_⟩
  · cases request with
    | heap =>
        exact heap_not_handlesRefusal refused handles
    | pageTable virtualAddr physicalAddr flags =>
        exact pageTable_not_handlesRefusal ready refused handles
    | _ =>
        trivial
  · rintro rfl run reached size
    exact (reached.heapEmpty refused).kmalloc size

/-- The kernel after boot, with a region that is smaller than a block. -/
def exhaustedKernel : KernelState :=
  (bootKernel (fun _ => 0) 0x110000 []).withBuddySys
    (Pmm.pmmInit Pmm.bss 0x1000000 0x1400000)

theorem exhaustedKernel_refused (request : PageRequest) :
    (Pmm.pmmAllocPages exhaustedKernel.buddySys request.order).1 = 0 := by
  cases request <;> rfl

/-- A creation without memory gives up. -/
theorem handlesRefusal_exhaustedKernel :
    HandlesRefusal .directory exhaustedKernel ↔
      PageRequest.Checked .directory :=
  (handlesRefusal_iff .directory
    ⟨_, (bootReady []).windows.withBuddySys _, by
      refine ⟨Nat.dvd_zero _, ?_, ?_, ?_⟩ <;> decide⟩
    (exhaustedKernel_refused _)).1

/-- `kmalloc_init` writes to the first page when it gets none. -/
theorem not_handlesRefusal_heap :
    (Pmm.pmmAllocPages exhaustedKernel.buddySys 8).1 = 0 ∧
      ¬ HandlesRefusal .heap exhaustedKernel :=
  ⟨exhaustedKernel_refused .heap,
    heap_not_handlesRefusal (exhaustedKernel_refused .heap)⟩

end MatrixOS
