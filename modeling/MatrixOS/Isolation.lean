import MatrixOS.OverwrittenDirectory
import MatrixOS.SpaceRuns

namespace MatrixOS

open ByteMemory Paging StateOption

/-!
# Isolation of processes

The frames of a process are read from its table entry and its page tables, as
the processor and `process_exit_current` find them.
-/

/-- The page frames of a process. -/
def spaceFrames (mem : Memory) (pcb : Pcb) : ProcessFrames where
  dir := pcb.pageDirectory
  code :=
    frameOf (entryAt mem (frameOf (entryAt mem pcb.pageDirectory 0)) 0)
  stack :=
    frameOf (entryAt mem (frameOf (entryAt mem pcb.pageDirectory 0x3FE)) 0x3FF)
  codeTable := frameOf (entryAt mem pcb.pageDirectory 0)
  stackTable := frameOf (entryAt mem pcb.pageDirectory 0x3FE)
  kernelStack := sub32 pcb.kernelStack pageSize

/-- Entries that user code may use lead from a directory to a frame. -/
def UserReaches (mem : Memory) (dir frame : Nat) : Prop :=
  ∃ dirIndex < 1024, ∃ table, ∃ tabIndex < 1024,
    PointsTo mem dir dirIndex table ∧
    userAccessible (entryAt mem dir dirIndex) = true ∧
    PointsTo mem table tabIndex frame ∧
    userAccessible (entryAt mem table tabIndex) = true

/-- What the processes that have not ended have is theirs alone. -/
structure Isolated (state : KernelState) (heap : Pmm.PageBlock) : Prop where
  disjoint : ∀ first < maxProcesses, ∀ second < maxProcesses, first ≠ second →
    (state.processes first).Alive → (state.processes second).Alive →
    ∀ frame ∈ (spaceFrames state.mem (state.processes first)).owned,
      frame ∉ (spaceFrames state.mem (state.processes second)).owned
  held : ∀ slot < maxProcesses, (state.processes slot).Alive →
    ∀ frame ∈ (spaceFrames state.mem (state.processes slot)).owned,
      Held state.buddySys frame
  outsideHeap : ∀ slot < maxProcesses, (state.processes slot).Alive →
    ∀ frame ∈ (spaceFrames state.mem (state.processes slot)).owned,
      frame / pageSize ∉ heap.pages
  reaches : ∀ slot < maxProcesses, (state.processes slot).Alive →
    ∀ frame, UserReaches state.mem (state.processes slot).pageDirectory frame →
      frame = (spaceFrames state.mem (state.processes slot)).code ∨
      frame = (spaceFrames state.mem (state.processes slot)).stack

/-- The loader gives user code no access to the kernel's half. -/
def Supervisor (mem : Memory) (bootDir : Nat) : Prop :=
  ∀ index, 768 ≤ index → index < 1024 →
    userAccessible (entryAt mem bootDir index) = false

section Spaces

variable {mem : Memory} {bootDir : Nat} {pcb : Pcb} {frames : ProcessFrames}

/-- The frames a process was given are the ones that are found. -/
theorem ProcessSpace.spaceFrames_eq
    (space : ProcessSpace mem bootDir pcb frames) :
    spaceFrames mem pcb = frames := by
  have aligned := space.valid.aligned
  have stackTaken : frames.stack ∈ frames.taken := by
    simp [ProgramFrames.taken]
  have codeTable : frameOf (entryAt mem frames.dir 0) = frames.codeTable := by
    rw [space.entries.dir 0 (by omega), if_neg (by omega), if_pos rfl]
    exact (userEntry (aligned _ ProgramFrames.codeTable_taken).1).2.2.2
  have stackTable :
      frameOf (entryAt mem frames.dir 0x3FE) = frames.stackTable := by
    rw [space.entries.dir 0x3FE (by omega), if_pos rfl]
    exact (userEntry (aligned _ ProgramFrames.stackTable_taken).1).2.2.2
  have code : frameOf (entryAt mem frames.codeTable 0) = frames.code := by
    rw [space.entries.codeTable 0 (by omega), if_pos rfl]
    exact (userEntry (aligned _ ProgramFrames.code_taken).1).2.2.2
  have stack : frameOf (entryAt mem frames.stackTable 0x3FF) = frames.stack := by
    rw [space.entries.stackTable 0x3FF (by omega), if_pos rfl]
    exact (userEntry (aligned _ stackTaken).1).2.2.2
  have kernelStack : sub32 pcb.kernelStack pageSize = frames.kernelStack := by
    rw [space.kernelStack]
    exact sub32_wrap32_add (by have := space.inRange; omega)
  rw [spaceFrames, space.pageDirectory, codeTable, stackTable, code, stack,
    kernelStack]

/-- User code of a process reaches its code page and its stack page. -/
theorem ProcessSpace.reaches
    {frame : Nat}
    (space : ProcessSpace mem bootDir pcb frames)
    (supervisor : Supervisor mem bootDir)
    (reach : UserReaches mem pcb.pageDirectory frame) :
    frame = frames.code ∨ frame = frames.stack := by
  have aligned := space.valid.aligned
  have stackTaken : frames.stack ∈ frames.taken := by
    simp [ProgramFrames.taken]
  obtain ⟨dirIndex, dirBound, table, tabIndex, tabBound, ⟨dirPresent, rfl⟩,
    dirUser, ⟨tabPresent, rfl⟩, -⟩ := reach
  rw [space.pageDirectory] at *
  have dirEntry := space.entries.dir dirIndex dirBound
  by_cases onStack : dirIndex = 0x3FE
  · rw [if_pos onStack] at dirEntry
    rw [dirEntry,
      (userEntry (aligned _ ProgramFrames.stackTable_taken).1).2.2.2]
      at tabPresent ⊢
    rw [space.entries.stackTable tabIndex tabBound] at tabPresent ⊢
    by_cases last : tabIndex = 0x3FF
    · rw [if_pos last]
      exact Or.inr (userEntry (aligned _ stackTaken).1).2.2.2
    · rw [if_neg last] at tabPresent
      cases tabPresent
  rw [if_neg onStack] at dirEntry
  by_cases onCode : dirIndex = 0
  · rw [if_pos onCode] at dirEntry
    rw [dirEntry,
      (userEntry (aligned _ ProgramFrames.codeTable_taken).1).2.2.2]
      at tabPresent ⊢
    rw [space.entries.codeTable tabIndex tabBound] at tabPresent ⊢
    by_cases first : tabIndex = 0
    · rw [if_pos first]
      exact Or.inl (userEntry (aligned _ ProgramFrames.code_taken).1).2.2.2
    · rw [if_neg first] at tabPresent
      cases tabPresent
  -- The other entries are clear or the kernel's.
  rw [if_neg onCode, kernelHalf] at dirEntry
  by_cases upper : 768 ≤ dirIndex
  · rw [dirEntry, if_pos upper, supervisor dirIndex upper dirBound] at dirUser
    cases dirUser
  · rw [dirEntry, if_neg upper] at dirPresent
    cases dirPresent

end Spaces

section Runs

variable {initial : KernelState} {bootDir windowTable : Nat}
variable {reserved : List Pmm.PageBlock} {pool : Set Nat} {run : SpaceRun}
variable {frames : Nat → ProcessFrames} {lost : List Nat}

/-- No frame belongs to two processes. -/
theorem SpaceInvariant.owned_disjoint
    (invariant : SpaceInvariant initial bootDir windowTable reserved pool run
      frames lost)
    {first second frame : Nat}
    (firstInTable : first < maxProcesses)
    (secondInTable : second < maxProcesses)
    (different : first ≠ second)
    (firstAlive : (run.state.processes first).Alive)
    (secondAlive : (run.state.processes second).Alive)
    (member : frame ∈ (frames first).owned) :
    frame ∉ (frames second).owned := by
  have distinct : (ownedFrames run.state.processes frames).Nodup := by
    have tiles := invariant.allocator.tiles.disjoint
    rw [List.map_append, List.append_assoc, List.append_assoc] at tiles
    have among := List.pairwise_map.mp (List.pairwise_append.mp tiles).1
    refine List.nodup_iff_pairwise_ne.mpr (among.imp fun apart same => ?_)
    subst same
    exact Set.disjoint_left.mp apart (Takes.mem_frameBlock.mpr rfl)
      (Takes.mem_frameBlock.mpr rfl)
  have pairwise := (List.nodup_flatMap.mp distinct).2
  have : Std.Symm (Function.onFun List.Disjoint fun slot =>
      if (run.state.processes slot).Alive then (frames slot).owned else []) :=
    ⟨fun _ _ => List.Disjoint.symm⟩
  have apart := pairwise.forall (List.mem_range.mpr firstInTable)
    (List.mem_range.mpr secondInTable) different
  simp only [Function.onFun, firstAlive, secondAlive, ↓reduceIte] at apart
  exact fun other => apart member other

/-- No frame of a process is in a block of others. -/
theorem SpaceInvariant.owned_reserved
    (invariant : SpaceInvariant initial bootDir windowTable reserved pool run
      frames lost)
    {block : Pmm.PageBlock} {frame : Nat}
    (taken : block ∈ reserved)
    (owned : frame ∈ ownedFrames run.state.processes frames) :
    frame / pageSize ∉ block.pages := by
  intro inBlock
  have tiles := invariant.allocator.tiles.disjoint
  rw [List.append_assoc] at tiles
  have across := (List.pairwise_append.mp tiles).2.2
  refine Set.disjoint_left.mp (across (frameBlock frame) ?_ block ?_)
    (Takes.mem_frameBlock.mpr rfl) inBlock
  · exact List.mem_map_of_mem (List.mem_append_left _ owned)
  · simp [taken]

end Runs

/-! ## At boot -/

theorem supervisor_loaderTables
    (mem : Memory)
    {pageDirectory : Nat}
    (aligned : 2 ^ 12 ∣ pageDirectory)
    (inRange : pageDirectory + 34 * 4096 ≤ 2 ^ 32) :
    Supervisor (loaderTables mem pageDirectory) pageDirectory := by
  have kernelOnly : ∀ page, 2 ^ 12 ∣ page →
      userAccessible (page ||| 0x03) = false :=
    fun page pageAligned => (kernelEntry pageAligned).2.2.1
  have first : firstPageTable pageDirectory = pageDirectory + 4096 := rfl
  have temp : tempMappingTable pageDirectory =
      pageDirectory + 4096 + 4096 * 32 := rfl
  intro index upper bound
  rw [entryAt_loaderTables_dir mem aligned inRange bound, bootDirectoryEntry]
  split_ifs
  · exact kernelOnly _ aligned
  · exact kernelOnly _ (by omega)
  · exact kernelOnly _ (by omega)
  · exact kernelOnly _ (by omega)
  · rfl

/-- The block of `kmalloc_init`. -/
def heapBlock : Pmm.PageBlock :=
  ⟨0x2000000, 8⟩

/-- The allocator of the boot region after `kmalloc_init`. -/
def heapSys : Pmm.BuddySystem :=
  (Pmm.pmmAllocPages Kmalloc.bootSys 8).2

/--
An image of one page.  As page tables it holds the entry of the windows, two
entries for user code and one for the directory to reach itself.
-/
def craftedMemory : Memory :=
  store (store (store (store (fun _ => 0)
    4 (0x300000 + 0 * 4) 0x2100007)
    4 (0x300000 + 768 * 4) 0x111003)
    4 (0x300000 + 1000 * 4) 0x2100007)
    4 (0x300000 + 1023 * 4) 0x2100003

def craftedModule : ModuleInfo :=
  ⟨[0x62], 0x300000, 4096⟩

/-- The kernel after boot, with the heap allocated and two modules. -/
def heapKernel : KernelState :=
  (bootKernel craftedMemory 0x110000 [demoModule, craftedModule]).withBuddySys
    heapSys

theorem heapSys_invariant :
    Pmm.Invariant heapSys [heapBlock] Kmalloc.bootSys.freePages := by
  have invariant : Pmm.Invariant Kmalloc.bootSys [] _ :=
    Pmm.pmmInit_invariant Pmm.bss (by norm_num) (by norm_num) (by norm_num)
  have addr : (Pmm.pmmAllocPages Kmalloc.bootSys 8).1 = 0x2000000 := by
    decide +kernel
  rcases invariant.pmmAllocPages_cases 8 with ⟨failed, _⟩ | ⟨_, _, _, taken⟩
  · rw [failed] at addr
    cases addr
  · rw [addr] at taken
    exact taken

theorem spaceInitial_heapKernel :
    SpaceInitial heapKernel 0x110000 0x111000 [heapBlock]
      Kmalloc.bootSys.freePages := by
  refine (spaceInitial_bootKernel craftedMemory [demoModule, craftedModule]
    (by norm_num) (by norm_num) ?_ ?_).withBuddySys heapSys_invariant
  · decide
  · decide

theorem supervisor_heapKernel : Supervisor heapKernel.mem 0x110000 :=
  supervisor_loaderTables craftedMemory (by norm_num) (by norm_num)

/-! ## A process on another one's page -/

theorem heapKernel_ready : MemoryReady heapKernel 0x110000 0x111000 := by
  have invariant := spaceInitial_heapKernel.invariant
    fun _ => ⟨⟨0, 0, 0, 0, 0⟩, 0⟩
  exact invariant.memoryReady spaceInitial_heapKernel (Or.inl rfl)

/-- The first process, with the pages that the allocator hands out first. -/
theorem heapKernel_created :
    ∃ next,
      processCreateFromModule [0x61] heapKernel = some (1, next) ∧
      ProcessCreated heapKernel next 0x110000 0x111000 [0x110000, 0x300000]
        demoModule [0x61] 0 (firstFrames heapSys) ∧
      next.buddySys = remaining heapSys 6 := by
  have ready := heapKernel_ready
  have start := spaceInitial_heapKernel
  have outside : ∀ module ∈ [demoModule, craftedModule],
      2 ^ 12 ∣ module.start ∧ Held heapSys module.start := by
    intro module member
    obtain ⟨aligned, _, outside⟩ := start.modules module member
    exact ⟨aligned, fun free =>
      outside (heapSys_invariant.mem_freePages_iff.mp free).1⟩
  have found : heapKernel.modules.find? (fun module => module.name = [0x61]) =
      some demoModule := rfl
  have reserved : Reserved heapKernel 0x110000 0x111000 demoModule.start := by
    obtain ⟨aligned, held⟩ := outside demoModule (by simp)
    exact ⟨⟨aligned, by decide, by decide, by decide⟩, by decide, held⟩
  have enough : FreeAtLeast heapSys (0 + 6) :=
    freeAtLeast_of_block (Nat.le_refl Pmm.maxOrder)
      (show 0x1800000 ∈ (heapSys.freeArea Pmm.maxOrder).freeList by
        decide +kernel) (by decide)
  obtain ⟨pid, next, run, rfl, _⟩ := processCreateFromModule_returns ready found
    rfl reserved (by decide) enough
  have moduleReady : ∀ module,
      heapKernel.modules.find? (fun module => module.name = [0x61]) =
        some module →
      ModuleReady heapKernel 0x110000 0x111000 [0x110000, 0x300000] module := by
    intro module isFound
    obtain rfl := Option.some.inj (found.symm.trans isFound)
    refine ⟨reserved, ?_, fun long => absurd long (by decide)⟩
    simp only [List.forall_mem_cons, List.not_mem_nil, false_imp_iff,
      implies_true, and_true]
    obtain ⟨aligned, held⟩ := outside craftedModule (by simp)
    exact ⟨⟨by decide, ready.dirHeld, by decide⟩, aligned, held, by decide⟩
  rcases processCreateFromModule_outcome ready moduleReady _ _ run with
    ⟨module, slot, frames, middle, last, isFound, unused, _, steps⟩ | ⟨zero, _⟩
  · obtain rfl := Option.some.inj (found.symm.trans isFound)
    obtain rfl : 0 = slot := Option.some.inj
      ((show findUnusedSlot heapKernel.processes = some 0 from rfl).symm.trans
        unused)
    obtain ⟨framesEq, remains⟩ := steps.allocations
    have framesAre : frames = firstFrames heapSys := framesEq
    subst framesAre
    exact ⟨next, run, steps.processCreated ready (moduleReady _ found)
      (by decide) unused, remains⟩
  · cases zero

/-- Only processes are created, started and ended. -/
def OnlyProcesses (_ : SpaceRun) (request : SpaceCall) : Prop :=
  ∃ call, request = .process call

/-- The allocator after the first process has ended. -/
def freedSys : Pmm.BuddySystem :=
  Pmm.pmmFreePages (Pmm.pmmFreePages (remaining heapSys 6) 0x2100000 0)
    0x2105000 0

/-- The image is where the loader has put it. -/
theorem craftedMemory_heapKernel :
    Agree 0x300000 pageSize heapKernel.mem craftedMemory :=
  agree_loaderTables craftedMemory (by norm_num) (Or.inr (by norm_num))

theorem entryAt_craftedMemory :
    entryAt craftedMemory 0x300000 0 = 0x2100007 ∧
      entryAt craftedMemory 0x300000 768 = 0x111003 ∧
      entryAt craftedMemory 0x300000 1000 = 0x2100007 ∧
      entryAt craftedMemory 0x300000 1023 = 0x2100003 := by
  decide +kernel

/-- The first process has been started and has ended. -/
structure FirstEnded (state : KernelState) : Prop where
  reached : SpaceReachable OnlyProcesses heapKernel ⟨state, []⟩
  permitted : SpaceReachable (SpaceCall.Permitted 0x110000) heapKernel
    ⟨state, []⟩
  cr3 : state.cr3 = 0x2100000
  buddySys : state.buddySys = freedSys
  modules : state.modules = [demoModule, craftedModule]
  ended : (state.processes 0).state = .terminated
  unused : ∀ slot, slot ≠ 0 → state.processes slot = Pcb.clear
  image : Agree 0x300000 pageSize state.mem craftedMemory
  windows : entryAt state.mem 0x2100000 768 = 0x111003

theorem firstEnded_reached : ∃ state, FirstEnded state := by
  obtain ⟨created, run, process, remains⟩ := heapKernel_created
  have dir : (firstFrames heapSys).dir = 0x2100000 := by decide +kernel
  have kernelStack : (firstFrames heapSys).kernelStack = 0x2105000 := by
    decide +kernel
  have entry : created.processes 0 = (firstFrames heapSys).pcb 1 [0x61] := by
    rw [process.entered.processes, Function.update_self]
    rfl
  have found : findReadySlot created.processes 1 = some 0 :=
    findReadySlot_of (by decide) (by rw [entry]; rfl) (by rw [entry]; rfl)
      fun _ below => absurd below (Nat.not_lt_zero _)
  have runs : ∀ permitted : SpaceRun → SpaceCall → Prop,
      permitted ⟨heapKernel, []⟩ (.process (.create [0x61])) →
      (∀ run, permitted run (.process (.start 1))) →
      (∀ run, permitted run (.process .exit)) →
      SpaceReachable permitted heapKernel
        ⟨(created.started 0).exited 0, []⟩ := by
    intro permitted create start exit
    have entered := SpaceReachable.init.call _ create
      (show SpaceCall.perform _ _ = some ⟨created, []⟩ by
        rw [SpaceCall.perform, ProcessCall.perform, run]
        rfl)
    have started := entered.call _ (start _)
      (show SpaceCall.perform _ _ = some ⟨created.started 0, []⟩ by
        rw [SpaceCall.perform, ProcessCall.perform, processStart_of_some found]
        rfl)
    exact started.call _ (exit _) (by
      rw [SpaceCall.perform, ProcessCall.perform,
        processExitCurrent_of_some KernelState.started_currentProcess]
      rfl)
  refine ⟨_,
    runs OnlyProcesses ⟨_, rfl⟩ (fun _ => ⟨_, rfl⟩) (fun _ => ⟨_, rfl⟩),
    runs _ (Or.inl rfl) (fun _ => trivial) (fun _ => trivial), ?_, ?_, ?_, ?_,
    ?_, ?_, ?_⟩
  · rw [KernelState.exited_cr3, KernelState.started_cr3, entry]
    exact dir
  · rw [KernelState.exited_buddySys, KernelState.started_processes,
      Function.update_self, KernelState.started_buddySys, entry, remains,
      Pcb.release, ProcessFrames.pcb]
    dsimp only
    rw [dir, kernelStack, if_neg (by decide)]
    rfl
  · rw [KernelState.exited_modules]
    exact process.modules
  · rw [KernelState.exited_processes, Function.update_self]
  · intro slot different
    rw [KernelState.exited_processes, Function.update_of_ne different,
      KernelState.started_processes, Function.update_of_ne different,
      process.entered.processes, Function.update_of_ne different]
    rfl
  · rw [KernelState.exited_mem]
    exact (process.keeps 0x300000 (by simp) (by decide)).trans
      craftedMemory_heapKernel
  · have half := process.entries.dir 768 (by omega)
    rw [dir, if_neg (by omega), if_neg (by omega), kernelHalf,
      if_pos (by omega)] at half
    rw [KernelState.exited_mem]
    refine half.trans ((entryAt_loaderTables_dir craftedMemory (by norm_num)
      (by norm_num) (by omega)).trans ?_)
    decide

theorem FirstEnded.invariant
    {state : KernelState}
    (ended : FirstEnded state) :
    ∃ frames lost, SpaceInvariant heapKernel 0x110000 0x111000 [heapBlock]
      Kmalloc.bootSys.freePages ⟨state, []⟩ frames lost :=
  ended.permitted.right spaceInitial_heapKernel

/-- The next code page is the directory that is still active. -/
theorem FirstEnded.getsDirectory
    {state : KernelState}
    (ended : FirstEnded state) :
    GetsDirectory state 0x110000 0x111000 craftedModule.start := by
  obtain ⟨frames, lost, invariant⟩ := ended.invariant
  have start := spaceInitial_heapKernel
  obtain ⟨aligned, inRange, outside⟩ := start.modules craftedModule (by
    simp [heapKernel, bootKernel, KernelState.withBuddySys])
  obtain ⟨_, windowsEntry, _, selfEntry⟩ := entryAt_craftedMemory
  have image := Agree.samePage ended.image
  have carries : CarriesTables state.mem 0x300000 0x2100000 := by
    refine .of_entries ?_ ?_
    · exact ((image.entryAt_eq (by omega)).trans windowsEntry).trans
        ended.windows.symm
    · refine image.pointsTo (by omega) ?_
      rw [PointsTo, selfEntry]
      decide +kernel
  refine ⟨invariant.windows, ⟨_, _, invariant.allocator⟩,
    invariant.held_outside start.bootDirOutside.pool,
    invariant.held_outside start.windowTableOutside.pool, ?_, ?_, aligned,
    inRange, invariant.held_outside outside, by decide, ?_⟩
  · rw [ended.buddySys]
    exact freeAtLeast_of_block (Nat.le_refl Pmm.maxOrder)
      (show 0x1800000 ∈ (freedSys.freeArea Pmm.maxOrder).freeList by
        decide +kernel) (by decide)
  · rw [ended.buddySys, ended.cr3]
    decide +kernel
  · rw [ended.cr3]
    exact carries

/-- The second process has the active directory as its code page. -/
structure DirectoryTaken (state : KernelState) : Prop where
  reached : SpaceReachable OnlyProcesses heapKernel ⟨state, []⟩
  cr3 : state.cr3 = 0x2100000
  ready : MemoryReady state 0x2100000 0x111000
  modules : state.modules = [demoModule, craftedModule]
  moduleHeld : Held state.buddySys demoModule.start
  unused : findUnusedSlot state.processes = some 2
  nextPid : state.nextPid ≠ 0
  free : FreeAtLeast state.buddySys (0 + 6)
  image : SamePage state.mem 0x2100000 craftedMemory 0x300000

theorem directoryTaken_reached : ∃ state, DirectoryTaken state := by
  obtain ⟨state, ended⟩ := firstEnded_reached
  obtain ⟨frames, lost, invariant⟩ := ended.invariant
  have start := spaceInitial_heapKernel
  have gets := ended.getsDirectory
  have found : state.modules.find? (fun module => module.name = [0x62]) =
      some craftedModule := by
    rw [ended.modules]
    rfl
  have unused : findUnusedSlot state.processes = some 1 := by
    refine findUnusedSlot_of (by decide) ?_ fun lower below => ?_
    · rw [ended.unused 1 (by decide)]
      rfl
    · obtain rfl : lower = 0 := by omega
      rw [ended.ended]
      decide
  obtain ⟨pid, next, run, isPid, written⟩ := processCreateFromModule_overwritten
    gets found unused rfl
  have allocator := gets.allocator
  have moduleHeld : Held state.buddySys demoModule.start :=
    invariant.held_outside (start.modules demoModule (by
      simp [heapKernel, bootKernel, KernelState.withBuddySys])).2.2
  have cr3 : next.cr3 = 0x2100000 := written.cr3.trans ended.cr3
  have code : (firstFrames state.buddySys).code = 0x2100000 :=
    gets.code.trans ended.cr3
  have dirHeld : Held next.buddySys 0x2100000 := by
    rw [← code]
    exact written.takes.held allocator (by simp [ProcessFrames.owned])
  have windows := written.windows
  have image := written.image
  rw [ended.cr3] at windows image
  refine ⟨next, ended.reached.call (.process (.create [0x62])) ⟨_, rfl⟩ ?_, cr3,
    ⟨windows, written.takes.ready allocator, cr3 ▸ dirHeld, dirHeld,
      written.takes.keeps allocator gets.windowTableHeld⟩,
    written.modules.trans ended.modules, written.takes.keeps allocator moduleHeld,
    ?_, ?_, ?_, image.trans (Agree.samePage ended.image)⟩
  · rw [SpaceCall.perform, ProcessCall.perform, run]
    rfl
  · rw [written.processes]
    refine findUnusedSlot_of (by decide) ?_ fun lower below => ?_
    · rw [Function.update_of_ne (by decide), ended.unused 2 (by decide)]
      rfl
    · rcases (show lower = 0 ∨ lower = 1 by omega) with rfl | rfl
      · rw [Function.update_of_ne (by decide), ended.ended]
        decide
      · rw [Function.update_self]
        exact ProcessState.noConfusion
  · have counted : state.nextPid = 1 + usedCount state.processes :=
      invariant.pids.counted
    have bound := usedCount_lt (findUnusedSlot_eq_some unused).1
      (findUnusedSlot_eq_some unused).2
    simp only [maxProcesses] at bound
    rw [written.nextPid, wrap32_of_lt (by omega)]
    omega
  · have many : FreeAtLeast state.buddySys 12 := by
      rw [ended.buddySys]
      exact freeAtLeast_of_block (Nat.le_refl Pmm.maxOrder)
        (show 0x1800000 ∈ (freedSys.freeArea Pmm.maxOrder).freeList by
          decide +kernel) (by decide)
    have before := allocator.freeAtLeast_iff.mp many
    have count := written.takes.ncard_freePages allocator
    simp only [ProcessFrames.owned, List.length_cons, List.length_nil] at count
    exact (written.takes.ready allocator).freeAtLeast_iff.mpr (by omega)

/-- User code of the third process reaches the page of the second one. -/
theorem DirectoryTaken.next_not_isolated
    {state : KernelState}
    (taken : DirectoryTaken state) :
    ∃ next, processCreateFromModule [0x61] state = some (state.nextPid, next) ∧
      ¬ Isolated next heapBlock := by
  have found : state.modules.find? (fun module => module.name = [0x61]) =
      some demoModule := by
    rw [taken.modules]
    rfl
  have reserved : Reserved state 0x2100000 0x111000 demoModule.start := by
    refine ⟨⟨by decide, ?_, by decide, by decide⟩, by decide, taken.moduleHeld⟩
    rw [taken.cr3]
    decide
  obtain ⟨next, frames, run, process, _⟩ := processCreateFromModule_created
    taken.ready found taken.unused reserved (by decide) taken.nextPid taken.free
  refine ⟨next, run, fun isolated => ?_⟩
  have dirHeld := taken.ready.kernelDirHeld
  have dirKept : Agree 0x2100000 pageSize next.mem state.mem :=
    process.keeps 0x2100000 (by simp [taken.cr3]) (by decide)
  have alive : (next.processes 2).Alive := by
    rw [process.entered.processes, Function.update_self]
    exact Or.inl rfl
  have space : ProcessSpace next.mem 0x2100000 (next.processes 2) frames := by
    rw [process.entered.processes, Function.update_self]
    refine ⟨rfl, rfl, process.dirNonzero, process.valid, process.inRange,
      process.entries.congr_others fun index bound => ?_⟩
    rw [kernelHalf, kernelHalf,
      show entryAt next.mem 0x2100000 index = entryAt state.mem 0x2100000 index
        from load_congr (Windows.entry_agree bound dirKept)]
  obtain ⟨pageEntry, _, tableEntry, _⟩ := entryAt_craftedMemory
  have image : SamePage next.mem 0x2100000 craftedMemory 0x300000 :=
    (Agree.samePage dirKept).trans taken.image
  have dirEntry : entryAt next.mem frames.dir 1000 = 0x2100007 := by
    rw [space.entries.dir 1000 (by omega), if_neg (by omega),
      if_neg (by omega), kernelHalf, if_pos (by omega)]
    exact (image.entryAt_eq (by omega)).trans tableEntry
  have codeEntry : entryAt next.mem 0x2100000 0 = 0x2100007 :=
    (image.entryAt_eq (by omega)).trans pageEntry
  have reach : UserReaches next.mem (next.processes 2).pageDirectory
      0x2100000 := by
    rw [space.pageDirectory]
    refine ⟨1000, by omega, 0x2100000, 0, by omega, ?_, ?_, ?_, ?_⟩
    · rw [PointsTo, dirEntry]
      decide +kernel
    · rw [dirEntry]
      decide +kernel
    · rw [PointsTo, codeEntry]
      decide +kernel
    · rw [codeEntry]
      decide +kernel
  have wereFree := (process.takes.wereFree taken.ready.allocator).1
  rcases isolated.reaches 2 (by decide) alive _ reach with code | stack
  · rw [space.spaceFrames_eq] at code
    exact dirHeld (code ▸ wereFree frames.code (by simp [ProcessFrames.owned]))
  · rw [space.spaceFrames_eq] at stack
    exact dirHeld
      (stack ▸ wereFree frames.stack (by simp [ProcessFrames.owned]))

end MatrixOS
