import MatrixOS.PageFrames
import MatrixOS.WindowAccess

namespace MatrixOS

open ByteMemory Paging StateOption

/-!
# What the memory manager does to physical memory

`vmm_create_user_space` and `vmm_load_user_program` as functions on physical
memory, up to the table entries of the windows.
-/

/-- The memory after `setMapping`. -/
def mappedTable
    (mem : Memory) (dir dirIndex table tabIndex page : Nat) : Memory :=
  store
    (fill (store mem 4 (entryAddr dir dirIndex) (table ||| 0x07))
      table pageSize 0)
    4 (entryAddr table tabIndex) (page ||| 0x07)

theorem SameOffWindows.mappedTable
    {windowTable : Nat} {left right : Memory}
    (same : SameOffWindows windowTable left right)
    (dir dirIndex table tabIndex page : Nat) :
    SameOffWindows windowTable
      (mappedTable left dir dirIndex table tabIndex page)
      (mappedTable right dir dirIndex table tabIndex page) :=
  ((same.store _ _ _).fill _ _ _).store _ _ _

/-- The memory after the page directory has been set up. -/
def createdSpace (mem : Memory) (dir kernelDir : Nat) : Memory :=
  copiedEntries (fill mem dir pageSize 0) dir kernelDir (1024 - 768)

/-- The page frames of a process and its two page tables. -/
structure ProgramFrames where
  dir : Nat
  code : Nat
  stack : Nat
  codeTable : Nat
  stackTable : Nat

/-- The frames `vmm_load_user_program` allocates. -/
def ProgramFrames.taken (frames : ProgramFrames) : List Nat :=
  [frames.code, frames.stack, frames.codeTable, frames.stackTable]

section Taken

variable {frames : ProgramFrames}

theorem ProgramFrames.code_taken : frames.code ∈ frames.taken := by
  simp [taken]

theorem ProgramFrames.codeTable_taken : frames.codeTable ∈ frames.taken := by
  simp [taken]

theorem ProgramFrames.stackTable_taken :
    frames.stackTable ∈ frames.taken := by
  simp [taken]

end Taken

/-- The memory after both page tables have been set up. -/
def mappedProgram (mem : Memory) (frames : ProgramFrames) : Memory :=
  mappedTable
    (mappedTable mem frames.dir 0 frames.codeTable 0 frames.code)
    frames.dir 0x3FE frames.stackTable 0x3FF frames.stack

/-- A state that differs from another one in memory and windows only. -/
def KernelState.withMapping
    (state : KernelState) (mem : Memory) (mgr : TempMappingManager) :
    KernelState :=
  (state.withMem mem).withTempMgr mgr

@[simp] theorem KernelState.withMapping_mem
    (state : KernelState) (mem : Memory) (mgr : TempMappingManager) :
    (state.withMapping mem mgr).mem = mem :=
  rfl

@[simp] theorem KernelState.withMapping_cr3
    (state : KernelState) (mem : Memory) (mgr : TempMappingManager) :
    (state.withMapping mem mgr).cr3 = state.cr3 :=
  rfl

/-! ## States in which the memory manager is called -/

/--
The windows are free and none of the tables behind them is a free page for the
allocator.
-/
structure MemoryReady
    (state : KernelState) (kernelDir windowTable : Nat) : Prop where
  windows : Windows state kernelDir windowTable fun _ => none
  allocator : AllocatorReady state.buddySys
  dirHeld : Held state.buddySys state.cr3
  kernelDirHeld : Held state.buddySys kernelDir
  windowTableHeld : Held state.buddySys windowTable

/-- A page frame in use that is none of these tables. -/
structure Reserved
    (state : KernelState) (kernelDir windowTable frame : Nat) : Prop
    extends Windows.Clear state.cr3 kernelDir windowTable frame where
  inRange : frame + 2 ^ 12 ≤ 2 ^ 32
  held : Held state.buddySys frame

section States

variable {state : KernelState} {kernelDir windowTable frame : Nat}
variable {mem : Memory} {mgr : TempMappingManager}
variable {buddySys : Pmm.BuddySystem}

/-- A free page is none of the tables. -/
theorem MemoryReady.clear_of_free
    (ready : MemoryReady state kernelDir windowTable)
    (aligned : 2 ^ 12 ∣ frame)
    (free : frame / pageSize ∈ state.buddySys.freePages) :
    Windows.Clear state.cr3 kernelDir windowTable frame where
  aligned := aligned
  dir := by
    rintro rfl
    exact ready.dirHeld free
  kernelDir := by
    rintro rfl
    exact ready.kernelDirHeld free
  windowTable := by
    rintro rfl
    exact ready.windowTableHeld free

theorem MemoryReady.clear
    (ready : MemoryReady state kernelDir windowTable)
    (allocated : Allocated state.buddySys frame buddySys) :
    Windows.Clear state.cr3 kernelDir windowTable frame :=
  ready.clear_of_free allocated.aligned allocated.wasFree

/-- The state of the allocator after an allocation. -/
theorem MemoryReady.allocate
    (ready : MemoryReady state kernelDir windowTable)
    (allocated : Allocated state.buddySys frame buddySys) :
    MemoryReady (state.withBuddySys buddySys) kernelDir windowTable where
  windows := ready.windows.withBuddySys buddySys
  allocator := (ready.allocator.allocated allocated.run allocated.nonzero).2
  dirHeld := allocated.keeps ready.dirHeld
  kernelDirHeld := allocated.keeps ready.kernelDirHeld
  windowTableHeld := allocated.keeps ready.windowTableHeld

theorem MemoryReady.reserved
    (ready : MemoryReady state kernelDir windowTable)
    (allocated : Allocated state.buddySys frame buddySys) :
    Reserved (state.withBuddySys buddySys) kernelDir windowTable frame where
  toClear := ready.clear allocated
  inRange := allocated.inRange
  held := allocated.held

theorem Reserved.allocate
    {other : Nat}
    (reserved : Reserved state kernelDir windowTable frame)
    (allocated : Allocated state.buddySys other buddySys) :
    Reserved (state.withBuddySys buddySys) kernelDir windowTable frame where
  toClear := reserved.toClear
  inRange := reserved.inRange
  held := allocated.keeps reserved.held

end States

/-! ## Page tables -/

/-- `setMapping` with the directory in the first window. -/
theorem Windows.setMapping
    {state : KernelState} {kernelDir windowTable dir table : Nat}
    {dirIndex tabIndex : Nat} {frames : Nat → Option Nat}
    (windows : Windows state kernelDir windowTable frames)
    (dirUsed : frames 0 = some dir)
    (free : frames 1 = none)
    (dirClear : Clear state.cr3 kernelDir windowTable dir)
    (tableClear : Clear state.cr3 kernelDir windowTable table)
    (tableInRange : table + 2 ^ 12 ≤ 2 ^ 32)
    (dirBound : dirIndex < 1024)
    (tabBound : tabIndex < 1024)
    (page : Nat) :
    ∃ mem mgr,
      MatrixOS.setMapping (windowAddr 0) dirIndex table tabIndex page state =
        some ((), state.withMapping mem mgr) ∧
      Windows (state.withMapping mem mgr) kernelDir windowTable frames ∧
      SameOffWindows windowTable mem
        (mappedTable state.mem dir dirIndex table tabIndex page) := by
  have first : 0 < tempMappingCount := by decide
  have second : 1 < tempMappingCount := by decide
  have entered := windows.store32 first dirUsed dirBound (table ||| 0x07)
  obtain ⟨mgr, mapped, tableWindows⟩ :=
    (windows.withEntry dirClear dirBound (table ||| 0x07)).map second free
      (fun lower below => by
        obtain rfl : lower = 0 := by omega
        simp [dirUsed])
      tableClear.aligned tableInRange
  have used : Function.update frames 1 (some table) 1 = some table :=
    Function.update_self ..
  have cleared := tableWindows.memset tableClear second used 0 (Nat.le_refl _)
  have clearedWindows :=
    tableWindows.withFill tableClear (Nat.le_refl _) (UInt8.ofNat 0)
  have written :=
    clearedWindows.store32 second used tabBound (page ||| 0x07)
  obtain ⟨lastMgr, unmapped, lastWindows⟩ :=
    (clearedWindows.withEntry tableClear tabBound (page ||| 0x07)).unmap second
      (by simp)
  rw [Function.update_idem, ← free, Function.update_eq_self] at lastWindows
  exact ⟨_, lastMgr,
    (bind_of_eq entered).trans ((bind_of_eq mapped).trans
      ((bind_of_eq cleared).trans ((bind_of_eq written).trans unmapped))),
    lastWindows,
    (SameOffWindows.windowEntry _ second 0).trans
      (((SameOffWindows.windowEntry _ second _).fill _ _ _).store _ _ _)⟩

/-! ## Building and loading -/

section Programs

variable {state : KernelState} {kernelDir windowTable : Nat}

/-- `pmm_alloc_pages(0)` as a step of a kernel program. -/
theorem pmmAllocPages_eq
    {buddySys : Pmm.BuddySystem} {frame : Nat}
    (run : Pmm.pmmAllocPages state.buddySys 0 = (frame, buddySys)) :
    pmmAllocPages 0 state = some (frame, state.withBuddySys buddySys) := by
  rw [pmmAllocPages, run]

/-- `vmm_create_user_space` with a page for the directory. -/
theorem Windows.vmmCreateUserSpace
    {dir : Nat} {buddySys : Pmm.BuddySystem}
    (windows : Windows state kernelDir windowTable fun _ => none)
    (clear : Clear state.cr3 kernelDir windowTable dir)
    (allocated : Allocated state.buddySys dir buddySys) :
    ∃ mem mgr,
      MatrixOS.vmmCreateUserSpace state =
        some (dir, (state.withBuddySys buddySys).withMapping mem mgr) ∧
      Windows ((state.withBuddySys buddySys).withMapping mem mgr)
        kernelDir windowTable (fun _ => none) ∧
      SameOffWindows windowTable mem
        (createdSpace state.mem dir kernelDir) := by
  have first : 0 < tempMappingCount := by decide
  obtain ⟨mgr, mapped, mappedWindows⟩ :=
    (windows.withBuddySys buddySys).map first rfl
      (fun _ below => absurd below (Nat.not_lt_zero _))
      allocated.aligned allocated.inRange
  have used : Function.update (fun _ => none) 0 (some dir) 0 = some dir :=
    Function.update_self ..
  have cleared := mappedWindows.memset clear first used 0 (Nat.le_refl _)
  have clearedWindows :=
    mappedWindows.withFill clear (Nat.le_refl _) (UInt8.ofNat 0)
  have upperHalf : 1024 - 768 ≤ 256 := by decide
  have copied := clearedWindows.copyKernelEntries clear first used upperHalf
  obtain ⟨lastMgr, unmapped, lastWindows⟩ :=
    (clearedWindows.withCopiedEntries clear upperHalf).unmap first (by simp)
  rw [Function.update_idem, Function.update_eq_self] at lastWindows
  refine ⟨_, lastMgr, ?_, lastWindows, ?_⟩
  · rw [MatrixOS.vmmCreateUserSpace,
      bind_of_eq (pmmAllocPages_eq allocated.run), if_neg allocated.nonzero,
      bind_of_eq mapped, bind_of_eq cleared, bind_of_eq copied,
      bind_of_eq unmapped]
    rfl
  · refine (SameOffWindows.windowEntry _ first 0).trans ?_
    exact ((SameOffWindows.windowEntry _ first _).fill _ _ _).copiedEntries
      windows.windowTable_aligned windows.kernelDir_aligned
      windows.tableApart.2.symm (by decide)

theorem vmmCreateUserSpace_eq
    (ready : MemoryReady state kernelDir windowTable)
    {dir : Nat} {buddySys : Pmm.BuddySystem}
    (allocated : Allocated state.buddySys dir buddySys) :
    ∃ mem mgr,
      vmmCreateUserSpace state =
        some (dir, (state.withBuddySys buddySys).withMapping mem mgr) ∧
      Windows ((state.withBuddySys buddySys).withMapping mem mgr)
        kernelDir windowTable (fun _ => none) ∧
      SameOffWindows windowTable mem
        (createdSpace state.mem dir kernelDir) :=
  ready.windows.vmmCreateUserSpace (ready.clear allocated) allocated

/-- The allocations of `vmm_load_user_program`. -/
structure LoadFrames
    (before : Pmm.BuddySystem) (frames : ProgramFrames)
    (afterCode afterStack afterTable after : Pmm.BuddySystem) : Prop where
  code : Allocated before frames.code afterCode
  stack : Allocated afterCode frames.stack afterStack
  codeTable : Allocated afterStack frames.codeTable afterTable
  stackTable : Allocated afterTable frames.stackTable after

variable {frames : ProgramFrames}
variable {before afterCode afterStack afterTable after : Pmm.BuddySystem}

section LoadFrames

variable (allocated : LoadFrames before frames afterCode afterStack afterTable
  after)
include allocated

theorem LoadFrames.wasFree :
    ∀ frame ∈ frames.taken, frame / pageSize ∈ before.freePages := by
  have first : ∀ {page}, page ∈ afterCode.freePages → page ∈ before.freePages :=
    fun free => ((allocated.code.remaining _).mp free).1
  have second : ∀ {page}, page ∈ afterStack.freePages →
      page ∈ before.freePages :=
    fun free => first ((allocated.stack.remaining _).mp free).1
  have third : ∀ {page}, page ∈ afterTable.freePages →
      page ∈ before.freePages :=
    fun free => second ((allocated.codeTable.remaining _).mp free).1
  simp only [ProgramFrames.taken, List.forall_mem_cons, List.not_mem_nil,
    false_imp_iff, implies_true, and_true]
  exact ⟨allocated.code.wasFree, first allocated.stack.wasFree,
    second allocated.codeTable.wasFree, third allocated.stackTable.wasFree⟩

theorem LoadFrames.ne_of_held
    {other : Nat}
    (held : Held before other) :
    ∀ frame ∈ frames.taken, other ≠ frame := by
  rintro frame member rfl
  exact held (allocated.wasFree _ member)

theorem LoadFrames.held :
    ∀ frame ∈ frames.taken, Held after frame := by
  have table := allocated.stackTable.keeps allocated.codeTable.held
  have stack := allocated.stackTable.keeps
    (allocated.codeTable.keeps allocated.stack.held)
  have code := allocated.stackTable.keeps (allocated.codeTable.keeps
    (allocated.stack.keeps allocated.code.held))
  simp only [ProgramFrames.taken, List.forall_mem_cons, List.not_mem_nil,
    false_imp_iff, implies_true, and_true]
  exact ⟨code, stack, table, allocated.stackTable.held⟩

theorem LoadFrames.aligned :
    ∀ frame ∈ frames.taken, 2 ^ 12 ∣ frame ∧ frame + 2 ^ 12 ≤ 2 ^ 32 := by
  simp only [ProgramFrames.taken, List.forall_mem_cons, List.not_mem_nil,
    false_imp_iff, implies_true, and_true]
  exact ⟨⟨allocated.code.aligned, allocated.code.inRange⟩,
    ⟨allocated.stack.aligned, allocated.stack.inRange⟩,
    ⟨allocated.codeTable.aligned, allocated.codeTable.inRange⟩,
    ⟨allocated.stackTable.aligned, allocated.stackTable.inRange⟩⟩

/-- The page tables are pages of their own. -/
theorem LoadFrames.apart :
    frames.code ≠ frames.codeTable ∧ frames.code ≠ frames.stackTable ∧
      frames.codeTable ≠ frames.stackTable := by
  have codeHeld := allocated.stack.keeps allocated.code.held
  exact ⟨(allocated.codeTable.ne_of_held codeHeld).symm,
    (allocated.stackTable.ne_of_held
      (allocated.codeTable.keeps codeHeld)).symm,
    (allocated.stackTable.ne_of_held allocated.codeTable.held).symm⟩

end LoadFrames

/-- `vmm_load_user_program` up to the copy. -/
theorem Windows.vmmLoadUserProgram
    (windows : Windows state kernelDir windowTable fun _ => none)
    (dirClear : Clear state.cr3 kernelDir windowTable frames.dir)
    (dirInRange : frames.dir + 2 ^ 12 ≤ 2 ^ 32)
    (codeTableClear : Clear state.cr3 kernelDir windowTable frames.codeTable)
    (stackTableClear : Clear state.cr3 kernelDir windowTable frames.stackTable)
    (allocated : LoadFrames state.buddySys frames
      afterCode afterStack afterTable after)
    (start size : Nat) :
    ∃ mem mgr,
      MatrixOS.vmmLoadUserProgram frames.dir start size state =
        (copyUserProgram start frames.code size >>= fun _ => pure 1)
          ((state.withBuddySys after).withMapping mem mgr) ∧
      Windows ((state.withBuddySys after).withMapping mem mgr)
        kernelDir windowTable (fun _ => none) ∧
      SameOffWindows windowTable mem (mappedProgram state.mem frames) := by
  have first : 0 < tempMappingCount := by decide
  obtain ⟨mgr, mapped, dirWindows⟩ :=
    ((windows.withBuddySys afterCode).withBuddySys afterStack).map first rfl
      (fun _ below => absurd below (Nat.not_lt_zero _))
      dirClear.aligned dirInRange
  have used : Function.update (fun _ => none) 0 (some frames.dir) 0 =
      some frames.dir :=
    Function.update_self ..
  obtain ⟨codeMem, codeMgr, codeRun, codeWindows, codeSame⟩ :=
    ((dirWindows.withBuddySys afterTable).withBuddySys after).setMapping used
      rfl dirClear codeTableClear allocated.codeTable.inRange
      (show 0 < 1024 by decide) (show 0 < 1024 by decide) frames.code
  obtain ⟨stackMem, stackMgr, stackRun, stackWindows, stackSame⟩ :=
    codeWindows.setMapping used rfl dirClear stackTableClear
      allocated.stackTable.inRange (show 0x3FE < 1024 by decide)
      (show 0x3FF < 1024 by decide) frames.stack
  obtain ⟨lastMgr, unmapped, lastWindows⟩ :=
    stackWindows.unmap first (by simp)
  rw [Function.update_idem, Function.update_eq_self] at lastWindows
  refine ⟨_, lastMgr, ?_, lastWindows, ?_⟩
  · rw [MatrixOS.vmmLoadUserProgram,
      bind_of_eq (pmmAllocPages_eq allocated.code.run),
      if_neg allocated.code.nonzero,
      bind_of_eq (pmmAllocPages_eq allocated.stack.run),
      if_neg allocated.stack.nonzero, bind_of_eq mapped,
      bind_of_eq (pmmAllocPages_eq allocated.codeTable.run),
      if_neg allocated.codeTable.nonzero,
      bind_of_eq (pmmAllocPages_eq allocated.stackTable.run),
      if_neg allocated.stackTable.nonzero, bind_of_eq codeRun,
      bind_of_eq stackRun, bind_of_eq unmapped]
    rfl
  · refine (SameOffWindows.windowEntry _ first 0).trans (stackSame.trans ?_)
    refine (codeSame.trans ?_).mappedTable _ _ _ _ _
    exact (SameOffWindows.windowEntry _ first _).mappedTable _ _ _ _ _

theorem vmmLoadUserProgram_eq
    (ready : MemoryReady state kernelDir windowTable)
    (reserved : Reserved state kernelDir windowTable frames.dir)
    (allocated : LoadFrames state.buddySys frames
      afterCode afterStack afterTable after)
    (start size : Nat) :
    ∃ mem mgr,
      vmmLoadUserProgram frames.dir start size state =
        (copyUserProgram start frames.code size >>= fun _ => pure 1)
          ((state.withBuddySys after).withMapping mem mgr) ∧
      Windows ((state.withBuddySys after).withMapping mem mgr)
        kernelDir windowTable (fun _ => none) ∧
      SameOffWindows windowTable mem (mappedProgram state.mem frames) := by
  have readyStack := (ready.allocate allocated.code).allocate allocated.stack
  exact ready.windows.vmmLoadUserProgram reserved.toClear reserved.inRange
    (readyStack.clear allocated.codeTable)
    ((readyStack.allocate allocated.codeTable).clear allocated.stackTable)
    allocated start size

/-- A program that returns 1 does not stop at a failed allocation. -/
theorem allocated_of_returns_one
    {fail : Kernel Nat} {rest : Nat → Kernel Nat} {next : KernelState}
    (allocator : AllocatorReady state.buddySys)
    (fails : ∀ state, Ensures fail state fun value _ => value = 0)
    (returned : (pmmAllocPages 0 >>= fun frame =>
      if frame = 0 then fail else rest frame) state = some (1, next)) :
    ∃ frame after, Allocated state.buddySys frame after ∧
      AllocatorReady after ∧
      rest frame (state.withBuddySys after) = some (1, next) := by
  rcases run : Pmm.pmmAllocPages state.buddySys 0 with ⟨frame, after⟩
  rw [bind_of_eq (pmmAllocPages_eq run)] at returned
  by_cases failed : frame = 0
  · rw [if_pos failed] at returned
    exact absurd (fails _ _ _ returned) Nat.one_ne_zero
  · rw [if_neg failed] at returned
    obtain ⟨allocated, ready⟩ := allocator.allocated run failed
    exact ⟨frame, after, allocated, ready, returned⟩

/-- A call that returns 1 got its four frames. -/
theorem vmmLoadUserProgram_frames
    (ready : MemoryReady state kernelDir windowTable)
    {pageDir start size : Nat}
    (reserved : Reserved state kernelDir windowTable pageDir)
    {next : KernelState}
    (loaded : vmmLoadUserProgram pageDir start size state = some (1, next)) :
    ∃ frames afterCode afterStack afterTable after,
      frames.dir = pageDir ∧
        LoadFrames state.buddySys frames afterCode afterStack afterTable
          after := by
  rw [vmmLoadUserProgram] at loaded
  obtain ⟨code, afterCode, codeTaken, readyCode, loaded⟩ :=
    allocated_of_returns_one ready.allocator
      (fun _ => Ensures.pure rfl) loaded
  obtain ⟨stack, afterStack, stackTaken, readyStack, loaded⟩ :=
    allocated_of_returns_one readyCode
      (fun _ => Ensures.of_rest fun _ _ => Ensures.pure rfl) loaded
  obtain ⟨mgr, mapped, _⟩ :=
    ((ready.windows.withBuddySys afterCode).withBuddySys afterStack).map
      (show 0 < tempMappingCount by decide) rfl
      (fun _ below => absurd below (Nat.not_lt_zero _))
      reserved.aligned reserved.inRange
  rw [bind_of_eq mapped] at loaded
  obtain ⟨codeTable, afterTable, codeTableTaken, readyTable, loaded⟩ :=
    allocated_of_returns_one readyStack
      (fun _ => Ensures.of_rest fun _ _ => Ensures.of_rest fun _ _ =>
        Ensures.of_rest fun _ _ => Ensures.pure rfl) loaded
  obtain ⟨stackTable, after, stackTableTaken, _, _⟩ :=
    allocated_of_returns_one readyTable
      (fun _ => Ensures.of_rest fun _ _ => Ensures.of_rest fun _ _ =>
        Ensures.of_rest fun _ _ => Ensures.of_rest fun _ _ =>
          Ensures.pure rfl) loaded
  exact ⟨⟨pageDir, code, stack, codeTable, stackTable⟩, afterCode, afterStack,
    afterTable, after, rfl,
    ⟨codeTaken, stackTaken, codeTableTaken, stackTableTaken⟩⟩

end Programs

end MatrixOS
