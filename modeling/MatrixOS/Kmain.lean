import MatrixOS.LoaderNames
import MatrixOS.UserCode

namespace MatrixOS

open ByteMemory Paging StateOption

/-!
# From the boot loader to user code

`kmain` and the functions of `kernel/boot.c`, as far as they reach the page
allocator, the page tables, the modules and the processes.  The console, the
file systems and the interrupt tables are kept in memory that has no part in
this; what the code for them writes is a parameter.
-/

/--
`multiboot_info_t`, with the fields that the kernel reads; `mods` is the table
at `mods_addr`.
-/
structure MultibootInfo where
  flags : Nat
  mods : List MultibootModule

/-- `boot_multiboot_ok`. -/
def bootMultibootOk (magic : Nat) : Bool :=
  magic == 0x2BADB002

/-- `boot_mm_init`. -/
def bootMmInit : Kernel Unit := fun state =>
  let buddySys := Pmm.pmmInit state.buddySys 0x01000000 0x02000000
  let (heap, buddySys) := Kmalloc.kmallocInit buddySys state.mem
  some ((), ((state.withBuddySys buddySys).withTempMgr tempMappingInit).withMem
    heap.mem)

/-- `boot_modules_from_mbi`. -/
def bootModulesFromMbi (mbi : MultibootInfo) : Kernel Unit := fun state =>
  if mbi.flags &&& (1 <<< 3) ≠ 0 then
    some ((), { state with modules := loaderInit mbi.mods })
  else
    some ((), state)

/-- `boot_user_demo`; `none` when it returns. -/
def bootUserDemo : Kernel (Option UserFrame) := do
  if (← get).modules.length = 0 then
    return none
  let pid ← processCreateFromModule (cstr "hello")
  if pid ≠ 0 then
    processStart pid
  else
    return none

/-- Code that is not modelled further, by what it does to memory. -/
def bootWrites (effect : Memory → Memory) : Kernel Unit := fun state =>
  some ((), state.withMem (effect state.mem))

/-- Where `kmain` ends. -/
inductive BootEnd where
  /-- It has returned to the loader. -/
  | returned
  /-- `boot_idle_forever`. -/
  | idle
  | userMode (frame : UserFrame)
  deriving Repr, DecidableEq

/--
`kmain`: `bootEarlyConsole` is the effect of the function of that name, and
`bootServices` that of the functions between `boot_modules_from_mbi` and
`boot_user_demo`.
-/
def kmain
    (bootEarlyConsole bootServices : Memory → Memory)
    (magic : Nat) (mbi : MultibootInfo) : Kernel BootEnd := do
  bootWrites bootEarlyConsole
  if !bootMultibootOk magic then
    return .returned
  bootMmInit
  processInit
  bootModulesFromMbi mbi
  bootWrites bootServices
  match ← bootUserDemo with
  | some frame => return .userMode frame
  | none => return .idle

/-- The kernel when the loader calls `kmain`, with its variables as in `.bss`. -/
def loadedKernel (mem : Memory) (pageDirectory : Nat) : KernelState where
  mem := loaderTables mem pageDirectory
  cr3 := pageDirectory
  buddySys := Pmm.bss
  tempMgr := ⟨false, 0, fun _ => 0⟩
  modules := []
  processes := fun _ => Pcb.clear
  currentProcess := none
  nextPid := 1

/-- Writes that leave the page tables of the loader and the modules alone. -/
structure WritesElsewhere
    (pageDirectory : Nat) (modules : List ModuleInfo)
    (effect : Memory → Memory) : Prop where
  tables : ∀ mem, Agree pageDirectory (34 * pageSize) (effect mem) mem
  modules : ∀ module ∈ modules, ∀ mem,
    Agree module.start module.size (effect mem) mem

/-- A module of one page that the boot loader has put where it can be used. -/
structure PlacedModule (pageDirectory : Nat) (module : ModuleInfo) : Prop where
  aligned : 2 ^ 12 ∣ module.start
  below : module.start < 0x1800000
  apart : module.start < pageDirectory ∨
    pageDirectory + 34 * pageSize ≤ module.start
  inPage : module.size ≤ pageSize

/-! ## What user code reaches -/

/-- The page of code and the page of the stack, and nothing else. -/
def userPlace (code stack virtualAddr : Nat) : Option Nat :=
  if virtualAddr / pageSize = 0 then
    some (code + virtualAddr % pageSize)
  else if virtualAddr / pageSize = 0x3FE * 1024 + 0x3FF then
    some (stack + virtualAddr % pageSize)
  else
    none

section Access

variable {state : KernelState} {virtualAddr : Nat} (writes : Bool)

theorem userAccess_of_translate
    {addr : Nat}
    (inSpace : virtualAddr < 2 ^ 32)
    (leads : translate state.mem state.cr3 virtualAddr =
      some ⟨addr, true, true⟩) :
    userAccess state writes virtualAddr = some addr := by
  rw [userAccess, wrap32_of_lt inSpace, leads]
  simp

theorem userAccess_of_not_mapped
    (inSpace : virtualAddr < 2 ^ 32)
    (missing : translate state.mem state.cr3 virtualAddr = none) :
    userAccess state writes virtualAddr = none := by
  rw [userAccess, wrap32_of_lt inSpace, missing]

/-- Behind an entry of the kernel there is nothing for user code. -/
theorem userAccess_of_kernelEntry
    (inSpace : virtualAddr < 2 ^ 32)
    (kernelOnly : userAccessible
      (entryAt state.mem state.cr3 (virtualAddr / 2 ^ 22)) = false) :
    userAccess state writes virtualAddr = none := by
  rw [userAccess, wrap32_of_lt inSpace, Paging.translate]
  simp only [kernelOnly, Bool.false_and]
  split
  · rfl
  · rename_i found leads
    split at leads
    · split at leads
      · obtain rfl := Option.some.inj leads
        simp
      · cases leads
    · cases leads

/-- The tables of a program let user code reach its two pages. -/
theorem SpaceEntries.userAccess_eq
    {frames : ProgramFrames} {others : Nat → Nat}
    (entries : SpaceEntries state.mem frames others)
    (valid : frames.Valid)
    (own : state.cr3 = frames.dir)
    (low : ∀ index < 768, others index = 0)
    (high : ∀ index, 768 ≤ index → index < 1024 →
      userAccessible (others index) = false)
    (inSpace : virtualAddr < 2 ^ 32) :
    userAccess state writes virtualAddr =
      userPlace frames.code frames.stack virtualAddr := by
  rw [userPlace]
  by_cases onCode : virtualAddr / pageSize = 0
  · have inPage : virtualAddr < pageSize :=
      (Nat.div_eq_zero_iff_lt (by decide)).mp onCode
    have leads := entries.translate_code valid inPage
    rw [if_pos onCode, Nat.mod_eq_of_lt inPage]
    rw [← own] at leads
    exact userAccess_of_translate writes inSpace leads
  rw [if_neg onCode]
  by_cases onStack : virtualAddr / pageSize = 0x3FE * 1024 + 0x3FF
  · have leads := entries.translate_stack valid onStack
    rw [if_pos onStack]
    rw [← own] at leads
    exact userAccess_of_translate writes inSpace leads
  rw [if_neg onStack]
  simp only [pageSize] at onCode onStack
  have dirEntry := entries.dir (virtualAddr / 2 ^ 22) (by omega)
  by_cases firstTable : virtualAddr / 2 ^ 22 = 0
  · have missing := entries.translate_past_code valid
      (show pageSize ≤ virtualAddr by simp only [pageSize]; omega) (by omega)
    rw [← own] at missing
    exact userAccess_of_not_mapped writes inSpace missing
  by_cases stackTable : virtualAddr / 2 ^ 22 = 0x3FE
  · have tableFrame :=
      (userEntry (valid.aligned _ ProgramFrames.stackTable_taken).1).2.2.2
    refine userAccess_of_not_mapped writes inSpace
      (translate_of_table_not_present ?_)
    rw [own, dirEntry, if_pos stackTable, tableFrame,
      entries.stackTable _ (by omega), if_neg (by omega)]
    rfl
  rw [if_neg stackTable, if_neg firstTable] at dirEntry
  rcases Nat.lt_or_ge (virtualAddr / 2 ^ 22) 768 with lower | upper
  · refine userAccess_of_not_mapped writes inSpace
      (translate_of_not_present ?_)
    rw [own, dirEntry, low _ lower]
    rfl
  · refine userAccess_of_kernelEntry writes inSpace ?_
    rw [own, dirEntry]
    exact high _ upper (by omega)

end Access

/-! ## The kernel when `boot_user_demo` is called -/

/-- The modules that are recorded. -/
def bootModules (mbi : MultibootInfo) : List ModuleInfo :=
  if mbi.flags &&& (1 <<< 3) ≠ 0 then loaderInit mbi.mods else []

/-- `kmalloc_init` of the boot region, by what it does to memory. -/
def heapInit (mem : Memory) : Memory :=
  (Kmalloc.kmallocInit Kmalloc.bootSys mem).1.mem

/-- The kernel after boot, with the heap allocated and other memory contents. -/
def bootedKernel
    (mem : Memory) (pageDirectory : Nat) (modules : List ModuleInfo)
    (after : Memory) : KernelState :=
  ((bootKernel mem pageDirectory modules).withBuddySys heapSys).withMem after

theorem heapStart_bootSys : Kmalloc.heapStart Kmalloc.bootSys = 0x2000000 := by
  decide +kernel

/-- `kmalloc_init` writes the header of its block. -/
theorem agree_heapInit
    {first count : Nat}
    (mem : Memory)
    (below : first + count ≤ 0x2000000) :
    Agree first count (heapInit mem) mem := by
  have start : (Pmm.pmmAllocPages Kmalloc.bootSys 8).1 = 0x2000000 :=
    heapStart_bootSys
  rw [heapInit, Kmalloc.kmallocInit]
  simp only [start, Kmalloc.setPrev, Kmalloc.setNext, Kmalloc.setIsFree,
    Kmalloc.setSize]
  exact (agree_store (by omega)).trans ((agree_store (by omega)).trans
    ((agree_store (by omega)).trans (agree_store (by omega))))

section Booted

variable (mem : Memory) {pageDirectory : Nat} (modules : List ModuleInfo)
variable {after : Memory}

theorem heapSys_ready : AllocatorReady heapSys :=
  ⟨[heapBlock], _, heapSys_invariant⟩

/-- `kmalloc_init` has taken free pages only. -/
theorem held_heapSys
    {frame : Nat}
    (low : frame < 0x1800000) :
    Held heapSys frame := by
  intro free
  have bounds := mem_bootSys_freePages.mp
    (heapSys_invariant.mem_freePages_iff.mp free).1
  simp only [pageSize] at bounds
  omega

section Tables

variable (aligned : 2 ^ 12 ∣ pageDirectory)
variable (below : pageDirectory + 34 * pageSize ≤ 0x1800000)
variable (tables : Agree pageDirectory (34 * pageSize) after
  (loaderTables mem pageDirectory))
include aligned below tables

theorem memoryReady_bootedKernel :
    MemoryReady (bootedKernel mem pageDirectory modules after) pageDirectory
      (firstPageTable pageDirectory) := by
  have first : firstPageTable pageDirectory = pageDirectory + 4096 := rfl
  simp only [pageSize] at below tables
  have windows := ((memoryReady_bootKernel mem modules aligned
    (by omega)).windows.withBuddySys heapSys)
  have dir : Agree pageDirectory pageSize after
      (loaderTables mem pageDirectory) :=
    tables.mono (Nat.le_refl _) (by simp only [pageSize]; omega)
  have firstTable : Agree (firstPageTable pageDirectory) pageSize after
      (loaderTables mem pageDirectory) :=
    tables.mono (by omega) (by simp only [pageSize]; omega)
  exact ⟨windows.withMem dir dir firstTable, heapSys_ready,
    held_heapSys (show pageDirectory < 0x1800000 by omega),
    held_heapSys (by omega), held_heapSys (by omega)⟩

/-- User code does not get through the upper entries. -/
theorem supervisor_bootedKernel : Supervisor after pageDirectory := by
  simp only [pageSize] at below tables
  intro index upper bound
  have entry : entryAt after pageDirectory index =
      entryAt (loaderTables mem pageDirectory) pageDirectory index :=
    load_congr (Windows.entry_agree bound (tables.mono (Nat.le_refl _)
      (by simp only [pageSize]; omega)))
  rw [entry]
  exact supervisor_loaderTables mem aligned (by omega) index upper bound

omit below tables in
theorem PlacedModule.reserved
    {module : ModuleInfo}
    (placed : PlacedModule pageDirectory module) :
    Reserved (bootedKernel mem pageDirectory modules after) pageDirectory
      (firstPageTable pageDirectory) module.start := by
  obtain ⟨moduleAligned, low, apart, _⟩ := placed
  have first : firstPageTable pageDirectory = pageDirectory + 4096 := rfl
  have dir : (bootedKernel mem pageDirectory modules after).cr3 =
      pageDirectory := rfl
  simp only [pageSize] at apart
  refine ⟨⟨moduleAligned, ?_, by omega, by omega⟩, by omega,
    held_heapSys low⟩
  rw [dir]
  omega

end Tables

end Booted

/-! ## Where `kmain` ends -/

/--
The first process runs, with the image of a module in a page and the stack in
another one, both of them free until then.
-/
structure UserStarted
    (mem : Memory) (module : ModuleInfo) (state : KernelState)
    (code stack : Nat) : Prop where
  running : state.currentProcess = some 0 ∧ (state.processes 0).pid = 1 ∧
    (state.processes 0).state = .running
  access : ∀ writes, ∀ virtualAddr < 2 ^ 32,
    userAccess state writes virtualAddr = userPlace code stack virtualAddr
  image : ∀ offset < module.size,
    state.mem (code + offset) = mem (module.start + offset)
  wereFree : code / pageSize ∈ heapSys.freePages ∧
    stack / pageSize ∈ heapSys.freePages
  different : code ≠ stack

/-- The module that `boot_user_demo` starts. -/
def userDemo (modules : List ModuleInfo) : Option ModuleInfo :=
  modules.find? fun module => module.name = cstr "hello"

/-- What each end of `kmain` means. -/
def EndsRight
    (mem : Memory) (magic : Nat) (mbi : MultibootInfo) (next : KernelState) :
    BootEnd → Prop
  | .returned => magic ≠ 0x2BADB002
  | .idle => magic = 0x2BADB002 ∧ userDemo (bootModules mbi) = none ∧
      next.currentProcess = none
  | .userMode frame => magic = 0x2BADB002 ∧
      frame = ⟨0, 0x1B, 0x202, userStackTop, 0x23⟩ ∧
      ∃ module code stack, userDemo (bootModules mbi) = some module ∧
        UserStarted mem module next code stack

section Demo

variable {mem after : Memory} {pageDirectory : Nat}
variable {modules : List ModuleInfo}

/-- Without the module the kernel goes on. -/
theorem bootUserDemo_missing
    {state : KernelState}
    (missing : userDemo state.modules = none) :
    bootUserDemo state = some (none, state) := by
  have first : (get : Kernel KernelState) state = some (state, state) := rfl
  rw [bootUserDemo, bind_of_eq first]
  by_cases empty : state.modules.length = 0
  · rw [if_pos empty]
    rfl
  · have found : loaderFindModule (cstr "hello") state = some (none, state) := by
      rw [loaderFindModule, ← missing]
      rfl
    have refused : processCreateFromModule (cstr "hello") state =
        some (0, state) := by
      rw [processCreateFromModule, bind_of_eq found]
      rfl
    rw [if_neg empty]
    exact (bind_of_eq refused).trans rfl

/-- A module that is found and in its place runs; the runs go on from there. -/
theorem bootUserDemo_started
    {module : ModuleInfo}
    (aligned : 2 ^ 12 ∣ pageDirectory)
    (below : pageDirectory + 34 * pageSize ≤ 0x1800000)
    (tables : Agree pageDirectory (34 * pageSize) after
      (loaderTables mem pageDirectory))
    (found : userDemo modules = some module)
    (placed : PlacedModule pageDirectory module) :
    ∃ next code stack,
      bootUserDemo (bootedKernel mem pageDirectory modules after) =
        some (some ⟨0, 0x1B, 0x202, userStackTop, 0x23⟩, next) ∧
      UserStarted after module next code stack ∧
      UserReachable pageDirectory
        (bootedKernel mem pageDirectory modules after) ⟨next, []⟩ := by
  have ready := memoryReady_bootedKernel mem modules aligned below tables
  have reserved : Reserved (bootedKernel mem pageDirectory modules after)
      pageDirectory (firstPageTable pageDirectory) module.start :=
    placed.reserved mem modules aligned
  have enough : FreeAtLeast heapSys (0 + 6) :=
    freeAtLeast_of_block (Nat.le_refl Pmm.maxOrder)
      (show 0x1800000 ∈ (heapSys.freeArea Pmm.maxOrder).freeList by
        decide +kernel) (by decide)
  obtain ⟨next, frames, creates, created, _⟩ :=
    processCreateFromModule_created ready found
      (show findUnusedSlot (fun _ => Pcb.clear) = some 0 from rfl) reserved
      placed.inPage Nat.one_ne_zero enough
  have entry : next.processes 0 = frames.pcb 1 (cstr "hello") := by
    rw [created.entered.processes, Function.update_self]
    rfl
  have startable : findReadySlot next.processes 1 = some 0 :=
    findReadySlot_of (by decide) (by rw [entry]; rfl) (by rw [entry]; rfl)
      fun lower below => absurd below (Nat.not_lt_zero lower)
  have starts := processStart_of_some startable
  rw [entry] at starts
  have running : (next.started 0).processes 0 =
      { frames.pcb 1 (cstr "hello") with state := .running } := by
    rw [KernelState.started_processes, Function.update_self, entry]
  have own : (next.started 0).cr3 = frames.dir := by
    rw [KernelState.started_cr3, entry]
    rfl
  obtain ⟨wereFree, nodup⟩ := created.takes.wereFree ready.allocator
  refine ⟨next.started 0, frames.code, frames.stack, ?_, ?_, ?_⟩
  · have first : (get : Kernel KernelState)
        (bootedKernel mem pageDirectory modules after) =
          some (bootedKernel mem pageDirectory modules after,
            bootedKernel mem pageDirectory modules after) := rfl
    have nonempty :
        (bootedKernel mem pageDirectory modules after).modules.length ≠ 0 := by
      intro empty
      have none : modules = [] := List.length_eq_zero_iff.mp empty
      rw [none] at found
      cases found
    rw [bootUserDemo, bind_of_eq first, if_neg nonempty, bind_of_eq creates]
    exact starts
  · have supervisor := supervisor_bootedKernel mem aligned below tables
    refine ⟨⟨KernelState.started_currentProcess, ?_, ?_⟩,
      fun writes virtualAddr inSpace => ?_, fun offset inImage => ?_,
      ⟨wereFree _ ?_, wereFree _ ?_⟩, ?_⟩
    · rw [running]
      rfl
    · rw [running]
    · refine SpaceEntries.userAccess_eq writes created.entries created.valid own
        (fun index lower => ?_) (fun index upper bound => ?_) inSpace
      · rw [kernelHalf, if_neg (by omega)]
      · rw [kernelHalf, if_pos upper]
        exact supervisor index upper bound
    · have inPage := placed.inPage
      have copied := created.code inPage offset (by omega)
      rw [if_pos inImage] at copied
      exact copied
    · simp [ProcessFrames.owned]
    · simp [ProcessFrames.owned]
    · intro same
      simp [ProcessFrames.owned, same] at nodup
  · have afterCreate : UserReachable pageDirectory
        (bootedKernel mem pageDirectory modules after) ⟨next, []⟩ := by
      refine UserReachable.init.call
        (.kernel (.process (.create (cstr "hello")))) (Or.inl rfl) ?_
      rw [UserCall.perform, SpaceCall.perform, ProcessCall.perform, creates]
      rfl
    refine afterCreate.call (.kernel (.process (.start 1))) trivial ?_
    rw [UserCall.perform, SpaceCall.perform, ProcessCall.perform, starts]
    rfl

end Demo

section Kmain

variable {bootEarlyConsole bootServices : Memory → Memory}
variable {mem : Memory} {pageDirectory magic : Nat} {mbi : MultibootInfo}

theorem bootModulesFromMbi_eq
    {state : KernelState}
    (none : state.modules = []) :
    bootModulesFromMbi mbi state =
      some ((), { state with modules := bootModules mbi }) := by
  rw [bootModulesFromMbi, bootModules]
  split
  · rfl
  · rw [← none]

/-- The allocators and the mappings of the kernel are those of the boot region. -/
theorem bootMmInit_eq
    {state : KernelState}
    (bss : state.buddySys = Pmm.bss) :
    bootMmInit state = some ((), ((state.withBuddySys heapSys).withTempMgr
      tempMappingInit).withMem (heapInit state.mem)) := by
  have boot : Pmm.pmmInit state.buddySys 0x01000000 0x02000000 =
      Kmalloc.bootSys := by
    rw [bss, Kmalloc.bootSys]
  have taken : (Kmalloc.kmallocInit Kmalloc.bootSys state.mem).2 = heapSys := by
    rw [Kmalloc.kmallocInit, heapSys]
  rw [bootMmInit]
  simp only [boot, taken, heapInit]

/-- The memory when `boot_user_demo` is called. -/
def bootedMem
    (bootEarlyConsole bootServices : Memory → Memory)
    (mem : Memory) (pageDirectory : Nat) : Memory :=
  bootServices (heapInit (bootEarlyConsole (loaderTables mem pageDirectory)))

/-- With the magic number of a boot loader `kmain` comes to the demo. -/
theorem kmain_known
    (known : magic = 0x2BADB002) :
    kmain bootEarlyConsole bootServices magic mbi
        (loadedKernel mem pageDirectory) =
      (bootUserDemo >>= fun started => match started with
        | some frame => pure (.userMode frame)
        | none => pure .idle)
        (bootedKernel mem pageDirectory (bootModules mbi)
          (bootedMem bootEarlyConsole bootServices mem pageDirectory)) := by
  have accepted : ¬ (!bootMultibootOk magic) = true := by
    rw [known]
    decide
  have console : bootWrites bootEarlyConsole (loadedKernel mem pageDirectory) =
      some ((), (loadedKernel mem pageDirectory).withMem
        (bootEarlyConsole (loaderTables mem pageDirectory))) := rfl
  rw [kmain, bind_of_eq console, if_neg accepted,
    bind_of_eq (bootMmInit_eq rfl)]
  refine (bind_of_eq rfl).trans
    ((bind_of_eq (bootModulesFromMbi_eq rfl)).trans ((bind_of_eq rfl).trans ?_))
  refine congrArg (bootUserDemo >>= _) ?_
  -- the two states have the same fields
  rw [bootedKernel, bootedMem]
  simp only [KernelState.withMem, KernelState.withBuddySys,
    KernelState.withTempMgr, loadedKernel, bootKernel]

end Kmain

/-- A boot loader that gives the kernel two modules. -/
def demoMultiboot : MultibootInfo where
  flags := 8
  mods := demoModules

/-- A character on the screen. -/
def demoConsole (mem : Memory) : Memory :=
  Function.update mem 0xB8000 0x4D

theorem writesElsewhere_demoConsole :
    WritesElsewhere 0x110000 (bootModules demoMultiboot) demoConsole := by
  have modules : bootModules demoMultiboot =
      [⟨cstr "hello", 0x200000, 0x10⟩, ⟨cstr "file_test", 0x201000, 0x20⟩] :=
    rfl
  have outside : ∀ first count, 0xB8000 < first → ∀ mem : Memory,
      Agree first count (demoConsole mem) mem := by
    rintro first count behind mem addr ⟨above, _⟩
    exact Function.update_of_ne (by omega) _ _
  refine ⟨outside _ _ (by norm_num), fun module member => ?_⟩
  rw [modules] at member
  simp only [List.mem_cons, List.not_mem_nil, or_false] at member
  rcases member with rfl | rfl
  · exact outside _ _ (by norm_num)
  · exact outside _ _ (by norm_num)

end MatrixOS
