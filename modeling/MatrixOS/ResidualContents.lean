import MatrixOS.SpaceRuns

namespace MatrixOS

open ByteMemory Paging StateOption

/-!
# What is left in the pages of a process

`vmm_load_user_program` clears the two page tables, but not the two pages it
maps for the process.  Two creations that differ in nothing but what is in the
free pages are compared.  What the allocator itself writes into a page until
it hands it out is part of the memories that are compared, and is the same in
both.
-/

/-- What user code of a process reads, where it may read. -/
def userByte (state : KernelState) (slot virtualAddr : Nat) : Option UInt8 :=
  match translate state.mem (state.processes slot).pageDirectory virtualAddr with
  | some place =>
      if place.userAccessible then some (state.mem place.addr) else none
  | none => none

/-- The numbers of the virtual pages of code and stack. -/
def userPages : List Nat :=
  [0, 0x3FE * 1024 + 0x3FF]

/-- Two processes read the same in their code pages and stack pages. -/
def SameUserMemory (slot : Nat) (left right : KernelState) : Prop :=
  ∀ virtualAddr, virtualAddr / pageSize ∈ userPages →
    userByte left slot virtualAddr = userByte right slot virtualAddr

/-- Two memories that differ in the free pages at most. -/
def SameButFree
    (buddySys : Pmm.BuddySystem) (left right : Memory) : Prop :=
  ∀ addr, addr / pageSize ∉ buddySys.freePages → left addr = right addr

/--
The second and the third page that would be handed out have the same contents,
the second one from `size` on.
-/
structure SameResidue
    (buddySys : Pmm.BuddySystem) (size : Nat) (left right : Memory) : Prop where
  code : ∀ offset < pageSize, size ≤ offset →
    left (handedOut buddySys 1 + offset) = right (handedOut buddySys 1 + offset)
  stack : ∀ offset < pageSize,
    left (handedOut buddySys 2 + offset) = right (handedOut buddySys 2 + offset)

section Creation

variable {state after : KernelState} {kernelDir windowTable slot : Nat}
variable {name : List UInt8} {module : ModuleInfo}

/-- What the new process reads in its two pages. -/
structure FirstContents
    (before after : KernelState) (slot : Nat) (module : ModuleInfo) : Prop where
  code : ∀ virtualAddr < pageSize, userByte after slot virtualAddr =
    some (if virtualAddr < module.size
      then before.mem (module.start + virtualAddr)
      else before.mem (handedOut before.buddySys 1 + virtualAddr))
  stack : ∀ virtualAddr, virtualAddr / pageSize = 0x3FE * 1024 + 0x3FF →
    userByte after slot virtualAddr =
      some (before.mem
        (handedOut before.buddySys 2 + virtualAddr % pageSize))

theorem processCreateFromModule_contents
    {pid : Nat}
    (ready : MemoryReady state kernelDir windowTable)
    (found :
      state.modules.find? (fun module => module.name = name) = some module)
    (unused : findUnusedSlot state.processes = some slot)
    (reserved : Reserved state kernelDir windowTable module.start)
    (inPage : module.size ≤ pageSize)
    (created : processCreateFromModule name state = some (pid, after))
    (isPid : pid ≠ 0) :
    FirstContents state after slot module := by
  have moduleReady : ∀ other,
      state.modules.find? (fun module => module.name = name) = some other →
      ModuleReady state kernelDir windowTable [] other := by
    intro other foundOther
    obtain rfl := Option.some.inj (found.symm.trans foundOther)
    exact ⟨reserved, by simp, fun long => absurd long (by omega)⟩
  rcases processCreateFromModule_outcome ready moduleReady _ _ created with
    ⟨other, otherSlot, frames, _, _, foundOther, unusedOther, _, steps⟩ |
      ⟨zero, _⟩
  swap
  · exact absurd zero isPid
  obtain rfl := Option.some.inj (found.symm.trans foundOther)
  obtain rfl := Option.some.inj (unused.symm.trans unusedOther)
  have framesEq := steps.allocations.1
  have codeFrame : frames.code = handedOut state.buddySys 1 := by
    rw [framesEq]
    rfl
  have stackFrame : frames.stack = handedOut state.buddySys 2 := by
    rw [framesEq]
    rfl
  have entries := steps.entries ready
  have valid := steps.loaded.valid
  obtain ⟨code, stack⟩ := steps.pages ready reserved inPage
  have directory : (after.processes slot).pageDirectory = frames.dir := by
    rw [(steps.entered unused).processes, Function.update_self]
    rfl
  refine ⟨fun virtualAddr below => ?_, fun virtualAddr onStack => ?_⟩
  · rw [userByte, directory, entries.translate_code valid below,
      ← codeFrame, ← code virtualAddr below]
    rfl
  · rw [userByte, directory, entries.translate_stack valid onStack,
      ← stackFrame, ← stack _ ⟨by omega, Nat.add_lt_add_left
        (Nat.mod_lt _ (by decide)) _⟩]
    rfl

/-- A page in use is the same in both memories. -/
theorem SameButFree.agree
    {buddySys : Pmm.BuddySystem} {left right : Memory} {frame : Nat}
    (same : SameButFree buddySys left right)
    (aligned : 2 ^ 12 ∣ frame)
    (held : Held buddySys frame) :
    Agree frame pageSize left right := by
  rintro addr ⟨above, below⟩
  refine same addr ?_
  have inFrame : addr / pageSize = frame / pageSize := by
    simp only [pageSize] at below ⊢
    omega
  rw [inFrame]
  exact held

theorem MemoryReady.withMem
    {mem : Memory}
    (ready : MemoryReady state kernelDir windowTable)
    (same : SameButFree state.buddySys mem state.mem) :
    MemoryReady (state.withMem mem) kernelDir windowTable where
  windows := ready.windows.withMem
    (same.agree ready.windows.dirAligned ready.dirHeld)
    (same.agree ready.windows.kernelDir_aligned ready.kernelDirHeld)
    (same.agree ready.windows.windowTable_aligned ready.windowTableHeld)
  allocator := ready.allocator
  dirHeld := ready.dirHeld
  kernelDirHeld := ready.kernelDirHeld
  windowTableHeld := ready.windowTableHeld

theorem Reserved.withMem
    {frame : Nat} {mem : Memory}
    (reserved : Reserved state kernelDir windowTable frame) :
    Reserved (state.withMem mem) kernelDir windowTable frame :=
  ⟨reserved.toClear, reserved.inRange, reserved.held⟩

/-- Two first contents are the same if the residues are, and only then. -/
theorem FirstContents.same_iff
    {mem : Memory} {other : KernelState}
    (first : FirstContents state after slot module)
    (second : FirstContents (state.withMem mem) other slot module)
    (same : Agree module.start module.size mem state.mem) :
    SameUserMemory slot after other ↔
      SameResidue state.buddySys module.size state.mem mem := by
  have sys : (state.withMem mem).buddySys = state.buddySys := rfl
  constructor
  · intro equal
    refine ⟨fun offset below past => ?_, fun offset below => ?_⟩
    · have inPage : offset / pageSize ∈ userPages := by
        rw [Nat.div_eq_of_lt below]
        decide
      have bytes := equal offset inPage
      rw [first.code offset below, second.code offset below,
        if_neg (by omega), if_neg (by omega)] at bytes
      exact Option.some.inj bytes
    · have page : ((0x3FE * 1024 + 0x3FF) * pageSize + offset) / pageSize =
          0x3FE * 1024 + 0x3FF := by
        simp only [pageSize] at below ⊢
        omega
      have rest : ((0x3FE * 1024 + 0x3FF) * pageSize + offset) % pageSize =
          offset := by
        simp only [pageSize] at below ⊢
        omega
      have bytes := equal _ (by rw [page]; decide)
      rw [first.stack _ page, second.stack _ page, rest] at bytes
      exact Option.some.inj bytes
  · rintro ⟨code, stack⟩ virtualAddr member
    simp only [userPages, List.mem_cons, List.not_mem_nil, or_false] at member
    rcases member with onCode | onStack
    · have below : virtualAddr < pageSize :=
        (Nat.div_eq_zero_iff_lt (by decide)).mp onCode
      rw [first.code _ below, second.code _ below]
      by_cases inImage : virtualAddr < module.size
      · rw [if_pos inImage, if_pos inImage,
          KernelState.withMem_mem, same _ ⟨by omega, by omega⟩]
      · rw [if_neg inImage, if_neg inImage, sys, KernelState.withMem_mem,
          code _ below (by omega)]
    · rw [first.stack _ onStack, second.stack _ onStack, sys,
        KernelState.withMem_mem, stack _ (Nat.mod_lt _ (by decide))]

end Creation

section Runs

variable {initial : KernelState} {bootDir windowTable slot : Nat}
variable {reserved : List Pmm.PageBlock} {pool : Set Nat} {run : SpaceRun}

/--
Two creations from memories that differ in the free pages: the processes read
the same if nothing else was left in the two pages that they get.
-/
theorem sameUserMemory_iff
    {name : List UInt8} {module : ModuleInfo} {mem : Memory}
    {pid otherPid : Nat} {next other : KernelState}
    (start : SpaceInitial initial bootDir windowTable reserved pool)
    (reached : SpaceReachable (SpaceCall.Permitted bootDir) initial run)
    (allowed : (SpaceCall.process (.create name)).Permitted bootDir run)
    (found :
      run.state.modules.find? (fun module => module.name = name) = some module)
    (inPage : module.size ≤ pageSize)
    (unused : findUnusedSlot run.state.processes = some slot)
    (same : SameButFree run.state.buddySys mem run.state.mem)
    (created : processCreateFromModule name run.state = some (pid, next))
    (isPid : pid ≠ 0)
    (otherCreated : processCreateFromModule name (run.state.withMem mem) =
      some (otherPid, other))
    (isOtherPid : otherPid ≠ 0) :
    SameUserMemory slot next other ↔
      SameResidue run.state.buddySys module.size run.state.mem mem := by
  obtain ⟨frames, lost, invariant⟩ := reached.right start
  obtain ⟨tables, modules⟩ := invariant.modulesReady start allowed name
  have ready := invariant.memoryReady start allowed
  have moduleReserved := (modules module found).2.reserved
  have first := processCreateFromModule_contents ready found unused
    moduleReserved inPage created isPid
  have second := processCreateFromModule_contents (ready.withMem same) found
    unused moduleReserved.withMem inPage otherCreated isOtherPid
  refine first.same_iff second ?_
  exact (same.agree moduleReserved.aligned moduleReserved.held).mono
    (Nat.le_refl _) (by omega)

end Runs

/-! ## A byte in the stack page -/

/-- The memory after boot, with another last byte in the stack page to come. -/
def otherMemory : Memory :=
  Function.update demoKernel.mem (handedOut Kmalloc.bootSys 2 + 4095)
    (demoKernel.mem (handedOut Kmalloc.bootSys 2 + 4095) + 1)

theorem otherMemory_stack :
    2 ^ 12 ∣ handedOut Kmalloc.bootSys 2 ∧
      handedOut Kmalloc.bootSys 2 / pageSize ∈ Kmalloc.bootSys.freePages := by
  obtain ⟨pages, enough, allFree⟩ := bootSys_freeAtLeast
  exact handedOut_free bootSys_ready ⟨pages, by omega, allFree⟩

theorem otherMemory_same :
    SameButFree demoKernel.buddySys otherMemory demoKernel.mem := by
  obtain ⟨aligned, free⟩ := otherMemory_stack
  intro addr notFree
  refine Function.update_of_ne ?_ _ _
  rintro rfl
  refine notFree ?_
  have inFrame : (handedOut Kmalloc.bootSys 2 + 4095) / pageSize =
      handedOut Kmalloc.bootSys 2 / pageSize := by
    simp only [pageSize]
    omega
  rw [inFrame]
  exact free

/-- The first 16 bytes of the free blocks are the same. -/
theorem otherMemory_nodes
    {block : Pmm.PageBlock} {offset : Nat}
    (member : block ∈ demoKernel.buddySys.freeBlocks)
    (inNode : offset < 16) :
    otherMemory (block.addr + offset) =
      demoKernel.mem (block.addr + offset) := by
  have aligned := otherMemory_stack.1
  have blockAligned := Pmm.PageBlock.page_aligned
    (spaceInitial_demoKernel.allocator.aligned block member)
  refine Function.update_of_ne ?_ _ _
  simp only [pageSize] at blockAligned
  omega

theorem otherMemory_not_sameResidue :
    ¬ SameResidue demoKernel.buddySys demoModule.size demoKernel.mem
      otherMemory := by
  intro same
  have bytes := same.stack 4095 (by decide)
  have changed : otherMemory (handedOut demoKernel.buddySys 2 + 4095) =
      demoKernel.mem (handedOut demoKernel.buddySys 2 + 4095) + 1 :=
    Function.update_self ..
  rw [changed] at bytes
  generalize demoKernel.mem (handedOut demoKernel.buddySys 2 + 4095) = byte
    at bytes
  have number := congrArg UInt8.toNat bytes
  rw [UInt8.toNat_add, show UInt8.toNat 1 = 1 from rfl] at number
  omega

theorem otherMemory_created :
    ∃ next other,
      processCreateFromModule [0x61] demoKernel = some (1, next) ∧
      processCreateFromModule [0x61] (demoKernel.withMem otherMemory) =
        some (1, other) := by
  obtain ⟨next, _, created, _⟩ := demoKernel_created
  have reserved := bootReserved [demoModule] 0x200000 (by omega) (by omega)
    (by omega)
  have ready := (bootReady [demoModule]).withMem otherMemory_same
  have enough : FreeAtLeast (demoKernel.withMem otherMemory).buddySys
      (4090 + 6) :=
    bootFree [demoModule]
  obtain ⟨other, _, otherCreated, _⟩ :=
    @processCreateFromModule_created _ _ _ 0 demoModule [0x61] ready rfl rfl
      reserved.withMem (by decide) Nat.one_ne_zero _ enough
  exact ⟨next, other, created, otherCreated⟩

theorem sameUserMemory_iff_demoKernel :
    ∃ next other,
      processCreateFromModule [0x61] demoKernel = some (1, next) ∧
      processCreateFromModule [0x61] (demoKernel.withMem otherMemory) =
        some (1, other) ∧
      (SameUserMemory 0 next other ↔
        SameResidue demoKernel.buddySys 16 demoKernel.mem otherMemory) := by
  obtain ⟨next, other, created, otherCreated⟩ := otherMemory_created
  have found : demoKernel.modules.find? (fun module => module.name = [0x61]) =
      some demoModule := rfl
  exact ⟨next, other, created, otherCreated,
    sameUserMemory_iff spaceInitial_demoKernel .init (Or.inl rfl) found
      (by decide) rfl otherMemory_same created Nat.one_ne_zero otherCreated
      Nat.one_ne_zero⟩

/-- The new process reads what somebody has left in its stack page. -/
theorem not_sameUserMemory :
    ∃ next other,
      SameButFree demoKernel.buddySys otherMemory demoKernel.mem ∧
      (∀ block ∈ demoKernel.buddySys.freeBlocks, ∀ offset < 16,
        otherMemory (block.addr + offset) =
          demoKernel.mem (block.addr + offset)) ∧
      processCreateFromModule [0x61] demoKernel = some (1, next) ∧
      processCreateFromModule [0x61] (demoKernel.withMem otherMemory) =
        some (1, other) ∧
      ¬ SameUserMemory 0 next other := by
  obtain ⟨next, other, created, otherCreated⟩ := otherMemory_created
  have reserved := bootReserved [demoModule] 0x200000 (by omega) (by omega)
    (by omega)
  have ready := bootReady [demoModule]
  have first : FirstContents demoKernel next 0 demoModule :=
    processCreateFromModule_contents ready rfl rfl reserved (by decide) created
      Nat.one_ne_zero
  have second : FirstContents (demoKernel.withMem otherMemory) other 0
      demoModule :=
    processCreateFromModule_contents (ready.withMem otherMemory_same) rfl rfl
      reserved.withMem (by decide) otherCreated Nat.one_ne_zero
  have image : Agree demoModule.start demoModule.size otherMemory
      demoKernel.mem :=
    (otherMemory_same.agree reserved.aligned reserved.held).mono
      (Nat.le_refl _) (by decide)
  exact ⟨next, other, otherMemory_same, fun _ member _ inNode =>
    otherMemory_nodes member inNode, created, otherCreated, fun equal =>
      otherMemory_not_sameResidue ((first.same_iff second image).mp equal)⟩

end MatrixOS
