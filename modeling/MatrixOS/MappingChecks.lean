import MatrixOS.ProcessCreation
import MatrixOS.TempBalance

namespace MatrixOS

open ByteMemory Paging StateOption

/-!
# Mappings that are never refused

The functions that map pages do not check the address they get.  Here the
mapping call is a parameter of them, so that a checked call can take its place:
entered with all slots free, they behave the same whatever the check does.
-/

/-! ## The functions with the mapping call as a parameter -/

/-- `temp_map_page`, with the call nested in `map_page` as a parameter. -/
def tempMapPageWith
    (nested : Nat → Kernel Nat) (physicalAddr : Nat) : Kernel Nat := do
  if physicalAddr &&& 0xFFF ≠ 0 then
    return 0
  acquireTempLock
  match findSlot (← get).tempMgr.availableSlots with
  | none =>
      releaseTempLock
      return 0
  | some slot =>
      let virtualAddr := tempMappingAddr - slot * pageSize
      mapPage nested virtualAddr physicalAddr 0x03
      setAvailableSlots
        ((← get).tempMgr.availableSlots &&& not32 (1 <<< slot))
      setRefCount slot (wrap32 ((← get).tempMgr.refCount slot + 1))
      releaseTempLock
      return virtualAddr

/-- `vmm_create_user_space`. -/
def vmmCreateUserSpaceWith (tempMap : Nat → Kernel Nat) : Kernel Nat := do
  let userPageDir ← pmmAllocPages 0
  if userPageDir = 0 then
    return 0
  let tempMapping ← tempMap userPageDir
  memset virtualAccess tempMapping 0 pageSize
  copyKernelEntries tempMapping (1024 - 768)
  tempUnmapPage tempMapping
  return userPageDir

/-- One mapping of `vmm_load_user_program`. -/
def setMappingWith
    (tempMap : Nat → Kernel Nat)
    (pageDirPtr dirIndex pageTable tabIndex page : Nat) : Kernel Unit := do
  store32 (pageDirPtr + dirIndex * 4) (pageTable ||| 0x07)
  let tempTable ← tempMap pageTable
  memset virtualAccess tempTable 0 pageSize
  store32 (tempTable + tabIndex * 4) (page ||| 0x07)
  tempUnmapPage tempTable

/-- The copy of the binary at the end of `vmm_load_user_program`. -/
def copyUserProgramWith
    (tempMap : Nat → Kernel Nat)
    (binaryPhys userCodePage size : Nat) : Kernel Unit := do
  let tempSrc ← tempMap binaryPhys
  let tempDst ← tempMap userCodePage
  memcpy virtualAccess tempDst tempSrc size
  tempUnmapPage tempSrc
  tempUnmapPage tempDst

/-- `vmm_load_user_program`. -/
def vmmLoadUserProgramWith
    (tempMap : Nat → Kernel Nat)
    (pageDir binaryPhys size : Nat) : Kernel Nat := do
  let userCodePage ← pmmAllocPages 0
  if userCodePage = 0 then
    return 0
  let userStackPage ← pmmAllocPages 0
  if userStackPage = 0 then
    pmmFreePages userCodePage 0
    return 0
  let tempPageDir ← tempMap pageDir
  let codePageTable ← pmmAllocPages 0
  if codePageTable = 0 then
    tempUnmapPage tempPageDir
    pmmFreePages userCodePage 0
    pmmFreePages userStackPage 0
    return 0
  let stackPageTable ← pmmAllocPages 0
  if stackPageTable = 0 then
    tempUnmapPage tempPageDir
    pmmFreePages userCodePage 0
    pmmFreePages userStackPage 0
    pmmFreePages codePageTable 0
    return 0
  setMappingWith tempMap tempPageDir 0 codePageTable 0 userCodePage
  setMappingWith tempMap tempPageDir 0x3FE stackPageTable 0x3FF userStackPage
  tempUnmapPage tempPageDir
  copyUserProgramWith tempMap binaryPhys userCodePage size
  return 1

/-- The verification of the page tables. -/
def verifyPageTablesWith
    (tempMap : Nat → Kernel Nat) (userPageDir : Nat) : Kernel Unit := do
  let tempPageDir ← tempMap userPageDir
  let dirEntry ← load32 (tempPageDir + 0 * 4)
  if dirEntry &&& 0x1 ≠ 0 then
    let tempTable ← tempMap (dirEntry &&& 0xFFFFF000)
    let tableEntry ← load32 (tempTable + 0 * 4)
    if tableEntry &&& 0x1 ≠ 0 then
      let userPagePhys := tableEntry &&& 0xFFFFF000
      if userPagePhys = 0x2101000 then
        let tempUserPage ← tempMap userPagePhys
        dumpUserCode tempUserPage 16
        tempUnmapPage tempUserPage
    tempUnmapPage tempTable
  tempUnmapPage tempPageDir

/-- `process_create_from_module`. -/
def processCreateFromModuleWith
    (tempMap : Nat → Kernel Nat) (moduleName : List UInt8) : Kernel Nat := do
  match ← loaderFindModule moduleName with
  | none => return 0
  | some module =>
      match findUnusedSlot (← get).processes with
      | none => return 0
      | some slot =>
          let userPageDir ← vmmCreateUserSpaceWith tempMap
          if userPageDir = 0 then
            return 0
          let loaded ← vmmLoadUserProgramWith tempMap
            userPageDir module.start module.size
          if loaded = 0 then
            vmmDestroyUserSpace userPageDir
            return 0
          let kernelStack ← pmmAllocPages 0
          if kernelStack = 0 then
            vmmDestroyUserSpace userPageDir
            return 0
          let pid ← enterProcess slot moduleName userPageDir kernelStack
          verifyPageTablesWith tempMap userPageDir
          return pid

/-- The calls the mappings are balanced over. -/
inductive SpaceFunction where
  | createUserSpace
  | loadUserProgram (pageDir binaryPhys size : Nat)
  | createFromModule (moduleName : List UInt8)
  deriving Repr, DecidableEq

namespace SpaceFunction

def run : SpaceFunction → Kernel Nat
  | createUserSpace => vmmCreateUserSpace
  | loadUserProgram pageDir binaryPhys size =>
      vmmLoadUserProgram pageDir binaryPhys size
  | createFromModule moduleName => processCreateFromModule moduleName

def runWith (tempMap : Nat → Kernel Nat) : SpaceFunction → Kernel Nat
  | createUserSpace => vmmCreateUserSpaceWith tempMap
  | loadUserProgram pageDir binaryPhys size =>
      vmmLoadUserProgramWith tempMap pageDir binaryPhys size
  | createFromModule moduleName =>
      processCreateFromModuleWith tempMap moduleName

/-- The directory starts a page, and so do the modules. -/
def Aligned (state : KernelState) : SpaceFunction → Prop
  | createUserSpace => True
  | loadUserProgram pageDir binaryPhys _ =>
      2 ^ 12 ∣ pageDir ∧ 2 ^ 12 ∣ binaryPhys
  | createFromModule _ => ∀ module ∈ state.modules, 2 ^ 12 ∣ module.start

end SpaceFunction

theorem tempMapPageWith_nested (depth physicalAddr : Nat) :
    tempMapPageWith (tempMapPageNested depth) physicalAddr =
      tempMapPageNested (depth + 1) physicalAddr :=
  rfl

/-- With the real call these are the functions of the kernel. -/
theorem SpaceFunction.runWith_tempMapPage (call : SpaceFunction) :
    call.runWith tempMapPage = call.run := by
  cases call <;> rfl

/-! ## Calls that are not refused -/

/-- A mapping call whose callers go another way when it returns 0. -/
def orOnZero
    (onZero tempMap : Nat → Kernel Nat) (physicalAddr : Nat) : Kernel Nat := do
  let virtualAddr ← tempMap physicalAddr
  if virtualAddr = 0 then
    onZero physicalAddr
  else
    return virtualAddr

/-- `temp_map_page` with both of its calls checked, the nested one, too. -/
def checkedMap (onZero : Nat → Kernel Nat) : Nat → Kernel Nat :=
  orOnZero onZero (tempMapPageWith (orOnZero onZero (tempMapPageNested 1)))

/-- These mappings are the ones in use, and the allocator works. -/
structure InHand (state : KernelState) (held : List Nat) : Prop where
  occupied : Occupied state.tempMgr (fun _ => false) held
  allocator : AllocatorReady state.buddySys

/-- With these mappings in hand, no check makes a difference. -/
def Agrees
    {Value : Type} (held : List Nat) (checked program : Kernel Value) : Prop :=
  ∀ state, InHand state held → checked state = program state

/-- The allocator stays in a state its own functions lead to. -/
def AllocatorKept (before after : KernelState) : Prop :=
  AllocatorReady before.buddySys → AllocatorReady after.buddySys

instance : IsPreorder KernelState AllocatorKept where
  refl := fun _ ready => ready
  trans := fun _ _ _ first second ready => second (first ready)

theorem managerKeeps_allocator : ManagerKeeps AllocatorKept where
  mem := fun _ _ ready => ready
  tempMgr := fun _ _ ready => ready
  alloc := fun _ ready => (pmmAllocPages_takes rfl).ready ready

theorem Holding.allocatorKept
    {before after : KernelState} {frames : List Nat}
    (holding : Holding before after frames) :
    AllocatorKept before after := by
  obtain ⟨others, takes⟩ := holding.takes
  exact takes.ready

theorem vmmCreateUserSpace_allocator :
    Preserves AllocatorKept vmmCreateUserSpace :=
  managerKeeps_allocator.of_vmmCreateUserSpace

theorem vmmLoadUserProgram_allocator (pageDir binaryPhys size : Nat) :
    Preserves AllocatorKept (vmmLoadUserProgram pageDir binaryPhys size) := by
  intro state
  refine (Holding.refl.vmmLoadUserProgram pageDir binaryPhys size).mono ?_
  rintro _ _ (⟨_, none⟩ | ⟨_, _, _, _, _, four⟩)
  · exact none.allocatorKept
  · exact four.allocatorKept

theorem pmmAllocPages_sameMgr (order : Nat) :
    Preserves (fun before after => after.tempMgr = before.tempMgr)
      (pmmAllocPages order) :=
  .of_some fun _ => rfl

/-- A page that is handed out starts a page. -/
theorem pmmAllocPages_aligned
    {state : KernelState}
    (ready : AllocatorReady state.buddySys) :
    Ensures (pmmAllocPages 0) state fun frame _ => 2 ^ 12 ∣ frame := by
  rcases run : Pmm.pmmAllocPages state.buddySys 0 with ⟨frame, after⟩
  refine Ensures.of_eq (pmmAllocPages_eq run) ?_
  by_cases failed : frame = 0
  · exact failed ▸ Nat.dvd_zero _
  · exact (ready.allocated run failed).1.aligned

/-- The call nested in `map_page` waits for the lock that its caller holds. -/
theorem tempMapPageNested_locked
    {state : KernelState}
    (locked : state.tempMgr.lock = true)
    {physicalAddr : Nat}
    (aligned : 2 ^ 12 ∣ physicalAddr)
    (depth : Nat) :
    tempMapPageNested depth physicalAddr state = none := by
  cases depth with
  | zero =>
      rfl
  | succ depth =>
      have lowBits := pageOffset_eq_zero_iff.mpr aligned
      have stuck : acquireTempLock state = none := by
        rw [acquireTempLock, if_pos locked]
      rw [tempMapPageNested, if_neg (not_not.mpr lowBits)]
      exact bind_of_none stuck

theorem mapPage_checked
    (onZero : Nat → Kernel Nat)
    (state : KernelState)
    (locked : state.tempMgr.lock = true)
    (ready : AllocatorReady state.buddySys)
    (virtualAddr physicalAddr flags : Nat) :
    mapPage (orOnZero onZero (tempMapPageNested 1))
        virtualAddr physicalAddr flags state =
      mapPage (tempMapPageNested 1) virtualAddr physicalAddr flags state := by
  rw [mapPage, mapPage]
  refine bind_congr rfl fun entry next read => ?_
  obtain rfl : state = next := @load32_preserves Eq _ _ state _ _ read
  split
  · refine bind_congr rfl fun page next allocated => ?_
    have aligned := pmmAllocPages_aligned ready _ _ allocated
    have same := pmmAllocPages_sameMgr 0 state _ _ allocated
    have stuck := tempMapPageNested_locked (same ▸ locked) aligned 1
    exact (bind_of_none (bind_of_none stuck)).trans (bind_of_none stuck).symm
  · rfl

/-- While a slot is free, no check of a page's mapping makes a difference. -/
theorem InHand.checkedMap
    {state : KernelState} {held : List Nat}
    (inHand : InHand state held)
    (few : held.length < tempMappingCount)
    {physicalAddr : Nat}
    (aligned : 2 ^ 12 ∣ physicalAddr)
    (onZero : Nat → Kernel Nat) :
    MatrixOS.checkedMap onZero physicalAddr state =
      tempMapPage physicalAddr state := by
  have slots := inHand.occupied.slots
  have same : tempMapPageWith (orOnZero onZero (tempMapPageNested 1))
      physicalAddr state = tempMapPage physicalAddr state := by
    rw [tempMapPage, ← tempMapPageWith_nested, tempMapPageWith, tempMapPageWith]
    split
    · rfl
    refine bind_congr rfl fun _ next acquired => ?_
    obtain ⟨-, rfl⟩ := Prod.mk.inj
      (Option.some.inj (slots.acquire.symm.trans acquired))
    refine bind_congr rfl fun current next read => ?_
    obtain ⟨-, rfl⟩ := Prod.mk.inj (Option.some.inj read)
    cases findSlot current.tempMgr.availableSlots with
    | none =>
        rfl
    | some slot =>
        have nested := mapPage_checked onZero
          (state.withTempMgr { state.tempMgr with lock := true }) rfl
          inHand.allocator
        exact bind_congr (nested _ _ _) fun _ _ _ => rfl
  rw [MatrixOS.checkedMap, orOnZero, ← bind_pure (tempMapPage physicalAddr)]
  refine bind_congr same fun virtualAddr next mapped => ?_
  obtain ⟨_, _, refused⟩ := tempMapPage_slots slots physicalAddr _ _ mapped
  have nonzero : virtualAddr ≠ 0 := by
    intro zero
    obtain ⟨slot, inTable, free⟩ := exists_unmarked few
    rw [refused zero aligned slot inTable] at free
    cases free
  rw [if_neg nonzero]

namespace Agrees

variable {Value Next : Type} {held : List Nat} {virtualAddr : Nat}
variable {checked program : Kernel Value}
variable {checkedRest rest : Value → Kernel Next}

theorem refl : Agrees held program program :=
  fun _ _ => rfl

/-- A part that gives back what it takes. -/
theorem step
    (first : Agrees held checked program)
    (balanced : Balanced program)
    (allocator : Preserves AllocatorKept program)
    (after : ∀ value, Agrees held (checkedRest value) (rest value)) :
    Agrees held (checked >>= checkedRest) (program >>= rest) := by
  intro state inHand
  refine bind_congr (first state inHand) fun value next run => ?_
  have occupied := inHand.occupied
  have kept := (balanced state value next run _ occupied.slots).slots
  exact after value next ⟨⟨occupied.free, kept⟩,
    allocator state value next run inHand.allocator⟩

theorem alloc
    {checkedRest rest : Nat → Kernel Next}
    (after : ∀ frame, 2 ^ 12 ∣ frame →
      Agrees held (checkedRest frame) (rest frame)) :
    Agrees held (pmmAllocPages 0 >>= checkedRest)
      (pmmAllocPages 0 >>= rest) := by
  intro state inHand
  refine bind_congr rfl fun frame next run => ?_
  have aligned := pmmAllocPages_aligned inHand.allocator _ _ run
  have ready := managerKeeps_allocator.of_pmmAllocPages state _ _ run
    inHand.allocator
  obtain ⟨-, rfl⟩ := Prod.mk.inj (Option.some.inj run)
  exact after frame aligned _ ⟨inHand.occupied, ready⟩

theorem map
    {checkedRest rest : Nat → Kernel Next}
    {onZero : Nat → Kernel Nat} {physicalAddr : Nat}
    (aligned : 2 ^ 12 ∣ physicalAddr)
    (few : held.length < tempMappingCount)
    (after : ∀ virtualAddr, Agrees (virtualAddr :: held)
      (checkedRest virtualAddr) (rest virtualAddr)) :
    Agrees held (checkedMap onZero physicalAddr >>= checkedRest)
      (tempMapPage physicalAddr >>= rest) := by
  intro state inHand
  refine bind_congr (inHand.checkedMap few aligned onZero) ?_
  intro virtualAddr next run
  have occupied := inHand.occupied.map physicalAddr _ _ run
  exact after virtualAddr next ⟨occupied,
    managerKeeps_allocator.of_tempMapPage _ state _ _ run inHand.allocator⟩

theorem unmap
    {checkedRest rest : Unit → Kernel Next}
    (after : Agrees held (checkedRest ()) (rest ())) :
    Agrees (virtualAddr :: held) (tempUnmapPage virtualAddr >>= checkedRest)
      (tempUnmapPage virtualAddr >>= rest) := by
  intro state inHand
  refine bind_congr rfl fun _ next run => ?_
  exact after next ⟨inHand.occupied.unmap _ _ run,
    managerKeeps_allocator.of_tempUnmapPage _ state _ _ run inHand.allocator⟩

theorem ite
    {condition : Prop} [Decidable condition]
    {checkedOther other : Kernel Value}
    (yes : Agrees held checked program)
    (no : Agrees held checkedOther other) :
    Agrees held (if condition then checked else checkedOther)
      (if condition then program else other) := by
  split
  · exact yes
  · exact no

end Agrees

section Functions

variable {held : List Nat} (onZero : Nat → Kernel Nat)

theorem vmmCreateUserSpace_agrees
    (few : held.length < tempMappingCount) :
    Agrees held (vmmCreateUserSpaceWith (checkedMap onZero))
      vmmCreateUserSpace := by
  refine .alloc fun _ aligned => .ite .refl ?_
  exact .map aligned few fun _ => .refl

theorem setMapping_agrees
    (few : held.length < tempMappingCount)
    {pageTable : Nat}
    (aligned : 2 ^ 12 ∣ pageTable)
    (pageDirPtr dirIndex tabIndex page : Nat) :
    Agrees held
      (setMappingWith (checkedMap onZero) pageDirPtr dirIndex pageTable
        tabIndex page)
      (setMapping pageDirPtr dirIndex pageTable tabIndex page) := by
  refine .step .refl (memoryKeeps_mapped.of_store32 _ _)
    (managerKeeps_allocator.of_store32 _ _) fun _ => ?_
  exact .map aligned few fun _ => .refl

theorem copyUserProgram_agrees
    (few : held.length + 1 < tempMappingCount)
    {binaryPhys userCodePage : Nat}
    (startAligned : 2 ^ 12 ∣ binaryPhys)
    (codeAligned : 2 ^ 12 ∣ userCodePage)
    (size : Nat) :
    Agrees held
      (copyUserProgramWith (checkedMap onZero) binaryPhys userCodePage size)
      (copyUserProgram binaryPhys userCodePage size) :=
  .map startAligned (Nat.lt_of_succ_lt few) fun _ =>
    .map codeAligned few fun _ => .refl

/-- At most two mappings are open at any time. -/
theorem vmmLoadUserProgram_agrees
    (few : held.length + 1 < tempMappingCount)
    {pageDir binaryPhys : Nat}
    (dirAligned : 2 ^ 12 ∣ pageDir)
    (startAligned : 2 ^ 12 ∣ binaryPhys)
    (size : Nat) :
    Agrees held
      (vmmLoadUserProgramWith (checkedMap onZero) pageDir binaryPhys size)
      (vmmLoadUserProgram pageDir binaryPhys size) := by
  have one := Nat.lt_of_succ_lt few
  refine .alloc fun code codeAligned => .ite .refl ?_
  refine .alloc fun stack _ => .ite .refl ?_
  refine .map dirAligned one fun dirPtr => ?_
  have two : (dirPtr :: held).length < tempMappingCount := few
  refine .alloc fun codeTable tableAligned => .ite .refl ?_
  refine .alloc fun stackTable stackTableAligned => .ite .refl ?_
  refine .step (setMapping_agrees onZero two tableAligned _ _ _ _)
    (setMapping_balanced _ _ _ _ _)
    (managerKeeps_allocator.of_setMapping _ _ _ _ _) fun _ => ?_
  refine .step (setMapping_agrees onZero two stackTableAligned _ _ _ _)
    (setMapping_balanced _ _ _ _ _)
    (managerKeeps_allocator.of_setMapping _ _ _ _ _) fun _ => ?_
  refine .unmap ?_
  exact .step (copyUserProgram_agrees onZero few startAligned codeAligned size)
    (copyUserProgram_balanced _ _ _)
    (managerKeeps_allocator.of_copyUserProgram _ _ _) fun _ => .refl

/-- The frame of an entry starts a page. -/
theorem and_frameMask_aligned (entry : Nat) :
    2 ^ 12 ∣ entry &&& 0xFFFFF000 := by
  refine Nat.dvd_of_mod_eq_zero ?_
  rw [Nat.and_mod_two_pow, show (0xFFFFF000 : Nat) % 2 ^ 12 = 0 from rfl,
    Nat.and_zero]

/-- At most three mappings are open at any time. -/
theorem verifyPageTables_agrees
    (few : held.length + 2 < tempMappingCount)
    {userPageDir : Nat}
    (aligned : 2 ^ 12 ∣ userPageDir) :
    Agrees held (verifyPageTablesWith (checkedMap onZero) userPageDir)
      (verifyPageTables userPageDir) := by
  refine .map aligned (by omega) fun _ => ?_
  refine .step .refl (load32_preserves _) (load32_preserves _) fun _ => ?_
  refine .ite (.map (and_frameMask_aligned _) ?_ fun _ => ?_) .refl
  · rw [List.length_cons]
    omega
  refine .step .refl (load32_preserves _) (load32_preserves _) fun _ => ?_
  refine .ite (.ite (.map (and_frameMask_aligned _) ?_ fun _ => .refl) .refl)
    .refl
  exact few

theorem vmmCreateUserSpace_aligned
    {state : KernelState}
    (ready : AllocatorReady state.buddySys) :
    Ensures vmmCreateUserSpace state fun dir _ => 2 ^ 12 ∣ dir := by
  refine (pmmAllocPages_aligned ready).bind fun dir _ aligned => ?_
  split
  · exact Ensures.pure (Nat.dvd_zero _)
  · exact Ensures.of_rest fun _ _ => Ensures.of_rest fun _ _ =>
      Ensures.of_rest fun _ _ => Ensures.of_rest fun _ _ => Ensures.pure aligned

theorem processCreateFromModule_agrees
    {state : KernelState}
    (few : held.length + 2 < tempMappingCount)
    (inHand : InHand state held)
    (modules : ∀ module ∈ state.modules, 2 ^ 12 ∣ module.start)
    (moduleName : List UInt8) :
    processCreateFromModuleWith (checkedMap onZero) moduleName state =
      processCreateFromModule moduleName state := by
  refine bind_congr rfl fun found next looked => ?_
  obtain ⟨isFound, rfl⟩ := Prod.mk.inj (Option.some.inj looked)
  cases found with
  | none =>
      rfl
  | some module =>
      have aligned := modules module (List.mem_of_find?_eq_some isFound)
      refine bind_congr rfl fun current next read => ?_
      obtain ⟨-, rfl⟩ := Prod.mk.inj (Option.some.inj read)
      cases findUnusedSlot current.processes with
      | none =>
          rfl
      | some slot =>
          refine bind_congr (vmmCreateUserSpace_agrees onZero (by omega) _
            inHand) fun dir next created => ?_
          have dirAligned :=
            vmmCreateUserSpace_aligned inHand.allocator _ _ created
          have occupied := inHand.occupied
          have still : InHand next held := ⟨⟨occupied.free,
            (vmmCreateUserSpace_balanced _ _ _ created _ occupied.slots).slots⟩,
            vmmCreateUserSpace_allocator _ _ _ created inHand.allocator⟩
          refine Agrees.ite .refl ?_ next still
          refine .step (vmmLoadUserProgram_agrees onZero (by omega) dirAligned
              aligned _) (vmmLoadUserProgram_balanced _ _ _)
            (vmmLoadUserProgram_allocator _ _ _) fun _ => .ite .refl ?_
          refine .alloc fun _ _ => .ite .refl ?_
          refine .step .refl (.of_some fun _ => Mapped.of_sameMgr rfl)
            (.of_some fun _ ready => ready) fun _ => ?_
          exact .step (verifyPageTables_agrees onZero few dirAligned)
            (verifyPageTables_balanced _)
            (managerKeeps_allocator.of_verifyPageTables _) fun _ => .refl

end Functions

/-! ## Calls that return -/

section Totality

variable {state : KernelState} {kernelDir windowTable : Nat}

/-- With enough pages or not, an image of at most a page is dealt with. -/
theorem vmmLoadUserProgram_total
    {pageDir start size : Nat}
    (ready : MemoryReady state kernelDir windowTable)
    (dirReserved : Reserved state kernelDir windowTable pageDir)
    (startReserved : Reserved state kernelDir windowTable start)
    (inPage : size ≤ pageSize) :
    Returns (vmmLoadUserProgram pageDir start size) state fun _ _ => True := by
  rcases vmmLoadUserProgram_cases start size ready dirReserved with
    ⟨frames, _, _, _, _, rfl, allocated⟩ | gaveUp
  · exact (vmmLoadUserProgram_returns ready dirReserved startReserved allocated
      inPage).mono fun _ _ _ => trivial
  · exact gaveUp.mono fun _ _ _ => trivial

/-- Creating a process of at most a page returns on every path. -/
theorem processCreateFromModule_total
    (ready : MemoryReady state kernelDir windowTable)
    (modules : ∀ module ∈ state.modules,
      Reserved state kernelDir windowTable module.start ∧
        module.size ≤ pageSize)
    (moduleName : List UInt8) :
    Returns (processCreateFromModule moduleName) state fun _ _ => True := by
  have done : ∀ {value : Nat} {last : KernelState},
      Returns (pure value : Kernel Nat) last fun _ _ => True :=
    Returns.pure trivial
  rw [processCreateFromModule]
  refine Returns.step rfl ?_
  split
  · exact done
  rename_i module found
  obtain ⟨reserved, inPage⟩ := modules module (List.mem_of_find?_eq_some found)
  refine Returns.step rfl ?_
  split
  · exact done
  obtain ⟨dir, middle, created, result⟩ := vmmCreateUserSpace_cases ready
  refine Returns.step created ?_
  rcases result with ⟨rfl, _⟩ | built
  · exact done
  rw [if_neg built.allocated.nonzero]
  obtain ⟨stillReserved, notDir⟩ := built.reserved reserved
  obtain ⟨value, last, loadRun, _⟩ := vmmLoadUserProgram_total built.ready
    (built.dirReserved ready) stillReserved inPage
  refine Returns.step loadRun ?_
  rcases vmmLoadUserProgram_ensures [] built.ready (built.dirReserved ready)
      stillReserved notDir (by simp) (fun long => absurd long (by omega)) _ _
      loadRun with ⟨rfl, frames, rfl, loaded⟩ | ⟨rfl, _⟩
  · rw [if_neg Nat.one_ne_zero]
    rcases (loaded.takes.ready built.ready.allocator).alloc_cases with
      ⟨kernelStack, sys, taken, _⟩ | failed
    · refine Returns.step (pmmAllocPages_eq taken.run) ?_
      rw [if_neg taken.nonzero]
      refine Returns.step rfl ?_
      have entered := fun slot pcb pid =>
        (loaded.windows.withBuddySys sys).enter slot pcb pid
      exact ((entered _ _ _).verifyPageTables built.allocated.aligned
        built.allocated.inRange).bind fun _ _ _ => done
    · refine Returns.step (pmmAllocPages_eq failed) ?_
      exact Returns.step (vmmDestroyUserSpace_eq _) done
  · exact Returns.step (vmmDestroyUserSpace_eq _) done

/-- The pages the call works on are in use, and the images fit in a page. -/
def SpaceFunction.Loadable
    (state : KernelState) (kernelDir windowTable : Nat) :
    SpaceFunction → Prop
  | createUserSpace => True
  | loadUserProgram pageDir binaryPhys size =>
      Reserved state kernelDir windowTable pageDir ∧
        Reserved state kernelDir windowTable binaryPhys ∧ size ≤ pageSize
  | createFromModule _ => ∀ module ∈ state.modules,
      Reserved state kernelDir windowTable module.start ∧
        module.size ≤ pageSize

theorem SpaceFunction.total
    (ready : MemoryReady state kernelDir windowTable)
    (call : SpaceFunction)
    (loadable : call.Loadable state kernelDir windowTable) :
    Returns call.run state fun _ _ => True := by
  cases call with
  | createUserSpace =>
      obtain ⟨dir, next, run, _⟩ := vmmCreateUserSpace_cases ready
      exact Returns.of_eq run trivial
  | loadUserProgram pageDir binaryPhys size =>
      obtain ⟨dirReserved, startReserved, inPage⟩ := loadable
      exact vmmLoadUserProgram_total ready dirReserved startReserved inPage
  | createFromModule moduleName =>
      exact processCreateFromModule_total ready loadable moduleName

end Totality

/-! ## Every reachable state -/

theorem SpaceFunction.balanced (call : SpaceFunction) : Balanced call.run := by
  cases call with
  | createUserSpace =>
      exact vmmCreateUserSpace_balanced
  | loadUserProgram pageDir binaryPhys size =>
      exact vmmLoadUserProgram_balanced pageDir binaryPhys size
  | createFromModule moduleName =>
      exact processCreateFromModule_balanced moduleName

theorem SpaceFunction.agrees
    {state : KernelState}
    (call : SpaceFunction)
    (inHand : InHand state [])
    (aligned : call.Aligned state)
    (onZero : Nat → Kernel Nat) :
    call.runWith (checkedMap onZero) state = call.run state := by
  cases call with
  | createUserSpace =>
      exact vmmCreateUserSpace_agrees onZero (by decide) state inHand
  | loadUserProgram pageDir binaryPhys size =>
      exact vmmLoadUserProgram_agrees onZero (by decide) aligned.1 aligned.2
        size state inHand
  | createFromModule moduleName =>
      exact processCreateFromModule_agrees onZero (by decide) inHand aligned
        moduleName

/--
One step of the kernel, by what it does to the temporary mappings.  A step that
calls none of these functions leaves them alone.
-/
inductive KernelStep (before after : KernelState) : Prop
  | map (physicalAddr virtualAddr : Nat)
      (run : tempMapPage physicalAddr before = some (virtualAddr, after))
  | unmap (virtualAddr : Nat)
      (run : tempUnmapPage virtualAddr before = some ((), after))
  | call (call : SpaceFunction) (value : Nat)
      (run : call.run before = some (value, after))
  | other (same : after.tempMgr = before.tempMgr)

theorem KernelStep.tempSlots
    {before after : KernelState} {used : Nat → Bool}
    (step : KernelStep before after)
    (slots : TempSlots before.tempMgr used) :
    ∃ used, TempSlots after.tempMgr used := by
  cases step with
  | map physicalAddr virtualAddr run =>
      exact ⟨_, (tempMapPage_slots slots physicalAddr _ _ run).2.1⟩
  | unmap virtualAddr run =>
      exact ⟨_, tempUnmapPage_slots slots virtualAddr _ _ run⟩
  | call call value run =>
      exact ⟨_, (call.balanced before value after run used slots).slots⟩
  | other same =>
      exact ⟨used, same ▸ slots⟩

/-- The slots and the counts agree in every state of every run. -/
theorem tempSlots_of_reachable
    {initial state : KernelState}
    (initialised : initial.tempMgr = tempMappingInit)
    (reached : Relation.ReflTransGen KernelStep initial state) :
    ∃ used, TempSlots state.tempMgr used := by
  induction reached with
  | refl =>
      exact ⟨_, initialised ▸ tempSlots_tempMappingInit⟩
  | tail _ step inductionHypothesis =>
      obtain ⟨used, slots⟩ := inductionHypothesis
      exact step.tempSlots slots

/--
On every path the call returns with the slots and counts it was entered with;
entered with all slots free, it never goes on with a mapping that has failed.
-/
structure MappingsBalanced (call : SpaceFunction) (state : KernelState) :
    Prop where
  balanced : Ensures call.run state fun _ next => SameSlots state next
  neverRefused :
    (∀ slot < tempMappingCount, state.tempMgr.refCount slot = 0) →
    ∀ onZero, call.runWith (checkedMap onZero) state = call.run state
  returns : ∀ kernelDir windowTable,
    MemoryReady state kernelDir windowTable →
    call.Loadable state kernelDir windowTable →
    Returns call.run state fun _ next => SameSlots state next

/-- In every reachable state, whatever the allocator can still give. -/
theorem reachable_mappingsBalanced
    {initial state : KernelState} {prior : Pmm.BuddySystem}
    {memoryStart memoryEnd : Nat} {live : List Pmm.PageBlock}
    (initialised : initial.tempMgr = tempMappingInit)
    (reached : Relation.ReflTransGen KernelStep initial state)
    (startAligned : 2 ^ 23 ∣ memoryStart)
    (ordered : memoryStart < memoryEnd)
    (inRange : memoryEnd < 2 ^ 32)
    (allocator : Pmm.Reachable prior memoryStart memoryEnd
      ⟨state.buddySys, live⟩)
    (call : SpaceFunction)
    (aligned : call.Aligned state) :
    MappingsBalanced call state := by
  obtain ⟨used, slots⟩ := tempSlots_of_reachable initialised reached
  have balanced : Ensures call.run state fun _ next => SameSlots state next :=
    (call.balanced state).mono fun _ _ mapped =>
      slots.sameSlots (mapped used slots).slots
  refine ⟨balanced, fun allFree onZero => ?_,
    fun kernelDir windowTable ready loadable => ?_⟩
  · have none : TempSlots state.tempMgr fun _ => false :=
      slots.congr fun slot inTable =>
        (slots.counted_eq_zero inTable).mp (allFree slot inTable)
    exact call.agrees ⟨⟨trivial, none⟩, _, _,
      allocator.invariant startAligned ordered inRange⟩ aligned onZero
  · obtain ⟨value, next, run, _⟩ := call.total ready loadable
    exact ⟨value, next, run, balanced value next run⟩

/-- The first process after boot. -/
theorem mappingsBalanced_demoKernel :
    MappingsBalanced (.createFromModule [0x61]) demoKernel := by
  have allocator : Pmm.Reachable Pmm.bss 0x01000000 0x02000000
      ⟨demoKernel.buddySys, []⟩ := .refl
  refine reachable_mappingsBalanced rfl .refl (by norm_num) (by norm_num)
    (by norm_num) allocator _ fun module member => ?_
  obtain rfl := List.mem_singleton.mp member
  exact ⟨0x200, rfl⟩

end MatrixOS
