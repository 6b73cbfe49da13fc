import MatrixOS.Kernel

namespace MatrixOS

open ByteMemory Paging

/-!
# Temporary mappings

`kernel/mm/temp_mapping.c`: four virtual pages into which the kernel maps
physical pages for a short time.  The page tables are reached through the last
directory entry, which points to the directory itself.
-/

/-- `TEMP_MAPPING_ADDR`. -/
def tempMappingAddr : Nat := 0xC03FF000

/-- `TEMP_MAPPING_COUNT`. -/
def tempMappingCount : Nat := 4

/-- `temp_mapping_init`. -/
def tempMappingInit : TempMappingManager where
  lock := false
  availableSlots := (1 <<< tempMappingCount) - 1
  refCount := fun _ => 0

/-- `spinlock_acquire(&temp_mgr.lock)`. -/
def acquireTempLock : Kernel Unit := fun state =>
  if state.tempMgr.lock then none
  else some ((), state.withTempMgr { state.tempMgr with lock := true })

/-- `spinlock_release(&temp_mgr.lock)`. -/
def releaseTempLock : Kernel Unit := fun state =>
  some ((), state.withTempMgr { state.tempMgr with lock := false })

/-- The index of the directory entry of a virtual address. -/
def pageDirIndex (virtualAddr : Nat) : Nat :=
  virtualAddr >>> 22

/-- The index of the table entry of a virtual address. -/
def pageTabIndex (virtualAddr : Nat) : Nat :=
  (virtualAddr >>> 12) &&& 0x3FF

/-- A pointer to an entry of the current page directory. -/
def pageDirEntry (virtualAddr : Nat) : Nat :=
  0xFFFFF000 + pageDirIndex virtualAddr * 4

/-- A pointer to an entry of the page table of a virtual address. -/
def pageTableEntry (virtualAddr : Nat) : Nat :=
  (0xFFC00000 ||| (pageDirIndex virtualAddr <<< 12)) +
    pageTabIndex virtualAddr * 4

/-- `unmap_page`. -/
def unmapPage (virtualAddr : Nat) : Kernel Unit :=
  store32 (pageTableEntry virtualAddr) 0

/-- `ref_count[slot] = count`. -/
def setRefCount (slot count : Nat) : Kernel Unit := fun state =>
  some ((), state.withTempMgr { state.tempMgr with
    refCount := Function.update state.tempMgr.refCount slot count })

/-- `available_slots = slots`. -/
def setAvailableSlots (slots : Nat) : Kernel Unit := fun state =>
  some ((), state.withTempMgr { state.tempMgr with availableSlots := slots })

/-- `temp_unmap_page`. -/
def tempUnmapPage (virtualAddr : Nat) : Kernel Unit := do
  if virtualAddr < tempMappingAddr - (tempMappingCount - 1) * pageSize ∨
      virtualAddr > tempMappingAddr then
    return
  acquireTempLock
  let slot := (tempMappingAddr - virtualAddr) / pageSize
  if slot ≥ tempMappingCount then
    releaseTempLock
    return
  let refCount := (← get).tempMgr.refCount slot
  if refCount = 0 then
    releaseTempLock
    return
  setRefCount slot (refCount - 1)
  if refCount - 1 = 0 then
    unmapPage virtualAddr
    setAvailableSlots ((← get).tempMgr.availableSlots ||| (1 <<< slot))
  releaseTempLock

/--
`map_page`.  To initialise a missing page table it maps the table temporarily;
`tempMap` is that call of `temp_map_page`.
-/
def mapPage (tempMap : Nat → Kernel Nat)
    (virtualAddr physicalAddr flags : Nat) : Kernel Unit := do
  let entry ← load32 (pageDirEntry virtualAddr)
  if entry &&& 0x1 = 0 then
    let newPageTable ← pmmAllocPages 0
    let tempMapping ← tempMap newPageTable
    memset virtualAccess tempMapping 0 pageSize
    store32 (pageDirEntry virtualAddr) (newPageTable ||| flags)
    tempUnmapPage tempMapping
  store32 (pageTableEntry virtualAddr) (physicalAddr ||| flags)

/-- The lowest slot whose bit is set. -/
def findSlot (availableSlots : Nat) : Option Nat :=
  (List.range tempMappingCount).find? fun slot =>
    availableSlots &&& (1 <<< slot) ≠ 0

/--
`temp_map_page`, for calls nested at most `depth` deep.  The call nested in
`map_page` finds the lock held, so no call is nested deeper than that.
-/
def tempMapPageNested : (depth physicalAddr : Nat) → Kernel Nat
  | 0, _ => failure
  | depth + 1, physicalAddr => do
      if physicalAddr &&& 0xFFF ≠ 0 then
        return 0
      acquireTempLock
      match findSlot (← get).tempMgr.availableSlots with
      | none =>
          releaseTempLock
          return 0
      | some slot =>
          let virtualAddr := tempMappingAddr - slot * pageSize
          mapPage (tempMapPageNested depth) virtualAddr physicalAddr 0x03
          setAvailableSlots
            ((← get).tempMgr.availableSlots &&& not32 (1 <<< slot))
          setRefCount slot (wrap32 ((← get).tempMgr.refCount slot + 1))
          releaseTempLock
          return virtualAddr

/-- `temp_map_page`. -/
def tempMapPage (physicalAddr : Nat) : Kernel Nat :=
  tempMapPageNested 2 physicalAddr

end MatrixOS
