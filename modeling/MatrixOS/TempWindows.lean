import Mathlib.Tactic.IntervalCases
import MatrixOS.Vmm

namespace MatrixOS

open ByteMemory Paging StateOption

/-!
# Kernel code through temporary windows

As long as the current directory reaches the kernel directory and the table of
the windows, mapping a page into a window and accessing it there are plain
reads and writes of physical memory.
-/

/-! ## Slots -/

/-- The bookkeeping of the slots, by which of them are in use. -/
structure Slots (mgr : TempMappingManager) (used : Nat → Bool) : Prop where
  unlocked : mgr.lock = false
  available : ∀ slot < tempMappingCount,
    mgr.availableSlots.testBit slot = !used slot
  counted : ∀ slot < tempMappingCount,
    mgr.refCount slot = (used slot).toNat

theorem slots_tempMappingInit : Slots tempMappingInit fun _ => false where
  unlocked := rfl
  available := by decide
  counted := fun _ _ => rfl

section SlotBits

variable {slots slot other : Nat}

theorem and_one_shiftLeft_ne_zero :
    slots &&& (1 <<< slot) ≠ 0 ↔ slots.testBit slot = true := by
  rw [Nat.one_shiftLeft, Nat.and_two_pow]
  cases slots.testBit slot <;> simp

theorem testBit_clear
    (inWord : other < 32)
    (slotInWord : slot < 32) :
    (slots &&& not32 (1 <<< slot)).testBit other =
      (slots.testBit other && decide (other ≠ slot)) := by
  have range : 2 ^ slot < 2 ^ 32 := Nat.pow_lt_pow_right (by omega) slotInWord
  have complement : not32 (1 <<< slot) = 2 ^ 32 - (2 ^ slot + 1) := by
    rw [not32, Nat.one_shiftLeft]
    omega
  rw [Nat.testBit_and, complement, Nat.testBit_two_pow_sub_succ range,
    Nat.testBit_two_pow]
  simp [inWord, eq_comm]

theorem testBit_set :
    (slots ||| (1 <<< slot)).testBit other =
      (slots.testBit other || decide (other = slot)) := by
  rw [Nat.testBit_or, Nat.one_shiftLeft, Nat.testBit_two_pow]
  simp [eq_comm]

end SlotBits

/-- `findSlot` returns the lowest free slot. -/
theorem Slots.findSlot_eq
    {mgr : TempMappingManager} {used : Nat → Bool}
    (slots : Slots mgr used)
    {slot : Nat}
    (inTable : slot < tempMappingCount)
    (free : used slot = false)
    (lowest : ∀ lower < slot, used lower = true) :
    findSlot mgr.availableSlots = some slot := by
  rw [findSlot, List.find?_range_eq_some]
  have count : tempMappingCount = 4 := rfl
  refine ⟨?_, List.mem_range.mpr inTable, fun lower below => ?_⟩
  · rw [decide_eq_true_iff, and_one_shiftLeft_ne_zero,
      slots.available slot inTable, free]
    rfl
  · have bit : mgr.availableSlots.testBit lower = false := by
      rw [slots.available lower (by omega), lowest lower below]
      rfl
    rw [Bool.not_eq_true', decide_eq_false_iff_not, and_one_shiftLeft_ne_zero,
      bit]
    exact Bool.false_ne_true

/-- `findSlot` fails when every slot is in use. -/
theorem Slots.findSlot_eq_none
    {mgr : TempMappingManager} {used : Nat → Bool}
    (slots : Slots mgr used)
    (full : ∀ slot < tempMappingCount, used slot = true) :
    findSlot mgr.availableSlots = none := by
  rw [findSlot, List.find?_eq_none]
  intro slot member
  have inTable := List.mem_range.mp member
  have bit : mgr.availableSlots.testBit slot = false := by
    rw [slots.available slot inTable, full slot inTable]
    rfl
  rw [decide_eq_true_iff, and_one_shiftLeft_ne_zero, bit]
  exact Bool.false_ne_true

/-- The lock is free between calls. -/
theorem Slots.acquire
    {state : KernelState} {used : Nat → Bool}
    (slots : Slots state.tempMgr used) :
    acquireTempLock state =
      some ((), state.withTempMgr { state.tempMgr with lock := true }) := by
  rw [acquireTempLock, slots.unlocked]
  rfl

/-- The lock is free again after it has been taken and given back. -/
theorem Slots.relock
    {state : KernelState} {used : Nat → Bool}
    (slots : Slots state.tempMgr used) :
    releaseTempLock
        (state.withTempMgr { state.tempMgr with lock := true }) =
      some ((), state) := by
  have unlocked := slots.unlocked
  cases state with
  | mk mem cr3 buddySys tempMgr modules processes currentProcess nextPid =>
      cases tempMgr with
      | mk lock availableSlots refCount =>
          subst unlocked
          rfl

theorem Slots.counted_eq_one
    {mgr : TempMappingManager} {used : Nat → Bool}
    (slots : Slots mgr used)
    {slot : Nat}
    (inTable : slot < tempMappingCount) :
    mgr.refCount slot = 1 ↔ used slot = true := by
  rw [slots.counted slot inTable]
  cases used slot <;> simp

theorem Slots.counted_eq_zero
    {mgr : TempMappingManager} {used : Nat → Bool}
    (slots : Slots mgr used)
    {slot : Nat}
    (inTable : slot < tempMappingCount) :
    mgr.refCount slot = 0 ↔ used slot = false := by
  rw [slots.counted slot inTable]
  cases used slot <;> simp

/-- Taking a slot. -/
theorem Slots.take
    {mgr : TempMappingManager} {used : Nat → Bool}
    (slots : Slots mgr used)
    {slot : Nat}
    (inTable : slot < tempMappingCount)
    (free : used slot = false) :
    Slots {
      lock := false
      availableSlots := mgr.availableSlots &&& not32 (1 <<< slot)
      refCount := Function.update mgr.refCount slot
        (wrap32 (mgr.refCount slot + 1)) }
      (Function.update used slot true) where
  unlocked := rfl
  available := by
    intro other otherInTable
    have count : tempMappingCount = 4 := rfl
    rw [testBit_clear (by omega) (by omega), slots.available other otherInTable]
    by_cases same : other = slot
    · simp [same]
    · simp [same]
  counted := by
    intro other otherInTable
    by_cases same : other = slot
    · subst same
      simp [slots.counted other inTable, free, wrap32]
    · simp [same, slots.counted other otherInTable]

/-- Giving a slot back. -/
theorem Slots.give
    {mgr : TempMappingManager} {used : Nat → Bool}
    (slots : Slots mgr used)
    (slot : Nat) :
    Slots {
      lock := false
      availableSlots := mgr.availableSlots ||| (1 <<< slot)
      refCount := Function.update mgr.refCount slot 0 }
      (Function.update used slot false) where
  unlocked := rfl
  available := by
    intro other otherInTable
    rw [testBit_set, slots.available other otherInTable]
    by_cases same : other = slot
    · simp [same]
    · simp [same]
  counted := by
    intro other otherInTable
    by_cases same : other = slot
    · simp [same]
    · simp [same, slots.counted other otherInTable]

/-! ## The tables behind the windows -/

/--
The directory `dir` reaches the kernel directory through its last entry and
the table of the windows through entry 768, and so does the kernel directory.
-/
structure KernelPaging (mem : Memory) (dir kernelDir windowTable : Nat) :
    Prop where
  dirSelf : PointsTo mem dir 1023 kernelDir
  kernelSelf : PointsTo mem kernelDir 1023 kernelDir
  dirWindows : PointsTo mem dir 768 windowTable
  kernelWindows : PointsTo mem kernelDir 768 windowTable

/-- The virtual address of a window. -/
def windowAddr (slot : Nat) : Nat :=
  tempMappingAddr - slot * pageSize

section Resolve

variable {state : KernelState} {kernelDir windowTable index : Nat}

/-- Pointers into the last page lead into the kernel directory. -/
theorem resolve_kernelDir
    (paging : KernelPaging state.mem state.cr3 kernelDir windowTable)
    (bound : index < 1024) :
    state.resolve (0xFFFFF000 + index * 4) =
      some (entryAddr kernelDir index) := by
  have dirIndex : (0xFFFFF000 + index * 4) / 2 ^ 22 = 1023 := by omega
  have tabIndex : (0xFFFFF000 + index * 4) / 2 ^ 12 % 2 ^ 10 = 1023 := by
    omega
  have offset : (0xFFFFF000 + index * 4) % 2 ^ 12 = index * 4 := by omega
  rw [KernelState.resolve, walk_of_pointsTo (dirIndex ▸ paging.dirSelf)
    (tabIndex ▸ paging.kernelSelf), offset, entryAddr]

/-- The page of table 768 in the directory map is the table of the windows. -/
theorem resolve_windowTable
    (paging : KernelPaging state.mem state.cr3 kernelDir windowTable)
    (bound : index < 1024) :
    state.resolve (0xFFF00000 + index * 4) =
      some (entryAddr windowTable index) := by
  have dirIndex : (0xFFF00000 + index * 4) / 2 ^ 22 = 1023 := by omega
  have tabIndex : (0xFFF00000 + index * 4) / 2 ^ 12 % 2 ^ 10 = 768 := by
    omega
  have offset : (0xFFF00000 + index * 4) % 2 ^ 12 = index * 4 := by omega
  rw [KernelState.resolve, walk_of_pointsTo (dirIndex ▸ paging.dirSelf)
    (tabIndex ▸ paging.kernelWindows), offset, entryAddr]

/-- A window leads to the page mapped into it. -/
theorem resolve_mapped
    (leads : PointsTo state.mem state.cr3 768 windowTable)
    {slot frame offset : Nat}
    (inTable : slot < tempMappingCount)
    (mapped : PointsTo state.mem windowTable (1023 - slot) frame)
    (inPage : offset < 2 ^ 12) :
    state.resolve (windowAddr slot + offset) = some (frame + offset) := by
  simp only [tempMappingCount] at inTable
  have addr : windowAddr slot = 0xC03FF000 - slot * 4096 := rfl
  have dirIndex : (windowAddr slot + offset) / 2 ^ 22 = 768 := by omega
  have tabIndex :
      (windowAddr slot + offset) / 2 ^ 12 % 2 ^ 10 = 1023 - slot := by
    omega
  have low : (windowAddr slot + offset) % 2 ^ 12 = offset := by omega
  rw [KernelState.resolve, walk_of_pointsTo (dirIndex ▸ leads)
    (tabIndex ▸ mapped), low]

theorem resolve_window
    (paging : KernelPaging state.mem state.cr3 kernelDir windowTable)
    {slot frame offset : Nat}
    (inTable : slot < tempMappingCount)
    (mapped : PointsTo state.mem windowTable (1023 - slot) frame)
    (inPage : offset < 2 ^ 12) :
    state.resolve (windowAddr slot + offset) = some (frame + offset) :=
  resolve_mapped paging.dirWindows inTable mapped inPage

/-- No pointer into a window wraps around. -/
theorem wrap32_windowAddr
    {slot offset : Nat}
    (inPage : offset < pageSize) :
    wrap32 (windowAddr slot + offset) = windowAddr slot + offset := by
  refine wrap32_of_lt ?_
  simp only [windowAddr, tempMappingAddr, pageSize] at inPage ⊢
  omega

end Resolve

/-- The pointers the mapping functions compute for an address in a window. -/
theorem window_entries
    {slot virtualAddr : Nat}
    (inTable : slot < tempMappingCount)
    (inWindow : virtualAddr / 2 ^ 12 = windowAddr slot / 2 ^ 12) :
    pageDirEntry virtualAddr = 0xFFFFF000 + 768 * 4 ∧
      pageTableEntry virtualAddr = 0xFFF00000 + (1023 - slot) * 4 := by
  have dirIndex : virtualAddr >>> 22 = (windowAddr slot) >>> 22 := by
    rw [Nat.shiftRight_eq_div_pow, Nat.shiftRight_eq_div_pow]
    omega
  have pageIndex : virtualAddr >>> 12 = (windowAddr slot) >>> 12 := by
    rw [Nat.shiftRight_eq_div_pow, Nat.shiftRight_eq_div_pow, inWindow]
  rw [pageDirEntry, pageTableEntry, pageDirIndex, pageTabIndex, dirIndex,
    pageIndex]
  rw [show tempMappingCount = 4 from rfl] at inTable
  interval_cases slot <;> decide

/-! ## Accesses -/

section Accesses

variable {state : KernelState} {ptr addr value : Nat}

theorem load32_of_resolve (leads : state.resolve ptr = some addr) :
    load32 ptr state = some (load state.mem 4 addr, state) := by
  rw [load32, leads]
  rfl

theorem store32_of_resolve (leads : state.resolve ptr = some addr) :
    store32 ptr value state =
      some ((), state.withMem (store state.mem 4 addr value)) := by
  rw [store32, leads]
  rfl

theorem load8_of_resolve (leads : state.resolve ptr = some addr) :
    load8 ptr state = some (state.mem addr, state) := by
  rw [load8, leads]
  rfl

theorem store8_of_resolve
    (leads : state.resolve ptr = some addr)
    (byte : UInt8) :
    store8 ptr byte state =
      some ((), state.withMem (Function.update state.mem addr byte)) := by
  rw [store8, leads]
  rfl

end Accesses

/-! ## Mapping and unmapping -/

/-- The state after a window has been given a new table entry. -/
def KernelState.withWindow
    (state : KernelState) (windowTable slot entry : Nat)
    (mgr : TempMappingManager) : KernelState :=
  (state.withMem
    (store state.mem 4 (entryAddr windowTable (1023 - slot)) entry)).withTempMgr
    mgr

@[simp] theorem KernelState.withWindow_tempMgr
    (state : KernelState)
    (windowTable slot entry : Nat)
    (mgr : TempMappingManager) :
    (state.withWindow windowTable slot entry mgr).tempMgr = mgr := rfl

section Mapping

variable {state : KernelState} {kernelDir windowTable slot : Nat}
variable {used : Nat → Bool}

theorem mapPage_eq
    (state : KernelState)
    (paging : KernelPaging state.mem state.cr3 kernelDir windowTable)
    (inTable : slot < tempMappingCount)
    (tempMap : Nat → Kernel Nat)
    (page flags : Nat) :
    mapPage tempMap (windowAddr slot) page flags state =
      some ((), state.withMem
        (store state.mem 4 (entryAddr windowTable (1023 - slot))
          (page ||| flags))) := by
  obtain ⟨dirEntry, tableEntry⟩ := window_entries inTable rfl
  have present : ¬ entryAt state.mem kernelDir 768 &&& 0x1 = 0 :=
    and_one_shiftLeft_ne_zero.mpr paging.kernelWindows.1
  have read :
      load32 (0xFFFFF000 + 768 * 4) state =
        some (entryAt state.mem kernelDir 768, state) :=
    load32_of_resolve (resolve_kernelDir paging (by omega))
  have leads := resolve_windowTable paging (show 1023 - slot < 1024 by omega)
  rw [mapPage, dirEntry, tableEntry, bind_of_eq read, if_neg present]
  exact store32_of_resolve leads

/-- The check that `temp_map_page` makes of its argument. -/
theorem pageOffset_eq_zero_iff {page : Nat} :
    page &&& 0xFFF = 0 ↔ 2 ^ 12 ∣ page := by
  rw [show (0xFFF : Nat) = 2 ^ 12 - 1 from rfl, Nat.and_two_pow_sub_one_eq_mod]
  exact Nat.dvd_iff_mod_eq_zero.symm

/-- `temp_map_page` enters the page into the table of the windows. -/
theorem tempMapPage_eq
    (paging : KernelPaging state.mem state.cr3 kernelDir windowTable)
    (slots : Slots state.tempMgr used)
    (inTable : slot < tempMappingCount)
    (free : used slot = false)
    (lowest : ∀ lower < slot, used lower = true)
    {page : Nat}
    (aligned : 2 ^ 12 ∣ page) :
    ∃ mgr, Slots mgr (Function.update used slot true) ∧
      tempMapPage page state =
        some (windowAddr slot,
          state.withWindow windowTable slot (page ||| 0x03) mgr) := by
  refine ⟨_, slots.take inTable free, ?_⟩
  have lowBits := pageOffset_eq_zero_iff.mpr aligned
  have found := slots.findSlot_eq inTable free lowest
  rw [tempMapPage, tempMapPageNested, if_neg (not_not.mpr lowBits)]
  refine (bind_of_eq slots.acquire).trans ?_
  refine (bind_of_eq rfl).trans ?_
  simp only [KernelState.withTempMgr_tempMgr, found]
  refine (bind_of_eq (mapPage_eq
    (state.withTempMgr { state.tempMgr with lock := true })
    paging inTable _ page 0x03)).trans ?_
  rfl

/-- Addresses outside the windows are refused. -/
theorem tempUnmapPage_outside
    {virtualAddr : Nat}
    (outside : virtualAddr < tempMappingAddr - (tempMappingCount - 1) * pageSize ∨
      virtualAddr > tempMappingAddr) :
    tempUnmapPage virtualAddr state = some ((), state) := by
  rw [tempUnmapPage, if_pos outside]
  rfl

section Unmap

variable {virtualAddr : Nat}
variable
  (inside : ¬ (virtualAddr <
      tempMappingAddr - (tempMappingCount - 1) * pageSize ∨
    virtualAddr > tempMappingAddr))
variable (slotIs : (tempMappingAddr - virtualAddr) / pageSize = slot)
variable (inTable : slot < tempMappingCount)
include inside slotIs inTable

/-- A slot that is not in use is left alone. -/
theorem tempUnmapPage_unused
    (slots : Slots state.tempMgr used)
    (unused : used slot = false) :
    tempUnmapPage virtualAddr state = some ((), state) := by
  have counted : state.tempMgr.refCount slot = 0 := by
    rw [slots.counted slot inTable, unused]
    rfl
  rw [tempUnmapPage, if_neg inside]
  refine (bind_of_eq slots.acquire).trans ?_
  simp only [slotIs, Nat.not_le.mpr inTable, ↓reduceIte]
  refine (bind_of_eq rfl).trans ?_
  simp only [KernelState.withTempMgr_tempMgr, counted, ↓reduceIte]
  refine (bind_of_eq slots.relock).trans ?_
  rfl

/--
`temp_unmap_page` frees the slot it computes and clears the table entry of the
page the address is in.
-/
theorem tempUnmapPage_eq
    (paging : KernelPaging state.mem state.cr3 kernelDir windowTable)
    (slots : Slots state.tempMgr used)
    (inUse : used slot = true)
    {cleared : Nat}
    (clearedInTable : cleared < tempMappingCount)
    (inWindow : virtualAddr / 2 ^ 12 = windowAddr cleared / 2 ^ 12) :
    ∃ mgr, Slots mgr (Function.update used slot false) ∧
      tempUnmapPage virtualAddr state =
        some ((), state.withWindow windowTable cleared 0 mgr) := by
  refine ⟨_, slots.give slot, ?_⟩
  have counted : state.tempMgr.refCount slot = 1 := by
    rw [slots.counted slot inTable, inUse]
    rfl
  have leads : ∀ mgr, (state.withTempMgr mgr).resolve
      (0xFFF00000 + (1023 - cleared) * 4) =
        some (entryAddr windowTable (1023 - cleared)) :=
    fun mgr => resolve_windowTable paging (by omega)
  rw [tempUnmapPage, if_neg inside]
  refine (bind_of_eq slots.acquire).trans ?_
  simp only [slotIs, Nat.not_le.mpr inTable, ↓reduceIte]
  refine (bind_of_eq rfl).trans ?_
  simp only [KernelState.withTempMgr_tempMgr, counted, Nat.one_ne_zero,
    Nat.sub_self, ↓reduceIte]
  refine (bind_of_eq rfl).trans ?_
  rw [unmapPage, (window_entries clearedInTable inWindow).2]
  refine (bind_of_eq (store32_of_resolve (leads _))).trans ?_
  rfl

end Unmap

/-- The address of a window is in the range `temp_unmap_page` accepts. -/
theorem windowAddr_accepted
    (inTable : slot < tempMappingCount) :
    ¬ (windowAddr slot <
        tempMappingAddr - (tempMappingCount - 1) * pageSize ∨
      windowAddr slot > tempMappingAddr) ∧
    (tempMappingAddr - windowAddr slot) / pageSize = slot := by
  have count : tempMappingCount = 4 := rfl
  simp only [windowAddr, tempMappingAddr, pageSize, count]
  omega

end Mapping

/-! ## Windows in use -/

/-- Different page frames do not overlap. -/
theorem frames_apart
    {first second : Nat}
    (firstAligned : 2 ^ 12 ∣ first)
    (secondAligned : 2 ^ 12 ∣ second)
    (different : first ≠ second) :
    first + pageSize ≤ second ∨ second + pageSize ≤ first := by
  obtain ⟨firstPage, rfl⟩ := firstAligned
  obtain ⟨secondPage, rfl⟩ := secondAligned
  simp only [pageSize]
  omega

/-- The windows lead to these frames, through tables that are kept apart. -/
structure Windows
    (state : KernelState) (kernelDir windowTable : Nat)
    (frames : Nat → Option Nat) : Prop where
  paging : KernelPaging state.mem state.cr3 kernelDir windowTable
  slots : Slots state.tempMgr fun slot => (frames slot).isSome
  mapped : ∀ slot < tempMappingCount, ∀ frame, frames slot = some frame →
    PointsTo state.mem windowTable (1023 - slot) frame
  dirAligned : 2 ^ 12 ∣ state.cr3
  tableApart : windowTable ≠ state.cr3 ∧ windowTable ≠ kernelDir

/-- A frame that is none of the three tables behind the windows. -/
structure Windows.Clear (dir kernelDir windowTable frame : Nat) : Prop where
  aligned : 2 ^ 12 ∣ frame
  dir : frame ≠ dir
  kernelDir : frame ≠ kernelDir
  windowTable : frame ≠ windowTable

namespace Windows

variable {state : KernelState} {kernelDir windowTable slot frame : Nat}
variable {frames : Nat → Option Nat}

theorem kernelDir_aligned
    (windows : Windows state kernelDir windowTable frames) :
    2 ^ 12 ∣ kernelDir :=
  windows.paging.dirSelf.frame_lt.2

theorem windowTable_aligned
    (windows : Windows state kernelDir windowTable frames) :
    2 ^ 12 ∣ windowTable :=
  windows.paging.dirWindows.frame_lt.2

/-- An entry lies inside its table. -/
theorem entry_agree
    {table index : Nat} {mem changed : Memory}
    (bound : index < 1024)
    (agree : Agree table pageSize changed mem) :
    Agree (entryAddr table index) 4 changed mem :=
  agree.mono (Nat.le_add_right _ _)
    (by simp only [entryAddr, pageSize]; omega)

/-- The windows stay as long as the three tables do. -/
theorem withMem
    (windows : Windows state kernelDir windowTable frames)
    {mem : Memory}
    (dirKept : Agree state.cr3 pageSize mem state.mem)
    (kernelDirKept : Agree kernelDir pageSize mem state.mem)
    (windowTableKept : Agree windowTable pageSize mem state.mem) :
    Windows (state.withMem mem) kernelDir windowTable frames where
  paging := {
    dirSelf := windows.paging.dirSelf.congr (entry_agree (by omega) dirKept)
    kernelSelf := windows.paging.kernelSelf.congr
      (entry_agree (by omega) kernelDirKept)
    dirWindows := windows.paging.dirWindows.congr
      (entry_agree (by omega) dirKept)
    kernelWindows := windows.paging.kernelWindows.congr
      (entry_agree (by omega) kernelDirKept) }
  slots := windows.slots
  mapped := fun slot inTable frame used =>
    (windows.mapped slot inTable frame used).congr
      (entry_agree (by omega) windowTableKept)
  dirAligned := windows.dirAligned
  tableApart := windows.tableApart

/-- Changes inside a clear frame keep the windows. -/
theorem withFrame
    (windows : Windows state kernelDir windowTable frames)
    (clear : Clear state.cr3 kernelDir windowTable frame)
    {mem : Memory}
    (kept : ∀ address, ¬ InRange frame pageSize address →
      mem address = state.mem address) :
    Windows (state.withMem mem) kernelDir windowTable frames := by
  have page : ∀ table, 2 ^ 12 ∣ table → frame ≠ table →
      Agree table pageSize mem state.mem := by
    intro table tableAligned different address inside
    have apart := frames_apart clear.aligned tableAligned different
    refine kept address ?_
    simp only [InRange] at inside ⊢
    omega
  exact windows.withMem (page _ windows.dirAligned clear.dir)
    (page _ windows.kernelDir_aligned clear.kernelDir)
    (page _ windows.windowTable_aligned clear.windowTable)

/-- The windows after a table entry of one of them has been written. -/
theorem withWindow
    (windows : Windows state kernelDir windowTable frames)
    (inTable : slot < tempMappingCount)
    {entry : Nat} {mgr : TempMappingManager} {page : Option Nat}
    (slots : Slots mgr (Function.update
      (fun slot => (frames slot).isSome) slot page.isSome))
    (mapped : ∀ frame, page = some frame →
      PointsTo (store state.mem 4 (entryAddr windowTable (1023 - slot)) entry)
        windowTable (1023 - slot) frame) :
    Windows (state.withWindow windowTable slot entry mgr) kernelDir windowTable
      (Function.update frames slot page) := by
  have count : tempMappingCount = 4 := rfl
  have kept : ∀ table, 2 ^ 12 ∣ table → windowTable ≠ table →
      Agree table pageSize
        (store state.mem 4 (entryAddr windowTable (1023 - slot)) entry)
        state.mem := by
    intro table tableAligned different
    have apart := frames_apart windows.windowTable_aligned tableAligned different
    refine agree_store ?_
    simp only [entryAddr, pageSize] at apart ⊢
    omega
  have dirKept := kept _ windows.dirAligned windows.tableApart.1
  have kernelDirKept := kept _ windows.kernelDir_aligned windows.tableApart.2
  refine ⟨⟨?_, ?_, ?_, ?_⟩, ?_, ?_, windows.dirAligned, windows.tableApart⟩
  · exact windows.paging.dirSelf.congr (entry_agree (by omega) dirKept)
  · exact windows.paging.kernelSelf.congr
      (entry_agree (by omega) kernelDirKept)
  · exact windows.paging.dirWindows.congr (entry_agree (by omega) dirKept)
  · exact windows.paging.kernelWindows.congr
      (entry_agree (by omega) kernelDirKept)
  · have same : (fun other => (Function.update frames slot page other).isSome) =
        Function.update (fun slot => (frames slot).isSome) slot page.isSome := by
      funext other
      by_cases isSlot : other = slot
      · subst isSlot
        simp
      · simp [isSlot]
    rw [same]
    exact slots
  · intro other otherInTable frame used
    by_cases isSlot : other = slot
    · subst isSlot
      rw [Function.update_self] at used
      exact mapped frame used
    · rw [Function.update_of_ne isSlot] at used
      refine (windows.mapped other otherInTable frame used).congr
        (agree_store ?_)
      simp only [entryAddr]
      omega

/-- `temp_map_page` with a free slot. -/
theorem map
    (windows : Windows state kernelDir windowTable frames)
    (inTable : slot < tempMappingCount)
    (free : frames slot = none)
    (lowest : ∀ lower < slot, frames lower ≠ none)
    {page : Nat}
    (aligned : 2 ^ 12 ∣ page)
    (inRange : page + 2 ^ 12 ≤ 2 ^ 32) :
    ∃ mgr,
      tempMapPage page state =
        some (windowAddr slot,
          state.withWindow windowTable slot (page ||| 0x03) mgr) ∧
      Windows (state.withWindow windowTable slot (page ||| 0x03) mgr)
        kernelDir windowTable (Function.update frames slot (some page)) := by
  have isFree : (frames slot).isSome = false := by simp [free]
  have lower : ∀ lower < slot, (frames lower).isSome = true :=
    fun other below => Option.isSome_iff_ne_none.mpr (lowest other below)
  obtain ⟨mgr, slots, run⟩ :=
    tempMapPage_eq windows.paging windows.slots inTable isFree lower aligned
  refine ⟨mgr, run, windows.withWindow inTable slots ?_⟩
  intro frame same
  obtain rfl := Option.some.inj same
  exact pointsTo_store aligned inRange (by omega) rfl

/-- `temp_unmap_page` of a window in use. -/
theorem unmap
    (windows : Windows state kernelDir windowTable frames)
    (inTable : slot < tempMappingCount)
    (inUse : frames slot ≠ none) :
    ∃ mgr,
      tempUnmapPage (windowAddr slot) state =
        some ((), state.withWindow windowTable slot 0 mgr) ∧
      Windows (state.withWindow windowTable slot 0 mgr)
        kernelDir windowTable (Function.update frames slot none) := by
  have isUsed : (frames slot).isSome = true :=
    Option.isSome_iff_ne_none.mpr inUse
  obtain ⟨mgr, slots, run⟩ :=
    tempUnmapPage_eq (windowAddr_accepted inTable).1
      (windowAddr_accepted inTable).2 inTable windows.paging windows.slots
      isUsed inTable rfl
  refine ⟨mgr, run, windows.withWindow inTable slots ?_⟩
  intro frame impossible
  cases impossible

end Windows

end MatrixOS
