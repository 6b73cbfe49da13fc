import MatrixOS.TempTranslation

namespace MatrixOS

open ByteMemory Paging StateOption

/-!
# Unmapping any address

`temp_unmap_page` takes the slot from the distance to the highest window,
rounded down, and `unmap_page` takes the table entry from the bits of the
address.  Inside a page the first rounds up to the window above.
-/

/-- The slot has been released, and no other slot has changed. -/
structure Released (state next : KernelState) (slot : Nat) : Prop where
  available : next.tempMgr.availableSlots.testBit slot = true
  counted : next.tempMgr.refCount slot = 0
  cleared : windowEntry next slot = 0
  others : ∀ other < tempMappingCount, other ≠ slot →
    next.tempMgr.availableSlots.testBit other =
        state.tempMgr.availableSlots.testBit other ∧
      next.tempMgr.refCount other = state.tempMgr.refCount other ∧
      windowEntry next other = windowEntry state other

/--
`temp_unmap_page` returns and changes nothing, or releases the slot whose page
holds the address.
-/
def UnmapsRight (state : KernelState) (virtualAddr : Nat) : Prop :=
  ∃ next, tempUnmapPage virtualAddr state = some ((), next) ∧
    (next = state ∨
      ∃ slot < tempMappingCount,
        windowAddr slot / pageSize = virtualAddr / pageSize ∧
          Released state next slot)

/-! ## One call -/

section Unmap

variable {initial state : KernelState} {run : TempRun}
variable {kernelDir windowTable virtualAddr : Nat} {used : Nat → Bool}

/-- A call that writes the entry of the slot it frees releases this slot. -/
theorem released_withWindow
    (paging : KernelPaging state.mem state.cr3 kernelDir windowTable)
    (dirAligned : 2 ^ 12 ∣ state.cr3)
    (tableApart : windowTable ≠ state.cr3 ∧ windowTable ≠ kernelDir)
    (slots : Slots state.tempMgr used)
    {slot : Nat}
    (inTable : slot < tempMappingCount)
    {mgr : TempMappingManager}
    (given : Slots mgr (Function.update used slot false)) :
    Released state (state.withWindow windowTable slot 0 mgr) slot := by
  have after : KernelPaging (state.withWindow windowTable slot 0 mgr).mem
      (state.withWindow windowTable slot 0 mgr).cr3 kernelDir windowTable :=
    paging.sameOffWindows dirAligned tableApart
      (SameOffWindows.windowEntry _ inTable _)
  refine ⟨?_, ?_, ?_, fun other otherInTable different => ⟨?_, ?_, ?_⟩⟩
  · rw [KernelState.withWindow_tempMgr, given.available slot inTable,
      Function.update_self]
    rfl
  · rw [KernelState.withWindow_tempMgr, given.counted slot inTable,
      Function.update_self]
    rfl
  · rw [after.windowEntry_eq inTable]
    exact load_store
  · refine (given.available other otherInTable).trans ?_
    rw [Function.update_of_ne different, slots.available other otherInTable]
  · refine (given.counted other otherInTable).trans ?_
    rw [Function.update_of_ne different, slots.counted other otherInTable]
  · rw [after.windowEntry_eq otherInTable, paging.windowEntry_eq otherInTable]
    exact entryAt_withWindow_of_ne inTable otherInTable different

/-- The slot that is freed has changed, whatever entry was cleared. -/
theorem refCount_of_freed
    (slots : Slots state.tempMgr used)
    {slot : Nat}
    (inTable : slot < tempMappingCount)
    (inUse : used slot = true)
    {mgr : TempMappingManager}
    (given : Slots mgr (Function.update used slot false)) :
    mgr.refCount slot ≠ state.tempMgr.refCount slot := by
  rw [given.counted slot inTable, slots.counted slot inTable, inUse,
    Function.update_self]
  decide

/--
The call does what it should exactly when the range check refuses the address,
the address starts a page, or the slot it computes is not in use.
-/
theorem KernelPaging.tempUnmapPage_right
    (paging : KernelPaging state.mem state.cr3 kernelDir windowTable)
    (dirAligned : 2 ^ 12 ∣ state.cr3)
    (tableApart : windowTable ≠ state.cr3 ∧ windowTable ≠ kernelDir)
    (slots : Slots state.tempMgr used) :
    UnmapsRight state virtualAddr ↔
      OutsideWindows virtualAddr ∨ 2 ^ 12 ∣ virtualAddr ∨
        state.tempMgr.refCount (unmapSlot virtualAddr) = 0 := by
  rcases tempUnmapPage_spec paging slots virtualAddr with
    ⟨run, refused⟩ | ⟨inside, inUse, cleared, clearedInTable, inWindow,
      agree, mgr, given, run⟩
  · refine ⟨fun _ => ?_, fun _ => ⟨state, run, Or.inl rfl⟩⟩
    by_cases outside : OutsideWindows virtualAddr
    · exact Or.inl outside
    · have unused := refused.resolve_left outside
      exact Or.inr (Or.inr
        ((slots.counted_eq_zero (unmapSlot_lt outside)).mpr unused))
  · have freed := refCount_of_freed slots (unmapSlot_lt inside) inUse given
    constructor
    · rintro ⟨next, done, right⟩
      obtain rfl := (Prod.mk.inj (Option.some.inj (done.symm.trans run))).2
      rcases right with same | ⟨slot, inTable, holds, released⟩
      · exact absurd (congrArg (fun state : KernelState =>
          state.tempMgr.refCount (unmapSlot virtualAddr)) same) freed
      · -- only the freed slot can be the released one
        have isSlot : unmapSlot virtualAddr = slot := by
          by_contra different
          exact freed (released.others _ (unmapSlot_lt inside) different).2.1
        have isCleared : cleared = slot := by
          simp only [windowAddr, tempMappingAddr, tempMappingCount, pageSize]
            at holds inWindow clearedInTable inTable
          omega
        exact Or.inr (Or.inl (agree.mp (isCleared.trans isSlot.symm)))
    · rintro (outside | aligned | zero)
      · exact absurd outside inside
      · obtain rfl := agree.mpr aligned
        exact ⟨_, run, Or.inr ⟨_, clearedInTable, inWindow.symm,
          released_withWindow paging dirAligned tableApart slots
            clearedInTable given⟩⟩
      · rw [(slots.counted_eq_one (unmapSlot_lt inside)).mpr inUse] at zero
        cases zero

/-- In every state of every run of calls, for every address. -/
theorem unmapsRight_iff
    (start : TempInitial initial kernelDir windowTable)
    (reached : TempReachable TempCall.Word initial run)
    (virtualAddr : Nat) :
    UnmapsRight run.state virtualAddr ↔
      OutsideWindows virtualAddr ∨ 2 ^ 12 ∣ virtualAddr ∨
        run.state.tempMgr.refCount (unmapSlot virtualAddr) = 0 := by
  have kept := reached.kept start
  obtain ⟨used, slots⟩ := kept.slots
  exact kept.paging.tempUnmapPage_right (kept.sameDir ▸ start.dirAligned)
    (kept.sameDir ▸ start.tableApart) slots

end Unmap

/-! ## After boot -/

/-- The boot kernel with one page mapped. -/
theorem exists_mapped :
    ∃ run, TempReachable TempCall.Word
        (bootKernel (fun _ => 0) 0x110000 []) run ∧
      run.state.tempMgr.refCount 0 = 1 := by
  have start := tempInitial_bootKernel (fun _ => 0) []
    (show 2 ^ 12 ∣ 0x110000 by omega) (by omega)
  obtain ⟨run, reached, windows⟩ := start.fill
    (show 2 ^ 12 ∣ 0x1900000 by omega) (by omega) (show 1 ≤ 4 by omega)
  refine ⟨run, reached.mono fun request page => page.word, ?_⟩
  exact (windows.slots.counted_eq_one (by decide)).mpr rfl

theorem unmapsRight_iff_boot :
    ∃ run : TempRun, UnmapsRight run.state 0xC03FF000 := by
  obtain ⟨run, reached, _⟩ := exists_mapped
  exact ⟨run, (unmapsRight_iff
    (tempInitial_bootKernel (fun _ => 0) []
      (show 2 ^ 12 ∣ 0x110000 by omega) (by omega))
    reached 0xC03FF000).mpr (Or.inr (Or.inl (by omega)))⟩

/--
An address in the page of slot 1 takes slot 0 away from its owner and clears
the table entry of slot 1.
-/
theorem not_unmapsRight :
    ∃ run, TempReachable TempCall.Word
        (bootKernel (fun _ => 0) 0x110000 []) run ∧
      ¬ UnmapsRight run.state 0xC03FE010 := by
  obtain ⟨run, reached, mapped⟩ := exists_mapped
  have start := tempInitial_bootKernel (fun _ => 0) []
    (show 2 ^ 12 ∣ 0x110000 by omega) (by omega)
  have kept := reached.kept start
  obtain ⟨used, slots⟩ := kept.slots
  refine ⟨run, reached, fun right => ?_⟩
  rcases (kept.paging.tempUnmapPage_right (kept.sameDir ▸ start.dirAligned)
    (kept.sameDir ▸ start.tableApart) slots).mp right with
    outside | aligned | zero
  · exact absurd outside (by unfold OutsideWindows; decide)
  · omega
  · have slotIs : unmapSlot 0xC03FE010 = 0 := rfl
    rw [slotIs, mapped] at zero
    cases zero

end MatrixOS
