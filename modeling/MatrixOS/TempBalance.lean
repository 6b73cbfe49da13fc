import MatrixOS.ManagerEffects
import MatrixOS.TempRuns

namespace MatrixOS

open ByteMemory Paging StateOption

/-!
# Balance of the temporary mappings

Which slots are in use can be followed through any program without knowing
anything about the page tables: a call that returns has taken or given back a
slot, or it has left the slots alone.  A program is balanced when it gives back
every slot it has taken, on every path.
-/

/-! ## Slots in use -/

/-- The bookkeeping of the slots, without bits beyond the table. -/
structure TempSlots (mgr : TempMappingManager) (used : Nat → Bool) : Prop
    extends Slots mgr used where
  small : mgr.availableSlots < 2 ^ tempMappingCount

/-- The bit mask and the counts are the same. -/
structure SameSlots (before after : KernelState) : Prop where
  available : after.tempMgr.availableSlots = before.tempMgr.availableSlots
  counted : ∀ slot < tempMappingCount,
    after.tempMgr.refCount slot = before.tempMgr.refCount slot

instance (virtualAddr : Nat) : Decidable (OutsideWindows virtualAddr) :=
  inferInstanceAs (Decidable (_ ∨ _))

/-- The slots in use after the slot of an address has been taken or given back. -/
def markSlot
    (used : Nat → Bool) (virtualAddr : Nat) (inUse : Bool) : Nat → Bool :=
  if OutsideWindows virtualAddr then used
  else Function.update used (unmapSlot virtualAddr) inUse

/-- No slot in use belongs to the address. -/
def Unused (used : Nat → Bool) (virtualAddr : Nat) : Prop :=
  OutsideWindows virtualAddr ∨ used (unmapSlot virtualAddr) = false

section Marks

variable {used : Nat → Bool} {virtualAddr other : Nat}

theorem outsideWindows_zero : OutsideWindows 0 :=
  Or.inl (by decide)

theorem unused_windowAddr
    {slot : Nat}
    (inTable : slot < tempMappingCount)
    (free : used slot = false) :
    Unused used (windowAddr slot) := by
  obtain ⟨_, slotIs⟩ := windowAddr_accepted inTable
  refine Or.inr ?_
  rwa [unmapSlot, slotIs]

theorem markSlot_windowAddr
    {slot : Nat}
    (inTable : slot < tempMappingCount)
    (inUse : Bool) :
    markSlot used (windowAddr slot) inUse =
      Function.update used slot inUse := by
  obtain ⟨accepted, slotIs⟩ := windowAddr_accepted inTable
  have inside : ¬ OutsideWindows (windowAddr slot) := accepted
  rw [markSlot, if_neg inside, unmapSlot, slotIs]

/-- Giving a slot back undoes taking it. -/
theorem markSlot_undo (unused : Unused used virtualAddr) :
    markSlot (markSlot used virtualAddr true) virtualAddr false = used := by
  by_cases outside : OutsideWindows virtualAddr
  · rw [markSlot, markSlot, if_pos outside, if_pos outside]
  · have free := unused.resolve_left outside
    rw [markSlot, markSlot, if_neg outside, if_neg outside,
      Function.update_idem, ← free, Function.update_eq_self]

/-- Two slots can be given back in any order. -/
theorem markSlot_swap
    (unused : Unused used virtualAddr)
    (otherUnused : Unused (markSlot used virtualAddr true) other) :
    Unused used other ∧ Unused (markSlot used other true) virtualAddr ∧
      markSlot (markSlot used other true) virtualAddr true =
        markSlot (markSlot used virtualAddr true) other true := by
  by_cases outside : OutsideWindows virtualAddr
  · rw [markSlot, if_pos outside] at otherUnused
    refine ⟨otherUnused, Or.inl outside, ?_⟩
    rw [markSlot, if_pos outside, markSlot.eq_1 used virtualAddr,
      if_pos outside]
  · have free := unused.resolve_left outside
    by_cases otherOutside : OutsideWindows other
    · refine ⟨Or.inl otherOutside, ?_, ?_⟩
      · rwa [markSlot, if_pos otherOutside]
      · rw [markSlot.eq_1 _ other, if_pos otherOutside, markSlot.eq_1 _ other,
          if_pos otherOutside]
    · have otherFree := otherUnused.resolve_left otherOutside
      rw [markSlot, if_neg outside] at otherFree
      have different : unmapSlot other ≠ unmapSlot virtualAddr := by
        intro same
        rw [same, Function.update_self] at otherFree
        cases otherFree
      rw [Function.update_of_ne different] at otherFree
      refine ⟨Or.inr otherFree, Or.inr ?_, ?_⟩
      · rwa [markSlot, if_neg otherOutside,
          Function.update_of_ne different.symm]
      · simp only [markSlot, if_neg outside, if_neg otherOutside]
        exact Function.update_comm different _ _ _

end Marks

/-- The slots in use after slots have been taken, the last one first. -/
def markedSlots (used : Nat → Bool) : List Nat → Nat → Bool
  | [] => used
  | virtualAddr :: held => markSlot (markedSlots used held) virtualAddr true

/-- Every slot was free when it was taken. -/
def TakenFree (used : Nat → Bool) : List Nat → Prop
  | [] => True
  | virtualAddr :: held =>
      Unused (markedSlots used held) virtualAddr ∧ TakenFree used held

/-- Fewer than four mappings leave a slot free. -/
theorem exists_unmarked
    {held : List Nat}
    (few : held.length < tempMappingCount) :
    ∃ slot < tempMappingCount,
      markedSlots (fun _ => false) held slot = false := by
  let inUse : List Nat → Finset Nat := fun held =>
    (Finset.range tempMappingCount).filter fun slot =>
      markedSlots (fun _ => false) held slot = true
  have counted : (inUse held).card ≤ held.length := by
    clear few
    induction held with
    | nil =>
        simp [inUse, markedSlots]
    | cons virtualAddr held inductionHypothesis =>
        have more : inUse (virtualAddr :: held) ⊆
            insert (unmapSlot virtualAddr) (inUse held) := by
          intro slot member
          obtain ⟨inTable, marked⟩ := Finset.mem_filter.mp member
          rw [Finset.mem_insert, Finset.mem_filter]
          by_cases same : slot = unmapSlot virtualAddr
          · exact Or.inl same
          · rw [markedSlots, markSlot] at marked
            split at marked
            · exact Or.inr ⟨inTable, marked⟩
            · rw [Function.update_of_ne same] at marked
              exact Or.inr ⟨inTable, marked⟩
        have bound := (Finset.card_le_card more).trans
          (Finset.card_insert_le _ _)
        rw [List.length_cons]
        omega
  by_contra noneFree
  have all : inUse held = Finset.range tempMappingCount := by
    refine Finset.filter_true_of_mem fun slot member => ?_
    by_contra free
    exact noneFree
      ⟨slot, Finset.mem_range.mp member, Bool.eq_false_iff.mpr free⟩
  rw [all, Finset.card_range] at counted
  omega

namespace TempSlots

variable {mgr other : TempMappingManager} {used : Nat → Bool}

theorem congr
    (slots : TempSlots mgr used)
    {others : Nat → Bool}
    (same : ∀ slot < tempMappingCount, used slot = others slot) :
    TempSlots mgr others where
  unlocked := slots.unlocked
  available := fun slot inTable =>
    same slot inTable ▸ slots.available slot inTable
  counted := fun slot inTable => same slot inTable ▸ slots.counted slot inTable
  small := slots.small

/-- The slots in use determine the bit mask. -/
theorem availableSlots_eq
    (slots : TempSlots mgr used)
    (otherSlots : TempSlots other used) :
    other.availableSlots = mgr.availableSlots := by
  refine Nat.eq_of_testBit_eq fun slot => ?_
  by_cases inTable : slot < tempMappingCount
  · rw [slots.available slot inTable, otherSlots.available slot inTable]
  · have range : 2 ^ tempMappingCount ≤ 2 ^ slot :=
      Nat.pow_le_pow_right (by decide) (Nat.le_of_not_lt inTable)
    rw [Nat.testBit_lt_two_pow (slots.small.trans_le range),
      Nat.testBit_lt_two_pow (otherSlots.small.trans_le range)]

theorem sameSlots
    {before after : KernelState}
    (slots : TempSlots before.tempMgr used)
    (afterSlots : TempSlots after.tempMgr used) :
    SameSlots before after where
  available := slots.availableSlots_eq afterSlots
  counted := fun slot inTable => (afterSlots.counted slot inTable).trans
    (slots.counted slot inTable).symm

end TempSlots

theorem tempSlots_tempMappingInit : TempSlots tempMappingInit fun _ => false :=
  ⟨slots_tempMappingInit, by decide⟩

/-! ## The two calls, whatever the page tables are -/

/-- Nothing happens to the slots while the lock is held. -/
def KeptLocked (before after : KernelState) : Prop :=
  before.tempMgr.lock = true → after.tempMgr = before.tempMgr

instance : IsPreorder KernelState KeptLocked where
  refl := fun _ _ => rfl
  trans := fun before middle after first second locked => by
    have same := first locked
    exact (second (same ▸ locked)).trans same

theorem memoryKeeps_locked : MemoryKeeps KeptLocked :=
  ⟨fun _ _ _ => rfl⟩

/-- The lock cannot be taken again. -/
theorem locked_acquire {Value : Type} (rest : Unit → Kernel Value) :
    Preserves KeptLocked (acquireTempLock >>= rest) := by
  intro state value next run locked
  obtain ⟨_, _, acquired, _⟩ := bind_eq_some.mp run
  rw [acquireTempLock, if_pos locked] at acquired
  cases acquired

theorem locked_tempUnmapPage (virtualAddr : Nat) :
    Preserves KeptLocked (tempUnmapPage virtualAddr) := by
  rw [tempUnmapPage]
  exact .ite (.pure ()) (locked_acquire _)

theorem locked_tempMapPageNested (depth physicalAddr : Nat) :
    Preserves KeptLocked (tempMapPageNested depth physicalAddr) := by
  cases depth with
  | zero =>
      intro state value next run
      cases run
  | succ depth =>
      rw [tempMapPageNested]
      exact .ite (.pure 0) (locked_acquire _)

theorem locked_mapPage (depth virtualAddr physicalAddr flags : Nat) :
    Preserves KeptLocked
      (mapPage (tempMapPageNested depth) virtualAddr physicalAddr flags) := by
  have keeps := memoryKeeps_locked
  rw [mapPage]
  refine (load32_preserves _).bind fun _ => ?_
  refine .ite ?_ (keeps.of_store32 _ _)
  refine .bind (.of_some fun _ _ => rfl) fun _ => ?_
  refine (locked_tempMapPageNested depth _).bind fun _ => ?_
  refine (keeps.of_memset _ _ _).bind fun _ => ?_
  refine (keeps.of_store32 _ _).bind fun _ => ?_
  exact (locked_tempUnmapPage _).bind fun _ => keeps.of_store32 _ _

section Calls

variable {state : KernelState} {used : Nat → Bool}

/--
A call of `temp_map_page` that returns takes the slot of its result.  It
returns 0 only for an address inside a page or when no slot is free.
-/
theorem tempMapPage_slots
    (slots : TempSlots state.tempMgr used)
    (physicalAddr : Nat) :
    Ensures (tempMapPage physicalAddr) state fun virtualAddr next =>
      Unused used virtualAddr ∧
      TempSlots next.tempMgr (markSlot used virtualAddr true) ∧
      (virtualAddr = 0 → 2 ^ 12 ∣ physicalAddr →
        ∀ slot < tempMappingCount, used slot = true) := by
  have unchanged : TempSlots state.tempMgr (markSlot used 0 true) := by
    rwa [markSlot, if_pos outsideWindows_zero]
  by_cases aligned : 2 ^ 12 ∣ physicalAddr
  swap
  · exact Ensures.of_eq (tempMapPage_unaligned aligned)
      ⟨Or.inl outsideWindows_zero, unchanged,
        fun _ isAligned => absurd isAligned aligned⟩
  rcases exists_lowest used with full | ⟨slot, inTable, free, lowest⟩
  · exact Ensures.of_eq (tempMapPage_full slots.toSlots full aligned)
      ⟨Or.inl outsideWindows_zero, unchanged, fun _ _ => full⟩
  have lowBits := pageOffset_eq_zero_iff.mpr aligned
  have found := slots.findSlot_eq inTable free lowest
  rw [tempMapPage, tempMapPageNested, if_neg (not_not.mpr lowBits)]
  refine Ensures.step slots.acquire (Ensures.step rfl ?_)
  simp only [KernelState.withTempMgr_tempMgr, found]
  refine (locked_mapPage _ _ _ _ _).bind fun _ next kept => ?_
  have mgr : next.tempMgr = { state.tempMgr with lock := true } := kept rfl
  refine Ensures.step rfl (Ensures.step rfl (Ensures.step rfl ?_))
  refine Ensures.step rfl (Ensures.step rfl (Ensures.pure ?_))
  refine ⟨unused_windowAddr inTable free, ?_, fun zero => ?_⟩
  · change TempSlots _ (markSlot used (windowAddr slot) true)
    rw [markSlot_windowAddr inTable]
    simp only [KernelState.withTempMgr_tempMgr, mgr]
    exact ⟨slots.take inTable free, Nat.and_le_left.trans_lt slots.small⟩
  · exact absurd zero (windowAddr_ne_zero inTable)

/-- A call of `temp_unmap_page` that returns gives back the slot it computes. -/
theorem tempUnmapPage_slots
    (slots : TempSlots state.tempMgr used)
    (virtualAddr : Nat) :
    Ensures (tempUnmapPage virtualAddr) state fun _ next =>
      TempSlots next.tempMgr (markSlot used virtualAddr false) := by
  rw [markSlot]
  split
  · rename_i outside
    exact Ensures.of_eq (tempUnmapPage_outside outside) slots
  rename_i inside
  have inTable := unmapSlot_lt inside
  cases inUse : used (unmapSlot virtualAddr) with
  | false =>
      rw [← inUse, Function.update_eq_self]
      exact Ensures.of_eq
        (tempUnmapPage_unused inside rfl inTable slots.toSlots inUse) slots
  | true =>
      have counted : state.tempMgr.refCount (unmapSlot virtualAddr) = 1 :=
        (slots.counted_eq_one inTable).mpr inUse
      have slotIs : (tempMappingAddr - virtualAddr) / pageSize =
          unmapSlot virtualAddr := rfl
      have accepted : ¬ (_ ∨ _) := inside
      rw [tempUnmapPage, if_neg accepted]
      refine Ensures.step slots.acquire ?_
      simp only [slotIs, Nat.not_le.mpr inTable, ↓reduceIte]
      refine Ensures.step rfl ?_
      simp only [KernelState.withTempMgr_tempMgr, counted, Nat.one_ne_zero,
        Nat.sub_self, ↓reduceIte]
      refine Ensures.step rfl ?_
      refine (memoryKeeps_locked.of_store32 _ _ _).bind fun _ next kept => ?_
      have mgr := kept rfl
      refine Ensures.step rfl (Ensures.step rfl (Ensures.of_eq rfl ?_))
      simp only [KernelState.withTempMgr_tempMgr, mgr]
      refine ⟨slots.give _, Nat.or_lt_two_pow slots.small ?_⟩
      rw [Nat.one_shiftLeft]
      exact Nat.pow_lt_pow_right (by decide) inTable

end Calls

/-! ## Programs that give back what they take -/

/-- The addresses have been mapped since, the last one first. -/
structure Occupied
    (mgr : TempMappingManager) (used : Nat → Bool) (held : List Nat) :
    Prop where
  free : TakenFree used held
  slots : TempSlots mgr (markedSlots used held)

/-- Between the two states these addresses have been mapped. -/
def Mapped (before after : KernelState) (held : List Nat) : Prop :=
  ∀ used, TempSlots before.tempMgr used → Occupied after.tempMgr used held

/-- The program gives back the addresses in hand and all it takes itself. -/
def Closes {Value : Type} (held : List Nat) (program : Kernel Value) : Prop :=
  ∀ before state, Mapped before state held →
    Ensures program state fun _ next => Mapped before next []

/-- The program gives back all it takes. -/
abbrev Balanced {Value : Type} (program : Kernel Value) : Prop :=
  Preserves (fun before after => Mapped before after []) program

section Occupied

variable {mgr : TempMappingManager} {used : Nat → Bool} {held : List Nat}
variable {virtualAddr other : Nat}

theorem Occupied.swap
    (occupied : Occupied mgr used (virtualAddr :: other :: held)) :
    Occupied mgr used (other :: virtualAddr :: held) := by
  obtain ⟨⟨first, second, others⟩, slots⟩ := occupied
  obtain ⟨firstFree, secondFree, same⟩ := markSlot_swap second first
  refine ⟨⟨secondFree, firstFree, others⟩, ?_⟩
  rw [markedSlots, markedSlots] at slots ⊢
  rwa [same]

theorem Occupied.map
    {state : KernelState}
    (occupied : Occupied state.tempMgr used held)
    (physicalAddr : Nat) :
    Ensures (tempMapPage physicalAddr) state fun virtualAddr next =>
      Occupied next.tempMgr used (virtualAddr :: held) :=
  (tempMapPage_slots occupied.slots physicalAddr).mono
    fun _ _ ⟨unused, slots, _⟩ => ⟨⟨unused, occupied.free⟩, slots⟩

theorem Occupied.unmap
    {state : KernelState}
    (occupied : Occupied state.tempMgr used (virtualAddr :: held)) :
    Ensures (tempUnmapPage virtualAddr) state fun _ next =>
      Occupied next.tempMgr used held := by
  obtain ⟨⟨unused, others⟩, slots⟩ := occupied
  refine (tempUnmapPage_slots slots virtualAddr).mono fun _ _ after => ?_
  rw [markedSlots, markSlot_undo unused] at after
  exact ⟨others, after⟩

end Occupied

section Mapped

variable {before middle after : KernelState} {held : List Nat}

theorem Mapped.refl : Mapped before before [] :=
  fun _ slots => ⟨trivial, slots⟩

theorem Mapped.trans
    (mapped : Mapped before middle held)
    (kept : Mapped middle after []) :
    Mapped before after held := fun used slots =>
  ⟨(mapped used slots).free, (kept _ (mapped used slots).slots).slots⟩

theorem Mapped.of_sameMgr
    (same : after.tempMgr = before.tempMgr) :
    Mapped before after [] :=
  fun _ slots => ⟨trivial, same ▸ slots⟩

instance : IsPreorder KernelState fun before after =>
    Mapped before after [] where
  refl := fun _ => Mapped.refl
  trans := fun _ _ _ first second => first.trans second

theorem memoryKeeps_mapped :
    MemoryKeeps fun before after => Mapped before after [] :=
  ⟨fun _ _ => Mapped.of_sameMgr rfl⟩

end Mapped

namespace Closes

variable {Value Next : Type} {held : List Nat} {virtualAddr other : Nat}
variable {program : Kernel Value} {rest : Value → Kernel Next}

theorem of_balanced (balanced : Balanced program) : Closes [] program :=
  fun _ state mapped => (balanced state).mono fun _ _ => mapped.trans

theorem balanced (closes : Closes [] program) : Balanced program :=
  fun state => closes state state Mapped.refl

theorem step
    (kept : Balanced program)
    (closes : ∀ value, Closes held (rest value)) :
    Closes held (program >>= rest) := fun before state mapped =>
  (kept state).bind fun value next same =>
    closes value before next (mapped.trans same)

theorem map
    {rest : Nat → Kernel Next}
    (physicalAddr : Nat)
    (closes : ∀ virtualAddr, Closes (virtualAddr :: held) (rest virtualAddr)) :
    Closes held (tempMapPage physicalAddr >>= rest) := by
  intro before state mapped virtualAddr next run
  obtain ⟨ptr, middle, first, last⟩ := bind_eq_some.mp run
  exact closes ptr before middle
    (fun used slots => (mapped used slots).map physicalAddr _ _ first) _ _ last

theorem swap
    (closes : Closes (virtualAddr :: other :: held) program) :
    Closes (other :: virtualAddr :: held) program :=
  fun before state mapped => closes before state
    fun used slots => (mapped used slots).swap

theorem unmap
    {rest : Unit → Kernel Next}
    (closes : Closes held (rest ())) :
    Closes (virtualAddr :: held) (tempUnmapPage virtualAddr >>= rest) := by
  intro before state mapped value next run
  obtain ⟨_, middle, first, last⟩ := bind_eq_some.mp run
  exact closes before middle
    (fun used slots => (mapped used slots).unmap _ _ first) _ _ last

/-- The last address is given back at the very end. -/
theorem last : Closes [virtualAddr] (tempUnmapPage virtualAddr) :=
  fun _ _ mapped value next run used slots =>
    (mapped used slots).unmap value next run

theorem ite
    {condition : Prop} [Decidable condition]
    {other : Kernel Value}
    (yes : Closes held program)
    (no : Closes held other) :
    Closes held (if condition then program else other) := by
  split
  · exact yes
  · exact no

end Closes

/-! ## The functions that map pages -/

theorem pmmAllocPages_balanced (order : Nat) :
    Balanced (pmmAllocPages order) :=
  .of_some fun _ => Mapped.of_sameMgr rfl

theorem pmmFreePages_balanced (pageAddr order : Nat) :
    Balanced (pmmFreePages pageAddr order) :=
  .of_some fun _ => Mapped.of_sameMgr rfl

theorem vmmCreateUserSpace_balanced : Balanced vmmCreateUserSpace := by
  have keeps := memoryKeeps_mapped
  refine (pmmAllocPages_balanced 0).bind fun dir => .ite (.pure 0) ?_
  refine Closes.balanced (.map _ fun _ => ?_)
  refine .step (keeps.of_memset _ _ _) fun _ => ?_
  refine .step (keeps.of_copyKernelEntries _ _) fun _ => ?_
  exact .unmap (.of_balanced (.pure dir))

theorem vmmDestroyUserSpace_balanced (pageDir : Nat) :
    Balanced (vmmDestroyUserSpace pageDir) := by
  rw [vmmDestroyUserSpace]
  exact .ite (.pure ()) (pmmFreePages_balanced _ _)

theorem setMapping_balanced
    (pageDirPtr dirIndex pageTable tabIndex page : Nat) :
    Balanced (setMapping pageDirPtr dirIndex pageTable tabIndex page) := by
  have keeps := memoryKeeps_mapped
  refine (keeps.of_store32 _ _).bind fun _ => ?_
  refine Closes.balanced (.map _ fun _ => ?_)
  refine .step (keeps.of_memset _ _ _) fun _ => ?_
  exact .step (keeps.of_store32 _ _) fun _ => .last

/-- The source is given back before the target. -/
theorem copyUserProgram_balanced (binaryPhys userCodePage size : Nat) :
    Balanced (copyUserProgram binaryPhys userCodePage size) := by
  refine Closes.balanced (.map _ fun _ => .map _ fun _ => ?_)
  refine .step (memoryKeeps_mapped.of_memcpy _ _ _) fun _ => ?_
  exact .swap (.unmap .last)

theorem vmmLoadUserProgram_balanced (pageDir binaryPhys size : Nat) :
    Balanced (vmmLoadUserProgram pageDir binaryPhys size) := by
  have alloc := pmmAllocPages_balanced 0
  have free := fun page => pmmFreePages_balanced page 0
  refine alloc.bind fun code => .ite (.pure 0) ?_
  refine alloc.bind fun stack => .ite ((free _).bind fun _ => .pure 0) ?_
  refine Closes.balanced (.map _ fun _ => ?_)
  refine .step alloc fun codeTable => .ite ?_ ?_
  · refine .unmap (.of_balanced ?_)
    exact (free _).bind fun _ => (free _).bind fun _ => .pure 0
  refine .step alloc fun stackTable => .ite ?_ ?_
  · refine .unmap (.of_balanced ?_)
    exact (free _).bind fun _ => (free _).bind fun _ =>
      (free _).bind fun _ => .pure 0
  refine .step (setMapping_balanced _ _ _ _ _) fun _ => ?_
  refine .step (setMapping_balanced _ _ _ _ _) fun _ => .unmap ?_
  exact .of_balanced
    ((copyUserProgram_balanced _ _ _).bind fun _ => .pure 1)

theorem verifyPageTables_balanced (userPageDir : Nat) :
    Balanced (verifyPageTables userPageDir) := by
  refine Closes.balanced (.map _ fun _ => ?_)
  refine .step (load32_preserves _) fun _ => .ite (.map _ fun _ => ?_) .last
  refine .step (load32_preserves _) fun _ => .ite (.ite ?_ ?_) ?_
  · refine .map _ fun _ => .step (dumpUserCode_preserves _ _) fun _ => ?_
    exact .unmap (.unmap .last)
  · exact .unmap .last
  · exact .unmap .last

theorem processCreateFromModule_balanced (moduleName : List UInt8) :
    Balanced (processCreateFromModule moduleName) := by
  refine .bind (.of_some fun _ => Mapped.refl) fun found => ?_
  cases found with
  | none =>
      exact .pure 0
  | some module =>
      refine get_preserves.bind fun state => ?_
      cases findUnusedSlot state.processes with
      | none =>
          exact .pure 0
      | some slot =>
          refine vmmCreateUserSpace_balanced.bind fun dir =>
            .ite (.pure 0) ?_
          have giveUp := (vmmDestroyUserSpace_balanced dir).bind
            fun _ => .pure 0
          refine (vmmLoadUserProgram_balanced _ _ _).bind fun _ =>
            .ite giveUp ?_
          refine (pmmAllocPages_balanced 0).bind fun kernelStack =>
            .ite giveUp ?_
          refine .bind (.of_some fun _ => Mapped.of_sameMgr rfl) fun pid => ?_
          exact (verifyPageTables_balanced dir).bind fun _ => .pure pid

end MatrixOS
