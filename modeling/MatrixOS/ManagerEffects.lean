import MatrixOS.PageFrames
import MatrixOS.Process

namespace MatrixOS

open ByteMemory Paging StateOption

/-!
# What the memory manager leaves alone

Mapping, clearing and copying pages change memory, the temporary mappings and
the page allocator, whatever the page tables are.  Nothing is said here about
whether they return.
-/

section Reads

variable {relation : KernelState → KernelState → Prop}
variable [IsPreorder KernelState relation]

theorem load8_preserves (ptr : Nat) : Preserves relation (load8 ptr) :=
  .of_map fun _ _ => Std.Refl.refl _

theorem load32_preserves (ptr : Nat) : Preserves relation (load32 ptr) :=
  .of_map fun _ _ => Std.Refl.refl _

theorem get_preserves :
    Preserves relation (get : Kernel KernelState) :=
  .of_some fun _ => Std.Refl.refl _

theorem dumpUserCode_preserves (userCode count : Nat) :
    Preserves relation (dumpUserCode userCode count) := by
  induction count with
  | zero =>
      exact .pure ()
  | succ count inductionHypothesis =>
      exact inductionHypothesis.bind fun _ =>
        (load8_preserves _).bind fun _ => .pure ()

end Reads

/-- A relation that every write to memory keeps. -/
structure MemoryKeeps (relation : KernelState → KernelState → Prop) : Prop where
  mem : ∀ state mem, relation state (state.withMem mem)

namespace MemoryKeeps

variable {relation : KernelState → KernelState → Prop}
variable (keeps : MemoryKeeps relation)
include keeps

theorem of_store8 (ptr : Nat) (byte : UInt8) :
    Preserves relation (store8 ptr byte) :=
  .of_map fun _ _ => keeps.mem _ _

theorem of_store32 (ptr value : Nat) :
    Preserves relation (store32 ptr value) :=
  .of_map fun _ _ => keeps.mem _ _

variable [IsPreorder KernelState relation]

theorem of_memset (ptr value num : Nat) :
    Preserves relation (memset virtualAccess ptr value num) := by
  induction num with
  | zero =>
      exact .pure ()
  | succ i inductionHypothesis =>
      exact inductionHypothesis.bind fun _ => keeps.of_store8 _ _

theorem of_memcpy (ptr src num : Nat) :
    Preserves relation (memcpy virtualAccess ptr src num) := by
  induction num with
  | zero =>
      exact .pure ()
  | succ i inductionHypothesis =>
      exact inductionHypothesis.bind fun _ =>
        (load8_preserves _).bind fun _ => keeps.of_store8 _ _

theorem of_copyKernelEntries (pageDir count : Nat) :
    Preserves relation (copyKernelEntries pageDir count) := by
  induction count with
  | zero =>
      exact .pure ()
  | succ count inductionHypothesis =>
      exact inductionHypothesis.bind fun _ =>
        (load32_preserves _).bind fun _ => keeps.of_store32 _ _

end MemoryKeeps

/-- A relation that every step of the memory manager keeps. -/
structure ManagerKeeps (relation : KernelState → KernelState → Prop) : Prop
    extends MemoryKeeps relation where
  tempMgr : ∀ state mgr, relation state (state.withTempMgr mgr)
  alloc : ∀ state : KernelState, relation state
    (state.withBuddySys (Pmm.pmmAllocPages state.buddySys 0).2)

namespace ManagerKeeps

variable {relation : KernelState → KernelState → Prop}
variable (keeps : ManagerKeeps relation)
include keeps

theorem of_pmmAllocPages : Preserves relation (pmmAllocPages 0) :=
  .of_some fun _ => keeps.alloc _

theorem of_acquireTempLock :
    Preserves relation acquireTempLock := by
  intro state value next run
  rw [acquireTempLock] at run
  split at run
  · cases run
  · obtain ⟨_, rfl⟩ := Prod.mk.inj (Option.some.inj run)
    exact keeps.tempMgr _ _

theorem of_releaseTempLock :
    Preserves relation releaseTempLock :=
  .of_some fun _ => keeps.tempMgr _ _

theorem of_setRefCount (slot count : Nat) :
    Preserves relation (setRefCount slot count) :=
  .of_some fun _ => keeps.tempMgr _ _

theorem of_setAvailableSlots (slots : Nat) :
    Preserves relation (setAvailableSlots slots) :=
  .of_some fun _ => keeps.tempMgr _ _

variable [IsPreorder KernelState relation]

theorem of_tempUnmapPage (virtualAddr : Nat) :
    Preserves relation (tempUnmapPage virtualAddr) := by
  rw [tempUnmapPage]
  refine .ite (.pure ()) ?_
  refine keeps.of_acquireTempLock.bind fun _ => ?_
  refine .ite (keeps.of_releaseTempLock.bind fun _ => .pure ()) ?_
  refine get_preserves.bind fun _ => ?_
  refine .ite (keeps.of_releaseTempLock.bind fun _ => .pure ()) ?_
  refine (keeps.of_setRefCount _ _).bind fun _ => ?_
  refine .ite ?_ keeps.of_releaseTempLock
  refine (keeps.of_store32 _ _).bind fun _ => ?_
  refine get_preserves.bind fun _ => ?_
  exact (keeps.of_setAvailableSlots _).bind fun _ =>
    keeps.of_releaseTempLock

theorem of_mapPage
    {tempMap : Nat → Kernel Nat}
    (nested : ∀ page, Preserves relation (tempMap page))
    (virtualAddr physicalAddr flags : Nat) :
    Preserves relation
      (mapPage tempMap virtualAddr physicalAddr flags) := by
  rw [mapPage]
  refine (load32_preserves _).bind fun _ => ?_
  refine .ite ?_ (keeps.of_store32 _ _)
  refine keeps.of_pmmAllocPages.bind fun _ => ?_
  refine (nested _).bind fun _ => ?_
  refine (keeps.of_memset _ _ _).bind fun _ => ?_
  refine (keeps.of_store32 _ _).bind fun _ => ?_
  exact (keeps.of_tempUnmapPage _).bind fun _ =>
    keeps.of_store32 _ _

theorem of_tempMapPageNested (depth physicalAddr : Nat) :
    Preserves relation (tempMapPageNested depth physicalAddr) := by
  induction depth generalizing physicalAddr with
  | zero =>
      intro state value next run
      cases run
  | succ depth inductionHypothesis =>
      rw [tempMapPageNested]
      refine .ite (.pure 0) ?_
      refine keeps.of_acquireTempLock.bind fun _ => ?_
      refine get_preserves.bind fun state => ?_
      cases findSlot state.tempMgr.availableSlots with
      | none =>
          exact keeps.of_releaseTempLock.bind fun _ => .pure 0
      | some slot =>
          refine (keeps.of_mapPage inductionHypothesis _ _ _).bind
            fun _ => ?_
          refine get_preserves.bind fun _ => ?_
          refine (keeps.of_setAvailableSlots _).bind fun _ => ?_
          refine get_preserves.bind fun _ => ?_
          refine (keeps.of_setRefCount _ _).bind fun _ => ?_
          exact keeps.of_releaseTempLock.bind fun _ => .pure _

theorem of_tempMapPage (physicalAddr : Nat) :
    Preserves relation (tempMapPage physicalAddr) :=
  keeps.of_tempMapPageNested 2 physicalAddr

theorem of_vmmCreateUserSpace :
    Preserves relation vmmCreateUserSpace := by
  refine keeps.of_pmmAllocPages.bind fun _ => ?_
  refine .ite (.pure 0) ?_
  refine (keeps.of_tempMapPage _).bind fun _ => ?_
  refine (keeps.of_memset _ _ _).bind fun _ => ?_
  refine (keeps.of_copyKernelEntries _ _).bind fun _ => ?_
  exact (keeps.of_tempUnmapPage _).bind fun _ => .pure _

theorem of_setMapping
    (pageDirPtr dirIndex pageTable tabIndex page : Nat) :
    Preserves relation
      (setMapping pageDirPtr dirIndex pageTable tabIndex page) := by
  refine (keeps.of_store32 _ _).bind fun _ => ?_
  refine (keeps.of_tempMapPage _).bind fun _ => ?_
  refine (keeps.of_memset _ _ _).bind fun _ => ?_
  exact (keeps.of_store32 _ _).bind fun _ =>
    keeps.of_tempUnmapPage _

theorem of_copyUserProgram (binaryPhys userCodePage size : Nat) :
    Preserves relation (copyUserProgram binaryPhys userCodePage size) := by
  refine (keeps.of_tempMapPage _).bind fun _ => ?_
  refine (keeps.of_tempMapPage _).bind fun _ => ?_
  refine (keeps.of_memcpy _ _ _).bind fun _ => ?_
  exact (keeps.of_tempUnmapPage _).bind fun _ =>
    keeps.of_tempUnmapPage _

theorem of_verifyPageTables (userPageDir : Nat) :
    Preserves relation (verifyPageTables userPageDir) := by
  have unmap := keeps.of_tempUnmapPage
  refine (keeps.of_tempMapPage _).bind fun _ => ?_
  refine (load32_preserves _).bind fun _ => .ite ?_ (unmap _)
  refine (keeps.of_tempMapPage _).bind fun _ => ?_
  refine (load32_preserves _).bind fun _ => .ite ?_ ?_
  · refine .ite ?_ ?_
    · refine (keeps.of_tempMapPage _).bind fun _ => ?_
      refine (dumpUserCode_preserves _ _).bind fun _ => ?_
      exact (unmap _).bind fun _ => (unmap _).bind fun _ => unmap _
    · exact (unmap _).bind fun _ => unmap _
  · exact (unmap _).bind fun _ => unmap _

end ManagerKeeps

/-! ## Frames in hand -/

/-- Nothing but memory, the windows and the allocator has changed. -/
structure SameProcesses (before after : KernelState) : Prop where
  processes : after.processes = before.processes
  currentProcess : after.currentProcess = before.currentProcess
  nextPid : after.nextPid = before.nextPid

instance : IsPreorder KernelState SameProcesses where
  refl := fun _ => ⟨rfl, rfl, rfl⟩
  trans := fun _ _ _ first second =>
    ⟨second.processes.trans first.processes,
      second.currentProcess.trans first.currentProcess,
      second.nextPid.trans first.nextPid⟩

/--
The manager holds these frames, and perhaps others: page tables that had to be
allocated on the way.
-/
structure Holding
    (before after : KernelState) (frames : List Nat) : Prop where
  same : SameProcesses before after
  cr3 : after.cr3 = before.cr3
  takes : ∃ others, Takes before.buddySys after.buddySys (frames ++ others)

namespace Holding

variable {before middle after : KernelState} {frames others : List Nat}
variable {frame : Nat}

theorem refl : Holding before before [] :=
  ⟨Std.Refl.refl before, rfl, [], Takes.refl⟩

theorem trans
    (first : Holding before middle frames)
    (second : Holding middle after others) :
    Holding before after (others ++ frames) := by
  obtain ⟨firstMore, firstTakes⟩ := first.takes
  obtain ⟨secondMore, secondTakes⟩ := second.takes
  refine ⟨IsTrans.trans _ _ _ first.same second.same,
    second.cr3.trans first.cr3, secondMore ++ firstMore, ?_⟩
  refine (firstTakes.trans secondTakes).perm ?_
  rw [List.append_assoc, List.append_assoc]
  refine List.Perm.append_left others ?_
  rw [← List.append_assoc, ← List.append_assoc]
  exact List.perm_append_comm.append_right firstMore

theorem perm
    (holding : Holding before after frames)
    (permutation : frames.Perm others) :
    Holding before after others := by
  obtain ⟨more, takes⟩ := holding.takes
  exact ⟨holding.same, holding.cr3, more,
    takes.perm (permutation.append_right more)⟩

/-- A frame in hand is given back. -/
theorem free
    (holding : Holding before after (frame :: frames)) :
    Holding before
      (after.withBuddySys (Pmm.pmmFreePages after.buddySys frame 0))
      frames := by
  obtain ⟨more, takes⟩ := holding.takes
  have same := holding.same
  exact ⟨⟨same.processes, same.currentProcess, same.nextPid⟩, holding.cr3,
    more, takes.free⟩

end Holding

instance : IsPreorder KernelState fun before after =>
    Holding before after [] where
  refl := fun _ => Holding.refl
  trans := fun _ _ _ first second => first.trans second

theorem pmmAllocPages_takes
    {before : Pmm.BuddySystem} {frame : Nat} {after : Pmm.BuddySystem}
    (run : Pmm.pmmAllocPages before 0 = (frame, after)) :
    Takes before after (if frame = 0 then [] else [frame]) := by
  intro live pool invariant
  rcases invariant.pmmAllocPages_cases 0 with ⟨failed, _⟩ | ⟨found, _, _, kept⟩
  · obtain ⟨rfl, rfl⟩ := Prod.mk.inj (run.symm.trans failed)
    exact invariant
  · rw [run] at found kept
    rw [if_neg found]
    exact kept

theorem managerKeeps_holding :
    ManagerKeeps fun before after => Holding before after [] where
  mem := fun state mem => ⟨⟨rfl, rfl, rfl⟩, rfl, [], Takes.refl⟩
  tempMgr := fun state mgr => ⟨⟨rfl, rfl, rfl⟩, rfl, [], Takes.refl⟩
  alloc := by
    intro state
    refine ⟨⟨rfl, rfl, rfl⟩, rfl, ?_⟩
    exact ⟨_, pmmAllocPages_takes rfl⟩

section Programs

variable {before state : KernelState} {frames : List Nat}
variable {Value Next : Type}

/-- A step that gives nothing back. -/
theorem Holding.step
    {program : Kernel Value} {rest : Value → Kernel Next}
    {post : Next → KernelState → Prop}
    (holding : Holding before state frames)
    (grows : Preserves (fun before after => Holding before after []) program)
    (next : ∀ value state, Holding before state frames →
      Ensures (rest value) state post) :
    Ensures (program >>= rest) state post :=
  (grows state).bind fun value later more =>
    next value later (holding.trans more)

/-- An allocation that is checked. -/
theorem Holding.alloc
    {fail : Kernel Next} {rest : Nat → Kernel Next}
    {post : Next → KernelState → Prop}
    (holding : Holding before state frames)
    (failed : ∀ state, Holding before state frames → Ensures fail state post)
    (next : ∀ frame state, frame ≠ 0 → Holding before state (frame :: frames) →
      Ensures (rest frame) state post) :
    Ensures (pmmAllocPages 0 >>= fun frame =>
      if frame = 0 then fail else rest frame) state post := by
  rcases run : Pmm.pmmAllocPages state.buddySys 0 with ⟨frame, after⟩
  have taken := pmmAllocPages_takes run
  have allocated : pmmAllocPages 0 state =
      some (frame, state.withBuddySys after) := by
    rw [pmmAllocPages, run]
  refine Ensures.step allocated ?_
  by_cases zero : frame = 0
  · rw [if_pos zero] at taken ⊢
    have one : Holding state (state.withBuddySys after) [] :=
      ⟨⟨rfl, rfl, rfl⟩, rfl, [], taken⟩
    exact failed _ (holding.trans one)
  · rw [if_neg zero] at taken ⊢
    have one : Holding state (state.withBuddySys after) [frame] :=
      ⟨⟨rfl, rfl, rfl⟩, rfl, [], taken⟩
    exact next frame _ zero (holding.trans one)

end Programs

end MatrixOS
