import MatrixOS.SpaceRuns

namespace MatrixOS

open StateOption

/-!
# Creations that fail

A `process_create_from_module` that returns 0 gives back what it has taken,
except when the kernel stack is the request without a page: of the five frames
it has then, it gives back the page directory alone.
-/

/-- What a failed creation has to leave as it was. -/
structure CreationUndone (before after : KernelState) : Prop where
  freePages : after.buddySys.freePages = before.buddySys.freePages
  processes : after.processes = before.processes
  nextPid : after.nextPid = before.nextPid
  lock : after.tempMgr.lock = before.tempMgr.lock
  available : ∀ slot < tempMappingCount,
    after.tempMgr.availableSlots.testBit slot =
      before.tempMgr.availableSlots.testBit slot
  refCount : ∀ slot < tempMappingCount,
    after.tempMgr.refCount slot = before.tempMgr.refCount slot

/-- A creation would take all free pages before it asks for the last one. -/
structure LastRequestRefused
    (name : List UInt8) (state : KernelState) : Prop where
  module : ∃ module,
    state.modules.find? (fun module => module.name = name) = some module
  slot : ∃ slot, findUnusedSlot state.processes = some slot
  free : state.buddySys.freePages.ncard = 5

section Failures

variable {state after : KernelState} {kernelDir windowTable : Nat}
variable {kept : List Nat} {name : List UInt8}

theorem CreationUndone.refl : CreationUndone state state where
  freePages := rfl
  processes := rfl
  nextPid := rfl
  lock := rfl
  available := fun _ _ => rfl
  refCount := fun _ _ => rfl

/-- The processes, and the slots that are free before and after. -/
theorem CreationUndone.of_windows
    (freePages : after.buddySys.freePages = state.buddySys.freePages)
    (same : SameProcesses state after)
    (windows : Windows state kernelDir windowTable fun _ => none)
    (windowsAfter : Windows after kernelDir windowTable fun _ => none) :
    CreationUndone state after where
  freePages := freePages
  processes := same.processes
  nextPid := same.nextPid
  lock := windowsAfter.slots.unlocked.trans windows.slots.unlocked.symm
  available := fun slot bound =>
    (windowsAfter.slots.available slot bound).trans
      (windows.slots.available slot bound).symm
  refCount := fun slot bound =>
    (windowsAfter.slots.counted slot bound).trans
      (windows.slots.counted slot bound).symm

/-- Nothing is missing when every frame has been given back. -/
theorem Takes.freePages_eq
    {before after : Pmm.BuddySystem}
    (takes : Takes before after [])
    (ready : AllocatorReady before) :
    after.freePages = before.freePages := by
  ext page
  rw [takes.mem_freePages ready]
  simp

theorem Loaded.sameProcesses
    {middle last : KernelState} {start size : Nat} {frames : ProgramFrames}
    (loaded : Loaded middle last kernelDir windowTable start size kept
      frames) :
    SameProcesses middle last := by
  rw [loaded.memoryOnly]
  exact ⟨rfl, rfl, rfl⟩

theorem NotLoaded.sameProcesses
    {middle last : KernelState}
    (gaveUp : NotLoaded middle last kernelDir windowTable) :
    SameProcesses middle last := by
  rw [gaveUp.memoryOnly]
  exact ⟨rfl, rfl, rfl⟩

/-- A creation that gives up has undone everything, with one exception. -/
theorem GivenUp.undone_iff
    (ready : MemoryReady state kernelDir windowTable)
    (gaveUp : GivenUp state after kernelDir windowTable kept name) :
    CreationUndone state after ↔ ¬ LastRequestRefused name state := by
  have allocator := ready.allocator
  cases gaveUp with
  | early same why =>
      subst same
      refine iff_of_true CreationUndone.refl fun last => ?_
      obtain ⟨module, found⟩ := last.module
      obtain ⟨slot, unused⟩ := last.slot
      rcases why with noModule | noSlot | noPage
      · rw [found] at noModule
        cases noModule
      · rw [unused] at noSlot
        cases noSlot
      · have free := last.free
        rw [noPage, Set.ncard_empty] at free
        omega
  | @load middle last module slot dir found unused created gaveUp few returned =>
      subst returned
      have one : Takes state.buddySys middle.buddySys [dir] :=
        Takes.refl.alloc created.allocated
      have same : SameProcesses state last :=
        IsTrans.trans _ _ _ created.sameProcesses gaveUp.sameProcesses
      refine iff_of_true (CreationUndone.of_windows ?_
        ⟨same.processes, same.currentProcess, same.nextPid⟩ ready.windows
        (gaveUp.windows.withBuddySys _)) fun lastRequest => few ?_
      · exact (one.trans gaveUp.takes).free.freePages_eq allocator
      · have count := one.ncard_freePages allocator
        have free := lastRequest.free
        simp only [List.length_singleton] at count
        exact created.ready.allocator.freeAtLeast_iff.mpr (by omega)
  | @kernelStack middle last module slot frames found unused created loaded none
      returned =>
      subst returned
      have five := (Takes.refl.alloc created.allocated).trans loaded.takes
      have four := (five.perm (List.perm_append_singleton _ _)).free
      have countAll := five.ncard_freePages allocator
      have countLost := four.ncard_freePages allocator
      rw [none, Set.ncard_empty] at countAll
      simp only [List.length_cons, List.length_append, List.length_nil]
        at countAll countLost
      refine iff_of_false (fun undone => ?_) fun intact => intact
        ⟨⟨module, found⟩, ⟨slot, unused⟩, by omega⟩
      have same := undone.freePages
      rw [KernelState.withBuddySys_buddySys] at same
      rw [same] at countLost
      omega

/-- With five free pages a creation gives up at its last request. -/
theorem processCreateFromModule_refused
    {module : ModuleInfo}
    (ready : MemoryReady state kernelDir windowTable)
    (refused : LastRequestRefused name state)
    (found :
      state.modules.find? (fun module => module.name = name) = some module)
    (reserved : Reserved state kernelDir windowTable module.start)
    (inPage : module.size ≤ pageSize) :
    Returns (processCreateFromModule name) state fun pid _ => pid = 0 := by
  obtain ⟨slot, unused⟩ := refused.slot
  have five : FreeAtLeast state.buddySys (0 + 5) :=
    ready.allocator.freeAtLeast_iff.mpr (by rw [refused.free])
  obtain ⟨frames, middle, last, createdRun, loadedRun, built, loaded, _⟩ :=
    userSpace_loaded ready reserved inPage five
  have allocator := loaded.takes.ready built.ready.allocator
  have none : ¬ FreeAtLeast last.buddySys 1 := by
    have count := ((Takes.refl.alloc built.allocated).trans
      loaded.takes).ncard_freePages ready.allocator
    rw [refused.free] at count
    simp only [List.length_cons, List.length_append, List.length_nil] at count
    rw [allocator.freeAtLeast_iff]
    omega
  have failed : Pmm.pmmAllocPages last.buddySys 0 = (0, last.buddySys) := by
    rcases allocator.alloc_cases with ⟨frame, sys, taken, _⟩ | failed
    · refine absurd (allocator.freeAtLeast_iff.mpr ?_) none
      exact (Set.ncard_pos allocator.finite_freePages).mpr ⟨_, taken.wasFree⟩
    · exact failed
  have lookup : loaderFindModule name state = some (some module, state) := by
    rw [loaderFindModule, found]
  have current : (get : Kernel KernelState) state = some (state, state) := rfl
  rw [processCreateFromModule]
  refine Returns.step lookup (Returns.step current ?_)
  rw [unused]
  refine Returns.step createdRun ?_
  rw [if_neg built.allocated.nonzero]
  refine Returns.step loadedRun ?_
  rw [if_neg Nat.one_ne_zero]
  refine Returns.step (pmmAllocPages_eq failed) ?_
  rw [if_pos rfl]
  exact Returns.step (vmmDestroyUserSpace_nonzero built.allocated.nonzero)
    (Returns.pure rfl)

end Failures

/-! ## In every run -/

section Runs

variable {initial : KernelState} {bootDir windowTable : Nat}
variable {reserved : List Pmm.PageBlock} {pool : Set Nat} {run : SpaceRun}

theorem SpaceInvariant.undone_iff
    {frames : Nat → ProcessFrames} {lost : List Nat}
    {name : List UInt8} {next : KernelState}
    (start : SpaceInitial initial bootDir windowTable reserved pool)
    (invariant : SpaceInvariant initial bootDir windowTable reserved pool run
      frames lost)
    (owned : DirectoryOwned bootDir run.state)
    (failed : processCreateFromModule name run.state = some (0, next)) :
    CreationUndone run.state next ↔ ¬ LastRequestRefused name run.state := by
  obtain ⟨tables, modules⟩ := invariant.modulesReady start owned name
  have ready := invariant.memoryReady start owned
  rcases processCreateFromModule_outcome ready
      (fun module found => (modules module found).2) _ _ failed with
    ⟨_, _, _, _, _, _, _, isPid, _⟩ | ⟨_, gaveUp⟩
  · have counted := invariant.pids.counted
    omega
  · exact gaveUp.undone_iff ready

/--
A creation that returns 0 leaves everything as it was, unless it is the kernel
stack for which no page is left.
-/
theorem failedCreation_undone_iff
    {name : List UInt8} {next : KernelState}
    (start : SpaceInitial initial bootDir windowTable reserved pool)
    (reached : SpaceReachable (SpaceCall.Permitted bootDir) initial run)
    (allowed : (SpaceCall.process (.create name)).Permitted bootDir run)
    (failed : processCreateFromModule name run.state = some (0, next)) :
    CreationUndone run.state next ↔ ¬ LastRequestRefused name run.state := by
  obtain ⟨frames, lost, invariant⟩ := reached.right start
  exact invariant.undone_iff start allowed failed

/-- The rest of the kernel can take pages until `count` are left. -/
theorem SpaceReachable.drained
    {count taken : Nat}
    (start : SpaceInitial initial bootDir windowTable reserved pool)
    (reached : SpaceReachable (SpaceCall.Permitted bootDir) initial run)
    (free : run.state.buddySys.freePages.ncard = count + taken) :
    ∃ sys others,
      SpaceReachable (SpaceCall.Permitted bootDir) initial
        ⟨run.state.withBuddySys sys, others⟩ ∧
      sys.freePages.ncard = count := by
  induction taken generalizing run with
  | zero =>
      exact ⟨run.state.buddySys, run.others, reached, free⟩
  | succ taken inductionHypothesis =>
      obtain ⟨frames, lost, invariant⟩ := reached.right start
      have ready : AllocatorReady run.state.buddySys :=
        ⟨_, pool, invariant.allocator⟩
      have one : FreeAtLeast run.state.buddySys (0 + 1) :=
        ready.freeAtLeast_iff.mpr (by omega)
      obtain ⟨frame, sys, allocated, _⟩ := one.take ready
      have less := (Takes.refl.alloc allocated).ncard_freePages ready
      rw [List.length_singleton] at less
      let next : SpaceRun :=
        ⟨run.state.withBuddySys sys, ⟨frame, 0⟩ :: run.others⟩
      have performed : (SpaceCall.allocate 0).perform run = some next := by
        rw [SpaceCall.perform, allocated.run]
        simp only [if_neg allocated.nonzero, next]
      have left : next.state.buddySys.freePages.ncard = count + taken := by
        simp only [next, KernelState.withBuddySys_buddySys]
        omega
      obtain ⟨last, others, lastReached, lastFree⟩ :=
        inductionHypothesis (reached.call (.allocate 0) trivial performed) left
      exact ⟨last, others, lastReached, lastFree⟩

end Runs

/-! ## A first failure -/

/-- The module is asked for when five pages are free. -/
theorem demoKernel_refused :
    ∃ (run : SpaceRun) (next : KernelState),
      SpaceReachable (SpaceCall.Permitted 0x110000) demoKernel run ∧
      (SpaceCall.process (.create [0x61])).Permitted 0x110000 run ∧
      LastRequestRefused [0x61] run.state ∧
      processCreateFromModule [0x61] run.state = some (0, next) := by
  have start := spaceInitial_demoKernel
  have booted : SpaceReachable (SpaceCall.Permitted 0x110000) demoKernel
      ⟨demoKernel, []⟩ := .init
  have enough : FreeAtLeast demoKernel.buddySys 4096 := bootFree [demoModule]
  have most := (bootReady [demoModule]).allocator.freeAtLeast_iff.mp enough
  obtain ⟨sys, others, reached, five⟩ := booted.drained start
    (show demoKernel.buddySys.freePages.ncard =
      5 + (demoKernel.buddySys.freePages.ncard - 5) by
        have : 4096 ≤ demoKernel.buddySys.freePages.ncard := most
        omega)
  have allowed : DirectoryOwned 0x110000 (demoKernel.withBuddySys sys) :=
    Or.inl rfl
  obtain ⟨frames, lost, invariant⟩ := reached.right start
  have refused : LastRequestRefused [0x61] (demoKernel.withBuddySys sys) :=
    ⟨⟨demoModule, rfl⟩, ⟨0, rfl⟩, five⟩
  obtain ⟨tables, modules⟩ := invariant.modulesReady start allowed [0x61]
  obtain ⟨pid, next, run, rfl⟩ := processCreateFromModule_refused
    (invariant.memoryReady start allowed) refused rfl
    (modules demoModule rfl).2.reserved (by decide)
  exact ⟨_, next, reached, allowed, refused, run⟩

theorem failedCreation_undone_iff_demoKernel :
    ∃ (run : SpaceRun) (next : KernelState),
      processCreateFromModule [0x61] run.state = some (0, next) ∧
      LastRequestRefused [0x61] run.state ∧
      (CreationUndone run.state next ↔ ¬ LastRequestRefused [0x61] run.state) := by
  obtain ⟨run, next, reached, allowed, refused, failed⟩ := demoKernel_refused
  exact ⟨run, next, failed, refused, failedCreation_undone_iff
    spaceInitial_demoKernel reached allowed failed⟩

/-- Four of the five frames stay taken. -/
theorem failedCreation_not_undone :
    ∃ (run : SpaceRun) (next : KernelState),
      SpaceReachable (SpaceCall.Permitted 0x110000) demoKernel run ∧
      processCreateFromModule [0x61] run.state = some (0, next) ∧
      ¬ CreationUndone run.state next := by
  obtain ⟨run, next, reached, allowed, refused, failed⟩ := demoKernel_refused
  obtain ⟨frames, lost, invariant⟩ := reached.right spaceInitial_demoKernel
  have undone := invariant.undone_iff spaceInitial_demoKernel allowed failed
  exact ⟨run, next, reached, failed, fun intact => undone.mp intact refused⟩

end MatrixOS
