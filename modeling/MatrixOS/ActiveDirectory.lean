import MatrixOS.ProcessCycles

namespace MatrixOS

open ByteMemory StateOption

/-!
# The active page directory

Runs of the kernel with user code in them.  `switch_to_user_mode` loads `cr3`
with the directory of the process it starts, and no other code does.  A system
call returns to the process through the epilogue of `syscall_entry`, the one
that ends the process, too.
-/

/-- The kernel, and whether the CPU goes on with user code. -/
structure CpuState where
  kernel : KernelState
  userMode : Bool

/-- A process may change memory as it likes. -/
inductive CpuStep where
  | create (moduleName : List UInt8)
  | start (pid : Nat)
  | userCode (mem : Memory)
  | syscall (eax : Nat)

def CpuStep.perform (state : CpuState) : CpuStep → Option CpuState
  | create moduleName =>
      (processCreateFromModule moduleName state.kernel).map
        fun (_, kernel) => ⟨kernel, state.userMode⟩
  | start pid =>
      (processStart pid state.kernel).map
        fun (frame, kernel) => ⟨kernel, state.userMode || frame.isSome⟩
  | userCode mem =>
      if state.userMode then some ⟨state.kernel.withMem mem, true⟩ else none
  | syscall eax =>
      if state.userMode then
        (syscallHandler eax state.kernel).map fun (_, kernel) => ⟨kernel, true⟩
      else none

/-- The states of the runs whose steps are permitted. -/
inductive CpuReachable
    (permitted : CpuState → CpuStep → Prop) (initial : CpuState) :
    CpuState → Prop
  | init : CpuReachable permitted initial initial
  | step {state next : CpuState} (step : CpuStep)
      (reached : CpuReachable permitted initial state)
      (allowed : permitted state step)
      (performed : step.perform state = some next) :
      CpuReachable permitted initial next

/-- No process ends. -/
def NoExit (state : CpuState) (step : CpuStep) : Prop :=
  step = .syscall syscallExit → state.kernel.currentProcess = none

/-- The directory in `cr3` is not free and will not be handed out next. -/
structure DirectoryInUse (state : KernelState) : Prop where
  held : Held state.buddySys state.cr3
  notReturned : ∀ order, (Pmm.pmmAllocPages state.buddySys order).1 ≠ 0 →
    state.cr3 / pageSize ∉
      Pmm.PageBlock.pages
        ⟨(Pmm.pmmAllocPages state.buddySys order).1, order⟩

/-- Nobody gets a page that is in use. -/
theorem Held.notReturned
    {sys : Pmm.BuddySystem} {frame order : Nat}
    (held : Held sys frame)
    (ready : AllocatorReady sys)
    (success : (Pmm.pmmAllocPages sys order).1 ≠ 0) :
    frame / pageSize ∉
      Pmm.PageBlock.pages ⟨(Pmm.pmmAllocPages sys order).1, order⟩ := by
  intro inside
  obtain ⟨live, pool, invariant⟩ := ready
  rcases invariant.pmmAllocPages_cases order with ⟨failed, _⟩ | ⟨_, _, _, kept⟩
  · exact success (congrArg Prod.fst failed)
  · refine held (invariant.mem_freePages_iff.mpr ⟨?_, fun block isLive other => ?_⟩)
    · exact kept.tiles.extent_subset (by simp) inside
    · exact Set.disjoint_left.mp
        (kept.tiles.head_disjoint (List.mem_append_left _ isLive)) inside other

/-- The directories of the processes that can be started are in use. -/
structure DirectoriesHeld (state : CpuState) : Prop where
  allocator : AllocatorReady state.kernel.buddySys
  waiting : ∀ slot, (state.kernel.processes slot).state = .ready →
    Held state.kernel.buddySys (state.kernel.processes slot).pageDirectory
  active : state.userMode = true →
    Held state.kernel.buddySys state.kernel.cr3

namespace DirectoriesHeld

variable {state next : CpuState} {kernel : KernelState} {slot : Nat}

/-- A step that takes frames at most. -/
theorem of_holding
    (directories : DirectoriesHeld state)
    (holding : Holding state.kernel kernel []) :
    DirectoriesHeld ⟨kernel, state.userMode⟩ := by
  obtain ⟨others, takes⟩ := holding.takes
  have ready := directories.allocator
  refine ⟨takes.ready ready, fun slot isReady => ?_, fun userMode => ?_⟩
  · rw [holding.same.processes] at isReady ⊢
    exact takes.keeps ready (directories.waiting slot isReady)
  · rw [holding.cr3]
    exact takes.keeps ready (directories.active userMode)

theorem create
    {pid : Nat} {moduleName : List UInt8}
    (directories : DirectoriesHeld state)
    (run : processCreateFromModule moduleName state.kernel =
      some (pid, kernel)) :
    DirectoriesHeld ⟨kernel, state.userMode⟩ := by
  rcases processCreateFromModule_table moduleName pid _ run with
    ⟨_, none⟩ | ⟨_, slot, frames, others, entered, _, cr3, takes⟩
  · exact directories.of_holding none
  have ready := directories.allocator
  refine ⟨takes.ready ready, fun other isReady => ?_, fun userMode => ?_⟩
  · dsimp only at isReady ⊢
    rw [entered.processes] at isReady ⊢
    by_cases here : other = slot
    · subst here
      rw [Function.update_self]
      exact takes.held ready (by simp [ProcessFrames.owned, ProcessFrames.pcb])
    · rw [Function.update_of_ne here] at isReady ⊢
      exact takes.keeps ready (directories.waiting other isReady)
  · rw [cr3]
    exact takes.keeps ready (directories.active userMode)

theorem start
    {userMode : Bool}
    (directories : DirectoriesHeld state)
    (isReady : (state.kernel.processes slot).state = .ready) :
    DirectoriesHeld ⟨state.kernel.started slot, userMode⟩ := by
  refine ⟨?_, fun other otherReady => ?_, fun _ => ?_⟩
  · rw [KernelState.started_buddySys]
    exact directories.allocator
  · dsimp only at otherReady ⊢
    rw [KernelState.started_buddySys]
    rw [KernelState.started_processes] at otherReady ⊢
    by_cases here : other = slot
    · simp [here] at otherReady
    · rw [Function.update_of_ne here] at otherReady ⊢
      exact directories.waiting other otherReady
  · dsimp only
    rw [KernelState.started_buddySys, KernelState.started_cr3]
    exact directories.waiting slot isReady

theorem userCode
    (directories : DirectoriesHeld state)
    (userMode : state.userMode = true)
    (mem : Memory) :
    DirectoriesHeld ⟨state.kernel.withMem mem, true⟩ :=
  ⟨directories.allocator, directories.waiting, fun _ =>
    directories.active userMode⟩

/-- A system call that ends no process leaves the tables alone. -/
theorem syscall
    {eax : Nat}
    (directories : DirectoriesHeld state)
    (userMode : state.userMode = true)
    (allowed : NoExit state (.syscall eax))
    (run : syscallHandler eax state.kernel = some ((), kernel)) :
    DirectoriesHeld ⟨kernel, true⟩ := by
  have same : kernel = state.kernel := by
    rw [syscallHandler] at run
    split at run
    · rename_i exits
      rw [processExitCurrent_of_none (allowed (by rw [exits]))] at run
      exact (congrArg Prod.snd (Option.some.inj run)).symm
    · exact (congrArg Prod.snd (Option.some.inj run)).symm
  rw [same, ← userMode]
  exact directories

theorem step
    {step : CpuStep}
    (directories : DirectoriesHeld state)
    (allowed : NoExit state step)
    (performed : step.perform state = some next) :
    DirectoriesHeld next := by
  cases step with
  | create moduleName =>
      rw [CpuStep.perform, Option.map_eq_some_iff] at performed
      obtain ⟨_, run, rfl⟩ := performed
      exact directories.create run
  | start pid =>
      rw [CpuStep.perform] at performed
      cases found : findReadySlot state.kernel.processes pid with
      | none =>
          rw [processStart_of_none found] at performed
          obtain rfl := Option.some.inj performed
          simpa using directories
      | some slot =>
          rw [processStart_of_some found] at performed
          obtain rfl := Option.some.inj performed
          exact directories.start (findReadySlot_eq_some found).2.2
  | userCode mem =>
      rw [CpuStep.perform] at performed
      split at performed
      · obtain rfl := Option.some.inj performed
        exact directories.userCode ‹_› mem
      · cases performed
  | syscall eax =>
      rw [CpuStep.perform] at performed
      split at performed
      · rename_i userMode
        obtain ⟨_, run, rfl⟩ := Option.map_eq_some_iff.mp performed
        exact directories.syscall userMode allowed run
      · cases performed

end DirectoriesHeld

section Runs

variable {initial : KernelState} {state : CpuState}

theorem CpuReachable.directoriesHeld
    (start : ProcessInitial initial)
    (ready : AllocatorReady initial.buddySys)
    (reached : CpuReachable NoExit ⟨initial, false⟩ state) :
    DirectoriesHeld state := by
  induction reached with
  | init =>
      refine ⟨ready, fun slot isReady => ?_, fun impossible => ?_⟩
      · rw [start.processes] at isReady
        cases isReady
      · cases impossible
  | step step _ allowed performed inductionHypothesis =>
      exact inductionHypothesis.step allowed performed

end Runs

/-- The first process, at its first instruction. -/
def DemoRunning (state : CpuState) : Prop :=
  ∃ created frames, state = ⟨KernelState.started created 0, true⟩ ∧
    created.processes 0 = ProcessFrames.pcb frames 1 [0x61] ∧
    frames.dir ≠ 0 ∧
    Takes demoKernel.buddySys created.buddySys frames.owned

theorem demoRunning_reached
    (permitted : CpuState → CpuStep → Prop)
    (anyCreate : ∀ state moduleName, permitted state (.create moduleName))
    (anyStart : ∀ state pid, permitted state (.start pid)) :
    ∃ state, CpuReachable permitted ⟨demoKernel, false⟩ state ∧
      DemoRunning state := by
  obtain ⟨created, frames, run, process, _⟩ := demoKernel_created
  have entry : created.processes 0 = frames.pcb 1 [0x61] := by
    rw [process.entered.processes, Function.update_self]
    rfl
  have found : findReadySlot created.processes 1 = some 0 :=
    findReadySlot_of (by decide) (by rw [entry]; rfl) (by rw [entry]; rfl)
      fun _ below => absurd below (Nat.not_lt_zero _)
  have initial : CpuReachable permitted ⟨demoKernel, false⟩
      ⟨demoKernel, false⟩ := .init
  have entered := initial.step (.create [0x61]) (anyCreate _ _)
    (by rw [CpuStep.perform, run]; rfl)
  have started := entered.step (.start 1) (anyStart _ _)
    (by rw [CpuStep.perform, processStart_of_some found]; rfl)
  exact ⟨_, started, created, frames, rfl, entry, process.dirNonzero,
    process.takes⟩

end MatrixOS
