import MatrixOS.AddressSpace
import MatrixOS.ManagerEffects

namespace MatrixOS

open ByteMemory Paging StateOption

/-!
# The process table

What the process functions do to the table, whatever they do to memory.
-/

/-! ## The memory manager and the page allocator -/

section Manager

variable {before state : KernelState} {held : List Nat}

/-- `vmm_create_user_space` has taken a directory if it does not return 0. -/
theorem Holding.vmmCreateUserSpace
    (holding : Holding before state held) :
    Ensures MatrixOS.vmmCreateUserSpace state fun dir next =>
      (dir = 0 ∧ Holding before next held) ∨
      (dir ≠ 0 ∧ Holding before next (dir :: held)) := by
  have keeps := managerKeeps_holding
  refine holding.alloc (fun _ none => Ensures.pure (Or.inl ⟨rfl, none⟩)) ?_
  intro dir _ nonzero one
  refine one.step (keeps.of_tempMapPage _) fun _ _ mapped => ?_
  refine mapped.step (keeps.of_memset _ _ _) fun _ _ cleared => ?_
  refine cleared.step (keeps.of_copyKernelEntries _ _) fun _ _ copied => ?_
  refine copied.step (keeps.of_tempUnmapPage _) fun _ _ unmapped => ?_
  exact Ensures.pure (Or.inr ⟨nonzero, unmapped⟩)

/-- `vmm_load_user_program` has given everything back if it returns 0. -/
theorem Holding.vmmLoadUserProgram
    (holding : Holding before state held)
    (pageDir start size : Nat) :
    Ensures (MatrixOS.vmmLoadUserProgram pageDir start size) state
      fun value next =>
        (value = 0 ∧ Holding before next held) ∨
        (value = 1 ∧ ∃ code stack codeTable stackTable,
          Holding before next
            (stackTable :: codeTable :: stack :: code :: held)) := by
  have keeps := managerKeeps_holding
  refine holding.alloc (fun _ none => Ensures.pure (Or.inl ⟨rfl, none⟩)) ?_
  intro code _ _ one
  refine one.alloc (fun _ failed => ?_) ?_
  · exact Ensures.step rfl (Ensures.pure (Or.inl ⟨rfl, failed.free⟩))
  intro stack _ _ two
  refine two.step (keeps.of_tempMapPage _) fun _ _ mapped => ?_
  refine mapped.alloc (fun _ failed => ?_) ?_
  · refine failed.step (keeps.of_tempUnmapPage _) fun _ _ unmapped => ?_
    have inOrder := unmapped.perm (List.Perm.swap code stack held)
    exact Ensures.step rfl (Ensures.step rfl
      (Ensures.pure (Or.inl ⟨rfl, inOrder.free.free⟩)))
  intro codeTable _ _ three
  refine three.alloc (fun _ failed => ?_) ?_
  · refine failed.step (keeps.of_tempUnmapPage _) fun _ _ unmapped => ?_
    have inOrder := unmapped.perm
      ((List.Perm.swap stack codeTable (code :: held)).trans
        (((List.Perm.swap code codeTable held).cons stack).trans
          (List.Perm.swap code stack (codeTable :: held))))
    exact Ensures.step rfl (Ensures.step rfl (Ensures.step rfl
      (Ensures.pure (Or.inl ⟨rfl, inOrder.free.free.free⟩))))
  intro stackTable _ _ four
  refine four.step (keeps.of_setMapping _ _ _ _ _) fun _ _ codeMapped => ?_
  refine codeMapped.step (keeps.of_setMapping _ _ _ _ _) fun _ _ bothMapped => ?_
  refine bothMapped.step (keeps.of_tempUnmapPage _) fun _ _ unmapped => ?_
  refine unmapped.step (keeps.of_copyUserProgram _ _ _) fun _ _ copied => ?_
  exact Ensures.pure
    (Or.inr ⟨rfl, code, stack, codeTable, stackTable, copied⟩)

end Manager

/-! ## The three operations -/

/-- The six page frames of a process. -/
structure ProcessFrames extends ProgramFrames where
  kernelStack : Nat

namespace ProcessFrames

/-- The frames in the order in which they are given back. -/
def owned (frames : ProcessFrames) : List Nat :=
  [frames.kernelStack, frames.stackTable, frames.codeTable, frames.stack,
    frames.code, frames.dir]

/-- The table entry of a process with these frames. -/
def pcb (frames : ProcessFrames) (pid : Nat) (name : List UInt8) : Pcb where
  pid := pid
  state := .ready
  name := name.take (32 - 1)
  pageDirectory := frames.dir
  entryPoint := 0x00000000
  userStack := userStackTop
  kernelStack := wrap32 (frames.kernelStack + pageSize)

end ProcessFrames

/-- A process has been entered into the table. -/
structure Entered (before after : KernelState) (slot : Nat) (pcb : Pcb) :
    Prop where
  wasUnused : findUnusedSlot before.processes = some slot
  ready : pcb.state = .ready
  pid : pcb.pid = before.nextPid
  processes : after.processes = Function.update before.processes slot pcb
  currentProcess : after.currentProcess = before.currentProcess
  nextPid : after.nextPid = wrap32 (before.nextPid + 1)

section Operations

variable {state next : KernelState}

/-- `vmm_destroy_user_space` releases the directory alone. -/
theorem vmmDestroyUserSpace_eq (pageDir : Nat) :
    vmmDestroyUserSpace pageDir state = some ((), state.withBuddySys
      (if pageDir = 0 then state.buddySys
        else Pmm.pmmFreePages state.buddySys pageDir 0)) := by
  rw [vmmDestroyUserSpace]
  split <;> rfl

theorem Holding.vmmDestroyUserSpace
    {before : KernelState} {dir : Nat} {held : List Nat}
    (holding : Holding before state (dir :: held))
    (nonzero : dir ≠ 0) :
    Ensures (MatrixOS.vmmDestroyUserSpace dir) state fun _ next =>
      Holding before next held := by
  refine Ensures.of_eq (vmmDestroyUserSpace_eq dir) ?_
  rw [if_neg nonzero]
  exact holding.free

/--
A creation enters one process into an unused slot and takes its six frames, or
it enters none.  Page tables that `map_page` may need come on top.
-/
theorem processCreateFromModule_table (moduleName : List UInt8) :
    Ensures (processCreateFromModule moduleName) state fun pid next =>
      (pid = 0 ∧ Holding state next []) ∨
      (pid = state.nextPid ∧ ∃ slot, ∃ frames : ProcessFrames, ∃ others,
        Entered state next slot (frames.pcb state.nextPid moduleName) ∧
        frames.dir ≠ 0 ∧ next.cr3 = state.cr3 ∧
        Takes state.buddySys next.buddySys (frames.owned ++ others)) := by
  have keeps := managerKeeps_holding
  have giveUp : ∀ {last : KernelState}, Holding state last [] →
      Ensures (pure 0 : Kernel Nat) last fun pid next =>
        (pid = 0 ∧ Holding state next []) ∨
        (pid = state.nextPid ∧ ∃ slot, ∃ frames : ProcessFrames, ∃ others,
          Entered state next slot (frames.pcb state.nextPid moduleName) ∧
          frames.dir ≠ 0 ∧ next.cr3 = state.cr3 ∧
          Takes state.buddySys next.buddySys (frames.owned ++ others)) :=
    fun none => Ensures.pure (Or.inl ⟨rfl, none⟩)
  rw [processCreateFromModule]
  refine Ensures.step rfl ?_
  split
  · exact giveUp Holding.refl
  rename_i module _
  refine Ensures.step rfl ?_
  split
  · exact giveUp Holding.refl
  rename_i slot unused
  refine Holding.refl.vmmCreateUserSpace.bind ?_
  rintro dir _ (⟨rfl, none⟩ | ⟨nonzero, one⟩)
  · exact giveUp none
  rw [if_neg nonzero]
  refine (one.vmmLoadUserProgram _ _ _).bind ?_
  rintro _ _ (⟨rfl, one⟩ | ⟨rfl, code, stack, codeTable, stackTable, five⟩)
  · exact (one.vmmDestroyUserSpace nonzero).bind fun _ _ none => giveUp none
  rw [if_neg Nat.one_ne_zero]
  refine five.alloc (fun _ leaked => ?_) ?_
  · -- the directory goes back, the other four frames are lost
    have inOrder := leaked.perm (List.perm_append_singleton dir
      [stackTable, codeTable, stack, code])
    refine (inOrder.vmmDestroyUserSpace nonzero).bind fun _ last four => ?_
    obtain ⟨others, takes⟩ := four.takes
    exact giveUp ⟨four.same, four.cr3, _, takes⟩
  intro kernelStack before _ six
  refine Ensures.step rfl ?_
  refine (keeps.of_verifyPageTables dir _).bind fun _ last looked => ?_
  let frames : ProcessFrames :=
    ⟨⟨dir, code, stack, codeTable, stackTable⟩, kernelStack⟩
  have same := six.same
  have entry : frames.pcb before.nextPid moduleName =
      frames.pcb state.nextPid moduleName := by
    rw [same.nextPid]
  obtain ⟨others, takes⟩ := six.takes
  obtain ⟨more, later⟩ := looked.takes
  refine Ensures.pure (Or.inr ⟨same.nextPid, slot, frames, others ++ more,
    ⟨unused, rfl, rfl, ?_, ?_, ?_⟩, nonzero, looked.cr3.trans six.cr3, ?_⟩)
  · rw [looked.same.processes, ← entry]
    exact congrArg (fun table => Function.update table slot
      (frames.pcb before.nextPid moduleName)) same.processes
  · exact looked.same.currentProcess.trans same.currentProcess
  · rw [looked.same.nextPid]
    exact congrArg (fun pid => wrap32 (pid + 1)) same.nextPid
  · rw [← List.append_assoc]
    exact (takes.trans later).perm List.perm_append_comm

end Operations

/-- The state after the process in a slot has been started. -/
def KernelState.started (state : KernelState) (slot : Nat) : KernelState :=
  ((state.withCurrentProcess (some slot)).withProcess slot
    { state.processes slot with state := .running }).withCr3
      (state.processes slot).pageDirectory

/-- The allocator after the resources of a process have been released. -/
def Pcb.release (pcb : Pcb) (sys : Pmm.BuddySystem) : Pmm.BuddySystem :=
  let destroyed :=
    if pcb.pageDirectory = 0 then sys
    else Pmm.pmmFreePages sys pcb.pageDirectory 0
  Pmm.pmmFreePages destroyed (sub32 pcb.kernelStack pageSize) 0

/-- The state after the process in a slot has ended. -/
def KernelState.exited (state : KernelState) (slot : Nat) : KernelState :=
  ((state.withBuddySys
    ((state.processes slot).release state.buddySys)).withProcess slot
      { state.processes slot with state := .terminated }).withCurrentProcess
        none

section Results

variable {state : KernelState} {slot pid : Nat}

theorem processStart_of_none
    (missing : findReadySlot state.processes pid = none) :
    processStart pid state = some (none, state) := by
  have run : (get : Kernel KernelState) state = some (state, state) := rfl
  rw [processStart, bind_of_eq run, missing]
  rfl

theorem processStart_of_some
    (found : findReadySlot state.processes pid = some slot) :
    processStart pid state =
      some (some ⟨(state.processes slot).entryPoint, 0x1B, 0x202,
        (state.processes slot).userStack, 0x23⟩, state.started slot) := by
  have run : (get : Kernel KernelState) state = some (state, state) := rfl
  rw [processStart, bind_of_eq run, found]
  rfl

theorem processExitCurrent_of_none
    (noCurrent : state.currentProcess = none) :
    processExitCurrent state = some ((), state) := by
  have run : (get : Kernel KernelState) state = some (state, state) := rfl
  rw [processExitCurrent, bind_of_eq run, noCurrent]
  rfl

theorem processExitCurrent_of_some
    (current : state.currentProcess = some slot) :
    processExitCurrent state = some ((), state.exited slot) := by
  have run : (get : Kernel KernelState) state = some (state, state) := rfl
  rw [processExitCurrent, bind_of_eq run, current]
  exact (bind_of_eq run).trans
    ((bind_of_eq (vmmDestroyUserSpace_eq _)).trans rfl)

theorem findReadySlot_eq_some
    {processes : Nat → Pcb}
    (found : findReadySlot processes pid = some slot) :
    slot < maxProcesses ∧ (processes slot).pid = pid ∧
      (processes slot).state = .ready := by
  obtain ⟨isReady, inTable, _⟩ := List.find?_range_eq_some.mp found
  exact ⟨List.mem_range.mp inTable, of_decide_eq_true isReady⟩

theorem findUnusedSlot_eq_some
    {processes : Nat → Pcb}
    (found : findUnusedSlot processes = some slot) :
    slot < maxProcesses ∧ (processes slot).state = .unused := by
  obtain ⟨isUnused, inTable, _⟩ := List.find?_range_eq_some.mp found
  exact ⟨List.mem_range.mp inTable, of_decide_eq_true isUnused⟩

/-- The first slot that is not in use. -/
theorem findUnusedSlot_of
    {processes : Nat → Pcb}
    (inTable : slot < maxProcesses)
    (unused : (processes slot).state = .unused)
    (below : ∀ lower < slot, (processes lower).state ≠ .unused) :
    findUnusedSlot processes = some slot := by
  refine List.find?_range_eq_some.mpr
    ⟨decide_eq_true unused, List.mem_range.mpr inTable, fun lower isBelow => ?_⟩
  simp [below lower isBelow]

/-- The first slot with a process to start. -/
theorem findReadySlot_of
    {processes : Nat → Pcb}
    (inTable : slot < maxProcesses)
    (isPid : (processes slot).pid = pid)
    (ready : (processes slot).state = .ready)
    (below : ∀ lower < slot,
      ¬ ((processes lower).pid = pid ∧ (processes lower).state = .ready)) :
    findReadySlot processes pid = some slot := by
  refine List.find?_range_eq_some.mpr
    ⟨decide_eq_true ⟨isPid, ready⟩, List.mem_range.mpr inTable,
      fun lower isBelow => ?_⟩
  rw [decide_eq_false (below lower isBelow)]
  rfl

end Results

section States

variable {state : KernelState} {slot : Nat}

namespace KernelState

theorem started_processes :
    (state.started slot).processes = Function.update state.processes slot
      { state.processes slot with state := .running } := by
  rw [started, withCr3_processes, withProcess_processes,
    withCurrentProcess_processes]

theorem started_currentProcess :
    (state.started slot).currentProcess = some slot := by
  rw [started, withCr3_currentProcess, withProcess_currentProcess,
    withCurrentProcess_currentProcess]

theorem started_nextPid : (state.started slot).nextPid = state.nextPid := by
  rw [started, withCr3_nextPid, withProcess_nextPid,
    withCurrentProcess_nextPid]

theorem started_cr3 :
    (state.started slot).cr3 = (state.processes slot).pageDirectory := by
  rw [started, withCr3_cr3]

theorem started_buddySys :
    (state.started slot).buddySys = state.buddySys := by
  rw [started, withCr3_buddySys, withProcess_buddySys,
    withCurrentProcess_buddySys]

theorem exited_processes :
    (state.exited slot).processes = Function.update state.processes slot
      { state.processes slot with state := .terminated } := by
  rw [exited, withCurrentProcess_processes, withProcess_processes,
    withBuddySys_processes]

theorem exited_currentProcess :
    (state.exited slot).currentProcess = none := by
  rw [exited, withCurrentProcess_currentProcess]

theorem exited_nextPid : (state.exited slot).nextPid = state.nextPid := by
  rw [exited, withCurrentProcess_nextPid, withProcess_nextPid,
    withBuddySys_nextPid]

theorem exited_cr3 : (state.exited slot).cr3 = state.cr3 := by
  rw [exited, withCurrentProcess_cr3, withProcess_cr3, withBuddySys_cr3]

/-- The end of a process does not touch memory. -/
theorem exited_mem : (state.exited slot).mem = state.mem := by
  rw [exited, withCurrentProcess_mem, withProcess_mem, withBuddySys_mem]

theorem exited_tempMgr : (state.exited slot).tempMgr = state.tempMgr := by
  rw [exited, withCurrentProcess_tempMgr, withProcess_tempMgr,
    withBuddySys_tempMgr]

theorem exited_modules : (state.exited slot).modules = state.modules := by
  rw [exited, withCurrentProcess_modules, withProcess_modules,
    withBuddySys_modules]

theorem exited_buddySys :
    (state.exited slot).buddySys =
      (state.processes slot).release state.buddySys := by
  rw [exited, withCurrentProcess_buddySys, withProcess_buddySys,
    withBuddySys_buddySys]

end KernelState

end States

end MatrixOS
