import Mathlib.Data.Set.Card
import MatrixOS.ProcessRuns

namespace MatrixOS

open ByteMemory StateOption

/-!
# Processes that come and go

What is left in the page allocator after processes have been created, started
and ended.  The end of a process gives back its page directory and its kernel
stack; its page tables, its code page and its stack page stay taken.
-/

section Count

variable {before after : Pmm.BuddySystem} {frames : List Nat}

theorem AllocatorReady.finite_freePages (ready : AllocatorReady before) :
    before.freePages.Finite := by
  obtain ⟨live, pool, invariant⟩ := ready
  refine (Set.finite_Iio (2 ^ 20)).subset fun page free => ?_
  exact (invariant.poolRange page
    (invariant.mem_freePages_iff.mp free).1).2

theorem AllocatorReady.freeAtLeast_iff
    (ready : AllocatorReady before)
    {count : Nat} :
    FreeAtLeast before count ↔ count ≤ before.freePages.ncard := by
  have finite := ready.finite_freePages
  constructor
  · rintro ⟨pages, enough, allFree⟩
    have inFree : (pages : Set Nat) ⊆ before.freePages := allFree
    have most := Set.ncard_le_ncard inFree finite
    rw [Set.ncard_coe_finset] at most
    omega
  · intro enough
    refine ⟨finite.toFinset, ?_, fun page member => ?_⟩
    · rwa [← Set.ncard_eq_toFinset_card _ finite]
    · exact finite.mem_toFinset.mp member

/-- Every frame that is taken makes one free page less. -/
theorem Takes.ncard_freePages
    (takes : Takes before after frames)
    (ready : AllocatorReady before) :
    after.freePages.ncard + frames.length = before.freePages.ncard := by
  obtain ⟨wereFree, distinct⟩ := takes.wereFree ready
  let pages : Set Nat := {page | page ∈ frames.map (· / pageSize)}
  have taken : pages ⊆ before.freePages := by
    intro page member
    obtain ⟨frame, inFrames, rfl⟩ := List.mem_map.mp member
    exact wereFree frame inFrames
  have left : after.freePages = before.freePages \ pages := by
    ext page
    rw [takes.mem_freePages ready]
    refine and_congr_right fun _ => ?_
    simp only [pages, Set.mem_ofPred_eq, List.mem_map, not_exists, not_and]
    exact forall₂_congr fun _ _ => ne_comm
  have finite := ready.finite_freePages
  have size : pages.ncard = frames.length := by
    have listed : pages = ((frames.map (· / pageSize)).toFinset : Set Nat) := by
      ext page
      simp [pages]
    rw [listed, Set.ncard_coe_finset, List.toFinset_card_of_nodup distinct,
      List.length_map]
  rw [left, ← size]
  exact Set.ncard_sdiff_add_ncard_of_subset taken finite

end Count

/-- A process is created, started, and ends. -/
inductive ProcessCycle (before : KernelState) : KernelState → Prop
  | mk (moduleName : List UInt8) (pid : Nat)
      {frame : Option UserFrame} {created started after : KernelState}
      (creates : processCreateFromModule moduleName before = some (pid, created))
      (isPid : pid ≠ 0)
      (starts : processStart pid created = some (frame, started))
      (exits : processExitCurrent started = some ((), after)) :
      ProcessCycle before after

/-- One process after the other is created, started, and ends. -/
inductive ProcessCycles (before : KernelState) : Nat → KernelState → Prop
  | none : ProcessCycles before 0 before
  | cycle {count : Nat} {middle after : KernelState}
      (earlier : ProcessCycles before count middle)
      (last : ProcessCycle middle after) :
      ProcessCycles before (count + 1) after

/-- The calls of a run that may do anything. -/
def AnyCall (_ : KernelState) (_ : ProcessCall) : Prop :=
  True

section Table

variable {initial state next : KernelState} {slot : Nat}

/-- The current process is in the table. -/
def CurrentUsed (state : KernelState) : Prop :=
  ∀ slot, state.currentProcess = some slot →
    (state.processes slot).state ≠ .unused

theorem CurrentUsed.call
    {request : ProcessCall}
    (used : CurrentUsed state)
    (performed : request.perform state = some next) :
    CurrentUsed next := by
  intro slot isCurrent
  rcases request.perform_cases performed with
    same | ⟨entry, pcb, entered⟩ | ⟨pid, started, _, found, rfl⟩ |
      ⟨ended, _, _, rfl⟩
  · rw [same.processes]
    exact used slot (same.currentProcess ▸ isCurrent)
  · rw [entered.processes]
    rw [entered.currentProcess] at isCurrent
    by_cases here : slot = entry
    · simp [here, entered.ready]
    · rw [Function.update_of_ne here]
      exact used slot isCurrent
  · rw [KernelState.started_currentProcess] at isCurrent
    obtain rfl := Option.some.inj isCurrent
    simp [KernelState.started_processes]
  · rw [KernelState.exited_currentProcess] at isCurrent
    cases isCurrent

/-- The pids are right in every run, whatever is started. -/
theorem ProcessReachable.pidsRight
    {permitted : KernelState → ProcessCall → Prop}
    (start : ProcessInitial initial)
    (reached : ProcessReachable permitted initial state) :
    PidsRight state ∧ CurrentUsed state := by
  induction reached with
  | init =>
      refine ⟨pidsRight_initial start, fun slot isCurrent => ?_⟩
      rw [start.currentProcess] at isCurrent
      cases isCurrent
  | call request _ _ performed inductionHypothesis =>
      obtain ⟨pids, used⟩ := inductionHypothesis
      exact ⟨pids.call used performed, used.call performed⟩

/-- A process that is READY is the one its pid starts. -/
theorem PidsRight.findReadySlot
    (right : PidsRight state)
    (inTable : slot < maxProcesses)
    (ready : (state.processes slot).state = .ready) :
    MatrixOS.findReadySlot state.processes (state.processes slot).pid =
      some slot := by
  refine findReadySlot_of inTable rfl ready fun lower below => ?_
  rintro ⟨samePid, lowerReady⟩
  have same := right.distinct lower (by omega) slot inTable
    (by simp [lowerReady]) (by simp [ready]) samePid
  omega

end Table

section Cycles

variable {initial before middle after : KernelState} {count : Nat}

/-- The kernel stack is found again from its top. -/
theorem sub32_wrap32_add
    {frame : Nat}
    (inRange : frame < 2 ^ 32) :
    sub32 (wrap32 (frame + pageSize)) pageSize = frame := by
  simp only [sub32, wrap32, pageSize]
  omega

/-- The frames that the end of a process does not give back. -/
def ProcessFrames.lost (frames : ProcessFrames) : List Nat :=
  [frames.stackTable, frames.codeTable, frames.stack, frames.code]

/-- The end of a process gives back its directory and its kernel stack. -/
theorem ProcessFrames.release
    {frames : ProcessFrames} {others : List Nat}
    {sys taken : Pmm.BuddySystem}
    (takes : Takes sys taken (frames.owned ++ others))
    (ready : AllocatorReady sys)
    (nonzero : frames.dir ≠ 0)
    (pid : Nat)
    (name : List UInt8) :
    Takes sys ((frames.pcb pid name).release taken) (frames.lost ++ others) := by
  have inRange : frames.kernelStack < 2 ^ 32 := by
    obtain ⟨live, pool, invariant⟩ := ready
    exact ((takes live pool invariant).addr_bounds
      (frameBlock frames.kernelStack) (by simp [ProcessFrames.owned])).2
  have dirFirst : (frames.owned ++ others).Perm
      (frames.dir :: frames.kernelStack :: (frames.lost ++ others)) :=
    (List.perm_append_singleton frames.dir
      (frames.kernelStack :: frames.lost)).append_right others
  have released := (takes.perm dirFirst).free.free
  rw [Pcb.release, ProcessFrames.pcb]
  dsimp only
  rw [if_neg nonzero, sub32_wrap32_add inRange]
  exact released

/-- After a cycle four page frames more are taken. -/
theorem ProcessCycle.takes
    (start : ProcessInitial initial)
    (reached : ProcessReachable AnyCall initial before)
    (ready : AllocatorReady before.buddySys)
    (cycle : ProcessCycle before after) :
    ∃ frames : ProcessFrames, ∃ others,
      Takes before.buddySys after.buddySys (frames.lost ++ others) := by
  obtain ⟨moduleName, pid, creates, isPid, starts, exits⟩ := cycle
  rename_i created _
  have reachedCreated := reached.call (.create moduleName) trivial
    (by rw [ProcessCall.perform, creates]; rfl)
  obtain ⟨right, _⟩ := reachedCreated.pidsRight start
  rcases processCreateFromModule_table moduleName pid _ creates with
    ⟨zero, _⟩ | ⟨rfl, slot, frames, others, entered, nonzero, _, takes⟩
  · exact absurd zero isPid
  have inTable := (findUnusedSlot_eq_some entered.wasUnused).1
  have entry : created.processes slot = frames.pcb before.nextPid moduleName := by
    rw [entered.processes, Function.update_self]
  have found := right.findReadySlot inTable (by rw [entry]; rfl)
  have isNext : (created.processes slot).pid = before.nextPid := by
    rw [entry]
    rfl
  rw [isNext] at found
  rw [processStart_of_some found] at starts
  obtain ⟨_, rfl⟩ := Prod.mk.inj (Option.some.inj starts)
  rw [processExitCurrent_of_some KernelState.started_currentProcess] at exits
  obtain ⟨_, rfl⟩ := Prod.mk.inj (Option.some.inj exits)
  have released := ProcessFrames.release takes ready nonzero before.nextPid
    moduleName
  refine ⟨frames, others, ?_⟩
  rw [KernelState.exited_buddySys, KernelState.started_processes,
    Function.update_self, KernelState.started_buddySys, entry]
  exact released

theorem ProcessCycle.reached
    (reached : ProcessReachable AnyCall initial before)
    (cycle : ProcessCycle before after) :
    ProcessReachable AnyCall initial after := by
  obtain ⟨moduleName, pid, creates, _, starts, exits⟩ := cycle
  have created := reached.call (.create moduleName) trivial
    (by rw [ProcessCall.perform, creates]; rfl)
  have started := created.call (.start pid) trivial
    (by rw [ProcessCall.perform, starts]; rfl)
  exact started.call .exit trivial
    (by rw [ProcessCall.perform, exits]; rfl)

/-- After some cycles four page frames more are taken for each of them. -/
theorem ProcessCycles.takes
    (start : ProcessInitial initial)
    (reached : ProcessReachable AnyCall initial before)
    (ready : AllocatorReady before.buddySys)
    (cycles : ProcessCycles before count after) :
    ProcessReachable AnyCall initial after ∧
      ∃ lost, 4 * count ≤ lost.length ∧
        Takes before.buddySys after.buddySys lost := by
  induction cycles with
  | none =>
      exact ⟨reached, [], Nat.le_refl 0, Takes.refl⟩
  | @cycle count _ _ _ last inductionHypothesis =>
      obtain ⟨reachedMiddle, lost, enough, takes⟩ := inductionHypothesis
      obtain ⟨frames, others, more⟩ :=
        last.takes start reachedMiddle (takes.ready ready)
      refine ⟨last.reached reachedMiddle, _, ?_, takes.trans more⟩
      have four : frames.lost.length = 4 := rfl
      simp only [List.length_append, four]
      omega

end Cycles

/-- The first process that a booted kernel creates. -/
theorem demoKernel_ready :
    ∃ created, ∃ frames : ProcessFrames,
      processCreateFromModule [0x61] demoKernel = some (1, created) ∧
        created.processes 0 = frames.pcb 1 [0x61] ∧
        findReadySlot created.processes 1 = some 0 := by
  obtain ⟨created, frames, run, process, _⟩ := demoKernel_created
  have entry : created.processes 0 = frames.pcb 1 [0x61] := by
    rw [process.entered.processes, Function.update_self]
    rfl
  exact ⟨created, frames, run, entry,
    findReadySlot_of (by decide) (by rw [entry]; rfl) (by rw [entry]; rfl)
      fun _ below => absurd below (Nat.not_lt_zero _)⟩

/-- It is started and ends. -/
theorem demoKernel_cycle : ∃ after, ProcessCycle demoKernel after := by
  obtain ⟨created, _, run, _, found⟩ := demoKernel_ready
  exact ⟨(created.started 0).exited 0, .mk [0x61] 1 run Nat.one_ne_zero
    (processStart_of_some found)
    (processExitCurrent_of_some KernelState.started_currentProcess)⟩

end MatrixOS
