import MatrixOS.ProcessCreation

namespace MatrixOS

/-!
# Runs of the process table

Creating, starting and ending processes in any order.  Starting a process does
not look at the one that is current.
-/

inductive ProcessCall where
  | create (moduleName : List UInt8)
  | start (pid : Nat)
  | exit

/-- The state after a call that returns; a process that is started, too. -/
def ProcessCall.perform (state : KernelState) : ProcessCall → Option KernelState
  | create moduleName => (processCreateFromModule moduleName state).map Prod.snd
  | start pid => (processStart pid state).map Prod.snd
  | exit => (processExitCurrent state).map Prod.snd

/-- The states of the runs whose calls are permitted. -/
inductive ProcessReachable
    (permitted : KernelState → ProcessCall → Prop) (initial : KernelState) :
    KernelState → Prop
  | init : ProcessReachable permitted initial initial
  | call {state next : KernelState} (request : ProcessCall)
      (reached : ProcessReachable permitted initial state)
      (allowed : permitted state request)
      (performed : request.perform state = some next) :
      ProcessReachable permitted initial next

/-- `process_init` has been called. -/
structure ProcessInitial (state : KernelState) : Prop where
  processes : state.processes = fun _ => Pcb.clear
  currentProcess : state.currentProcess = none
  nextPid : state.nextPid = 1

/-- A process is started only while no process is current. -/
def StartsAlone (state : KernelState) : ProcessCall → Prop
  | .start pid =>
      state.currentProcess = none ∨ findReadySlot state.processes pid = none
  | _ => True

/-- The number of slots that are not `PROCESS_UNUSED`. -/
def usedCount (processes : Nat → Pcb) : Nat :=
  ((Finset.range maxProcesses).filter fun slot =>
    (processes slot).state ≠ .unused).card

/-- The pids are counted up with the slots. -/
structure PidsRight (state : KernelState) : Prop where
  counted : state.nextPid = 1 + usedCount state.processes
  bounds : ∀ slot < maxProcesses, (state.processes slot).state ≠ .unused →
    0 < (state.processes slot).pid ∧ (state.processes slot).pid < state.nextPid
  distinct : ∀ first < maxProcesses, ∀ second < maxProcesses,
    (state.processes first).state ≠ .unused →
    (state.processes second).state ≠ .unused →
    (state.processes first).pid = (state.processes second).pid →
      first = second

/-- The current process is the one that is running. -/
def CurrentRight (state : KernelState) : Prop :=
  ∀ slot, (slot < maxProcesses ∧ (state.processes slot).state = .running) ↔
    state.currentProcess = some slot

/-- What the processes are expected to look like between calls. -/
structure ProcessTableOk (state : KernelState) : Prop where
  nonzero : ∀ slot < maxProcesses, (state.processes slot).state ≠ .unused →
    (state.processes slot).pid ≠ 0
  distinct : ∀ first < maxProcesses, ∀ second < maxProcesses,
    (state.processes first).state ≠ .unused →
    (state.processes second).state ≠ .unused →
    (state.processes first).pid = (state.processes second).pid →
      first = second
  oneRunning : ∀ first < maxProcesses, ∀ second < maxProcesses,
    (state.processes first).state = .running →
    (state.processes second).state = .running → first = second
  current : ∀ slot,
    (slot < maxProcesses ∧ (state.processes slot).state = .running) ↔
      state.currentProcess = some slot
  exits : ∀ next, processExitCurrent state = some ((), next) →
    next.currentProcess = none ∧
      ∀ slot, next.processes slot =
        if state.currentProcess = some slot then
          { state.processes slot with state := .terminated }
        else state.processes slot
  ended : ∀ request next, ProcessCall.perform state request = some next →
    ∀ slot, (state.processes slot).state = .terminated →
      (next.processes slot).state = .terminated

section Table

variable {state next : KernelState} {slot : Nat} {pcb : Pcb}

theorem usedCount_congr
    {before after : Nat → Pcb}
    (same : ∀ slot, (after slot).state = .unused ↔
      (before slot).state = .unused) :
    usedCount after = usedCount before := by
  rw [usedCount, usedCount]
  exact congrArg Finset.card
    (Finset.filter_congr fun slot _ => not_congr (same slot))

/-- One more slot is used. -/
theorem usedCount_update
    {processes : Nat → Pcb}
    (inTable : slot < maxProcesses)
    (unused : (processes slot).state = .unused)
    (used : pcb.state ≠ .unused) :
    usedCount (Function.update processes slot pcb) =
      usedCount processes + 1 := by
  have split : ((Finset.range maxProcesses).filter fun other =>
        (Function.update processes slot pcb other).state ≠ .unused) =
      insert slot ((Finset.range maxProcesses).filter fun other =>
        (processes other).state ≠ .unused) := by
    ext other
    by_cases same : other = slot
    · simp [same, inTable, used]
    · simp [same]
  rw [usedCount, split, Finset.card_insert_of_notMem (by simp [unused]),
    usedCount]

theorem usedCount_lt
    {processes : Nat → Pcb}
    (inTable : slot < maxProcesses)
    (unused : (processes slot).state = .unused) :
    usedCount processes < maxProcesses := by
  have strict : ((Finset.range maxProcesses).filter fun other =>
      (processes other).state ≠ .unused) ⊂ Finset.range maxProcesses :=
    Finset.filter_ssubset.mpr
      ⟨slot, Finset.mem_range.mpr inTable, by simp [unused]⟩
  exact (Finset.card_lt_card strict).trans_eq (Finset.card_range _)

theorem ProcessCall.perform_start_cases
    {pid : Nat}
    (performed : ProcessCall.perform state (.start pid) = some next) :
    next = state ∨ ∃ slot, findReadySlot state.processes pid = some slot ∧
      next = state.started slot := by
  cases found : findReadySlot state.processes pid with
  | none =>
      simp only [ProcessCall.perform, processStart_of_none found,
        Option.map_some, Option.some.injEq] at performed
      exact Or.inl performed.symm
  | some slot =>
      simp only [ProcessCall.perform, processStart_of_some found,
        Option.map_some, Option.some.injEq] at performed
      exact Or.inr ⟨slot, rfl, performed.symm⟩

theorem ProcessCall.perform_exit_cases
    (performed : ProcessCall.perform state .exit = some next) :
    next = state ∨ ∃ slot, state.currentProcess = some slot ∧
      next = state.exited slot := by
  cases current : state.currentProcess with
  | none =>
      simp only [ProcessCall.perform, processExitCurrent_of_none current,
        Option.map_some, Option.some.injEq] at performed
      exact Or.inl performed.symm
  | some slot =>
      simp only [ProcessCall.perform, processExitCurrent_of_some current,
        Option.map_some, Option.some.injEq] at performed
      exact Or.inr ⟨slot, rfl, performed.symm⟩

theorem ProcessCall.perform_create_cases
    {moduleName : List UInt8}
    (performed : ProcessCall.perform state (.create moduleName) = some next) :
    SameProcesses state next ∨ ∃ slot pcb, Entered state next slot pcb := by
  rw [ProcessCall.perform, Option.map_eq_some_iff] at performed
  obtain ⟨⟨pid, _⟩, run, rfl⟩ := performed
  rcases processCreateFromModule_table moduleName pid _ run with
    ⟨_, none⟩ | ⟨_, slot, frames, _, entered, _⟩
  · exact Or.inl none.same
  · exact Or.inr ⟨slot, _, entered⟩

/-- Everything a call can do to the table. -/
theorem ProcessCall.perform_cases
    {request : ProcessCall}
    (performed : request.perform state = some next) :
    SameProcesses state next ∨
      (∃ slot pcb, Entered state next slot pcb) ∨
      (∃ pid slot, request = .start pid ∧
        findReadySlot state.processes pid = some slot ∧
        next = state.started slot) ∨
      ∃ slot, request = .exit ∧ state.currentProcess = some slot ∧
        next = state.exited slot := by
  cases request with
  | create moduleName =>
      rcases perform_create_cases performed with same | entered
      · exact Or.inl same
      · exact Or.inr (Or.inl entered)
  | start pid =>
      rcases perform_start_cases performed with rfl | ⟨slot, found, started⟩
      · exact Or.inl ⟨rfl, rfl, rfl⟩
      · exact Or.inr (Or.inr (Or.inl ⟨pid, slot, rfl, found, started⟩))
  | exit =>
      rcases perform_exit_cases performed with rfl | ⟨slot, current, exited⟩
      · exact Or.inl ⟨rfl, rfl, rfl⟩
      · exact Or.inr (Or.inr (Or.inr ⟨slot, rfl, current, exited⟩))

theorem PidsRight.of_same
    (right : PidsRight state)
    (nextPid : next.nextPid = state.nextPid)
    (pids : ∀ slot, (next.processes slot).pid = (state.processes slot).pid)
    (used : ∀ slot, (next.processes slot).state = .unused ↔
      (state.processes slot).state = .unused) :
    PidsRight next where
  counted := by
    rw [nextPid, usedCount_congr used]
    exact right.counted
  bounds := by
    intro slot inTable isUsed
    rw [pids, nextPid]
    exact right.bounds slot inTable fun unused => isUsed ((used slot).mpr unused)
  distinct := by
    intro first firstInTable second secondInTable firstUsed secondUsed same
    rw [pids, pids] at same
    exact right.distinct first firstInTable second secondInTable
      (fun unused => firstUsed ((used first).mpr unused))
      (fun unused => secondUsed ((used second).mpr unused)) same

/-- A slot in use changes its state and stays in use. -/
theorem PidsRight.update
    (right : PidsRight state)
    {condition : ProcessState}
    (used : (state.processes slot).state ≠ .unused)
    (still : condition ≠ .unused)
    (nextPid : next.nextPid = state.nextPid)
    (processes : next.processes = Function.update state.processes slot
      { state.processes slot with state := condition }) :
    PidsRight next := by
  refine right.of_same nextPid (fun other => ?_) fun other => ?_
  · by_cases same : other = slot <;> simp [processes, same]
  · by_cases same : other = slot
    · simp [processes, same, used, still]
    · simp [processes, same]

theorem PidsRight.entered
    (right : PidsRight state)
    (entered : Entered state next slot pcb) :
    PidsRight next := by
  obtain ⟨inTable, unused⟩ := findUnusedSlot_eq_some entered.wasUnused
  have isUsed : pcb.state ≠ .unused := by simp [entered.ready]
  have small := usedCount_lt inTable unused
  have counted := right.counted
  have nextPid : next.nextPid = state.nextPid + 1 := by
    have few : maxProcesses = 16 := rfl
    rw [entered.nextPid, wrap32_of_lt (by omega)]
  have older : ∀ other < maxProcesses, other ≠ slot →
      (next.processes other).state ≠ .unused →
      0 < (next.processes other).pid ∧
        (next.processes other).pid < state.nextPid := by
    intro other otherInTable different otherUsed
    rw [entered.processes, Function.update_of_ne different] at otherUsed ⊢
    exact right.bounds other otherInTable otherUsed
  have newest : (next.processes slot).pid = state.nextPid := by
    rw [entered.processes, Function.update_self, entered.pid]
  refine ⟨?_, ?_, ?_⟩
  · rw [nextPid, entered.processes, usedCount_update inTable unused isUsed]
    omega
  · intro other otherInTable otherUsed
    by_cases same : other = slot
    · rw [same, newest]
      omega
    · have bounds := older other otherInTable same otherUsed
      omega
  · intro first firstInTable second secondInTable firstUsed secondUsed same
    by_cases firstNew : first = slot
    · by_cases secondNew : second = slot
      · exact firstNew.trans secondNew.symm
      · have bounds := older second secondInTable secondNew secondUsed
        rw [firstNew, newest] at same
        omega
    · by_cases secondNew : second = slot
      · have bounds := older first firstInTable firstNew firstUsed
        rw [secondNew, newest] at same
        omega
      · rw [entered.processes, Function.update_of_ne firstNew] at firstUsed same
        rw [entered.processes, Function.update_of_ne secondNew] at secondUsed
        rw [Function.update_of_ne secondNew] at same
        exact right.distinct first firstInTable second secondInTable firstUsed
          secondUsed same

theorem findReadySlot_used
    {pid : Nat}
    (found : findReadySlot state.processes pid = some slot) :
    (state.processes slot).state ≠ .unused := by
  simp [(findReadySlot_eq_some found).2.2]

/-- The pids are right after every call. -/
theorem PidsRight.call
    {request : ProcessCall}
    (right : PidsRight state)
    (current : ∀ slot, state.currentProcess = some slot →
      (state.processes slot).state ≠ .unused)
    (performed : request.perform state = some next) :
    PidsRight next := by
  rcases request.perform_cases performed with
    same | ⟨slot, pcb, entered⟩ | ⟨pid, slot, _, found, rfl⟩ |
      ⟨slot, _, isCurrent, rfl⟩
  · refine right.of_same same.nextPid (fun slot => ?_) fun slot => ?_
    · rw [same.processes]
    · rw [same.processes]
  · exact right.entered entered
  · exact right.update (findReadySlot_used found) (by decide)
      KernelState.started_nextPid KernelState.started_processes
  · exact right.update (current slot isCurrent) (by decide)
      KernelState.exited_nextPid KernelState.exited_processes

/-- Slots that are not current change while they are not running. -/
theorem CurrentRight.update
    (right : CurrentRight state)
    (current : next.currentProcess = state.currentProcess)
    (notRunning : (state.processes slot).state ≠ .running)
    (stillNot : pcb.state ≠ .running)
    (processes : next.processes = Function.update state.processes slot pcb) :
    CurrentRight next := by
  intro other
  rw [current, ← right other, processes]
  by_cases same : other = slot
  · simp [same, notRunning, stillNot]
  · simp [same]

/-- Starting a process while none is current makes it the current one. -/
theorem CurrentRight.started
    (right : CurrentRight state)
    (noCurrent : state.currentProcess = none)
    (inTable : slot < maxProcesses) :
    CurrentRight (state.started slot) := by
  intro other
  rw [KernelState.started_currentProcess, KernelState.started_processes]
  by_cases same : other = slot
  · simp [same, inTable]
  · have notRunning := right other
    rw [noCurrent] at notRunning
    simp only [Function.update_of_ne same, Option.some.injEq]
    exact ⟨fun running => absurd (notRunning.mp running) (by simp),
      fun isSlot => absurd isSlot.symm same⟩

/-- After an exit no process is running. -/
theorem CurrentRight.exited
    (right : CurrentRight state)
    (current : state.currentProcess = some slot) :
    CurrentRight (state.exited slot) := by
  intro other
  rw [KernelState.exited_currentProcess, KernelState.exited_processes]
  by_cases same : other = slot
  · simp [same]
  · have isCurrent := right other
    rw [current] at isCurrent
    simp only [Function.update_of_ne same, isCurrent, Option.some.injEq,
      reduceCtorEq, iff_false]
    exact fun isSlot => same isSlot.symm

theorem CurrentRight.call
    {request : ProcessCall}
    (right : CurrentRight state)
    (allowed : StartsAlone state request)
    (performed : request.perform state = some next) :
    CurrentRight next := by
  rcases request.perform_cases performed with
    same | ⟨slot, pcb, entered⟩ | ⟨pid, slot, rfl, found, rfl⟩ |
      ⟨slot, _, isCurrent, rfl⟩
  · intro slot
    rw [same.processes, same.currentProcess]
    exact right slot
  · obtain ⟨_, unused⟩ := findUnusedSlot_eq_some entered.wasUnused
    exact right.update entered.currentProcess (by simp [unused])
      (by simp [entered.ready]) entered.processes
  · rcases allowed with noCurrent | missing
    · exact right.started noCurrent (findReadySlot_eq_some found).1
    · rw [found] at missing
      cases missing
  · exact right.exited isCurrent

/-- A process that has ended stays so. -/
theorem ProcessCall.perform_terminated
    {request : ProcessCall}
    (performed : request.perform state = some next)
    (terminated : (state.processes slot).state = .terminated) :
    (next.processes slot).state = .terminated := by
  rcases request.perform_cases performed with
    same | ⟨other, pcb, entered⟩ | ⟨pid, other, _, found, rfl⟩ |
      ⟨other, _, isCurrent, rfl⟩
  · rw [same.processes]
    exact terminated
  · obtain ⟨_, unused⟩ := findUnusedSlot_eq_some entered.wasUnused
    have different : slot ≠ other := by
      rintro rfl
      simp [unused] at terminated
    rw [entered.processes, Function.update_of_ne different]
    exact terminated
  · have ready := (findReadySlot_eq_some found).2.2
    have different : slot ≠ other := by
      rintro rfl
      simp [ready] at terminated
    rw [KernelState.started_processes, Function.update_of_ne different]
    exact terminated
  · rw [KernelState.exited_processes]
    by_cases same : slot = other
    · simp [same]
    · rw [Function.update_of_ne same]
      exact terminated

end Table

section Runs

variable {initial state : KernelState}

theorem pidsRight_initial (start : ProcessInitial initial) :
    PidsRight initial where
  counted := by
    simp [start.nextPid, usedCount, start.processes, Pcb.clear]
  bounds := by
    simp [start.processes, Pcb.clear]
  distinct := by
    simp [start.processes, Pcb.clear]

theorem currentRight_initial (start : ProcessInitial initial) :
    CurrentRight initial := by
  intro slot
  simp [start.processes, start.currentProcess, Pcb.clear]

theorem CurrentRight.running
    {slot : Nat}
    (right : CurrentRight state)
    (current : state.currentProcess = some slot) :
    (state.processes slot).state = .running :=
  ((right slot).mpr current).2

theorem ProcessReachable.right
    (start : ProcessInitial initial)
    (reached : ProcessReachable StartsAlone initial state) :
    PidsRight state ∧ CurrentRight state := by
  induction reached with
  | init =>
      exact ⟨pidsRight_initial start, currentRight_initial start⟩
  | call request _ allowed performed inductionHypothesis =>
      obtain ⟨pids, current⟩ := inductionHypothesis
      refine ⟨pids.call ?_ performed, current.call allowed performed⟩
      intro slot isCurrent
      simp [current.running isCurrent]

end Runs

theorem processInitial_demoKernel : ProcessInitial demoKernel :=
  ⟨rfl, rfl, rfl⟩

/-- A second process from the same module. -/
theorem demoKernel_two :
    ∃ one two firstFrames secondFrames,
      processCreateFromModule [0x61] demoKernel = some (1, one) ∧
      processCreateFromModule [0x61] one = some (2, two) ∧
      two.processes 0 = ProcessFrames.pcb firstFrames 1 [0x61] ∧
      two.processes 1 = ProcessFrames.pcb secondFrames 2 [0x61] := by
  obtain ⟨one, firstFrames, firstRun, first, firstFree⟩ := demoKernel_created
  have firstEntry : one.processes 0 = firstFrames.pcb 1 [0x61] := by
    rw [first.entered.processes, Function.update_self]
    rfl
  have unused : findUnusedSlot one.processes = some 1 := by
    refine findUnusedSlot_of (by decide) ?_ fun lower below => ?_
    · rw [first.entered.processes, Function.update_of_ne (by decide)]
      rfl
    · obtain rfl : lower = 0 := by omega
      rw [firstEntry]
      exact ProcessState.noConfusion
  have found : one.modules.find? (fun module => module.name = [0x61]) =
      some demoModule := by
    rw [first.modules]
    rfl
  have nextPid : one.nextPid = 2 := first.entered.nextPid
  have reserved := first.reserved (bootReady [demoModule])
    (bootReserved [demoModule] 0x200000 (by omega) (by omega) (by omega))
  obtain ⟨two, secondFrames, secondRun, second, _⟩ :=
    processCreateFromModule_created first.ready found unused reserved
      (by decide) (by rw [nextPid]; decide) firstFree
  rw [nextPid] at secondRun
  refine ⟨one, two, firstFrames, secondFrames, firstRun, secondRun, ?_, ?_⟩
  · rw [second.entered.processes, Function.update_of_ne (by decide), firstEntry]
  · rw [second.entered.processes, Function.update_self, nextPid]

end MatrixOS
