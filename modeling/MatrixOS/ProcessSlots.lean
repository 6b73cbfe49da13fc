import MatrixOS.ProcessCycles

namespace MatrixOS

open StateOption

/-!
# Slots of the process table

A creation takes a slot that has never been used.  Nothing makes a slot unused
again, so that a run creates `MAX_PROCESSES` processes and no more.
-/

/-- The process is READY, RUNNING or BLOCKED. -/
def Pcb.Live (pcb : Pcb) : Prop :=
  pcb.state = .ready ∨ pcb.state = .running ∨ pcb.state = .blocked

/-- There is a slot for a new process, or every slot has a live one. -/
def SlotsReusable (state : KernelState) : Prop :=
  (∃ slot, findUnusedSlot state.processes = some slot) ∨
    ∀ slot < maxProcesses, (state.processes slot).Live

/-- The number of processes that a call creates. -/
def ProcessCall.creates (state : KernelState) : ProcessCall → Nat
  | create moduleName =>
      match processCreateFromModule moduleName state with
      | some (pid, _) => if pid = 0 then 0 else 1
      | none => 0
  | _ => 0

/-- The states of the runs, with the number of processes created so far. -/
inductive ProcessHistory (initial : KernelState) :
    (created : Nat) → KernelState → Prop
  | init : ProcessHistory initial 0 initial
  | call {created : Nat} {state next : KernelState} (request : ProcessCall)
      (earlier : ProcessHistory initial created state)
      (performed : request.perform state = some next) :
      ProcessHistory initial (created + request.creates state) next

section Table

variable {processes : Nat → Pcb} {state next : KernelState}

theorem exists_unused_slot_iff :
    (∃ slot, findUnusedSlot processes = some slot) ↔
      usedCount processes < maxProcesses := by
  constructor
  · rintro ⟨slot, found⟩
    obtain ⟨inTable, unused⟩ := findUnusedSlot_eq_some found
    exact usedCount_lt inTable unused
  · intro few
    by_contra none
    have all : ∀ slot ∈ Finset.range maxProcesses,
        (processes slot).state ≠ .unused := by
      intro slot member unused
      refine none (Option.isSome_iff_exists.mp ?_)
      rw [findUnusedSlot, List.find?_isSome]
      exact ⟨slot, List.mem_range.mpr (Finset.mem_range.mp member), by
        simpa using unused⟩
    rw [usedCount, Finset.filter_true_of_mem all, Finset.card_range] at few
    omega

/-- Without a slot a creation fails, whatever its module. -/
theorem processCreateFromModule_noSlot
    (full : findUnusedSlot state.processes = none)
    (moduleName : List UInt8) :
    processCreateFromModule moduleName state = some (0, state) := by
  have lookup : loaderFindModule moduleName state = some
    (state.modules.find? fun module => module.name = moduleName, state) := rfl
  have current : (get : Kernel KernelState) state = some (state, state) := rfl
  rw [processCreateFromModule, bind_of_eq lookup]
  cases state.modules.find? fun module => module.name = moduleName with
  | none =>
      rfl
  | some module =>
      dsimp only
      rw [bind_of_eq current, full]
      rfl

/-- The slots in use are counted up with the processes that are created. -/
theorem usedCount_perform
    {request : ProcessCall}
    (right : PidsRight state)
    (current : CurrentUsed state)
    (performed : request.perform state = some next) :
    usedCount next.processes =
      usedCount state.processes + request.creates state := by
  cases request with
  | create moduleName =>
      rw [ProcessCall.perform, Option.map_eq_some_iff] at performed
      obtain ⟨⟨pid, _⟩, run, rfl⟩ := performed
      rw [ProcessCall.creates, run]
      rcases processCreateFromModule_table moduleName pid _ run with
        ⟨rfl, none⟩ | ⟨rfl, slot, frames, _, entered, _⟩
      · rw [none.same.processes]
        rfl
      · obtain ⟨inTable, unused⟩ := findUnusedSlot_eq_some entered.wasUnused
        have isPid : state.nextPid ≠ 0 := by
          rw [right.counted]
          omega
        rw [entered.processes, usedCount_update inTable unused
          (by simp [entered.ready])]
        simp only [if_neg isPid]
  | start pid =>
      rcases ProcessCall.perform_start_cases performed with
        rfl | ⟨slot, found, rfl⟩
      · rfl
      · refine usedCount_congr fun other => ?_
        rw [KernelState.started_processes]
        by_cases same : other = slot
        · simp [same, (findReadySlot_eq_some found).2.2]
        · rw [Function.update_of_ne same]
  | exit =>
      rcases ProcessCall.perform_exit_cases performed with
        rfl | ⟨slot, isCurrent, rfl⟩
      · rfl
      · refine usedCount_congr fun other => ?_
        rw [KernelState.exited_processes]
        by_cases same : other = slot
        · simp [same, current slot isCurrent]
        · rw [Function.update_of_ne same]

end Table

section Runs

variable {initial state : KernelState} {created : Nat}

theorem ProcessHistory.reached
    (history : ProcessHistory initial created state) :
    ProcessReachable AnyCall initial state := by
  induction history with
  | init => exact .init
  | call request _ performed inductionHypothesis =>
      exact inductionHypothesis.call request trivial performed

/-- As many slots are in use as processes have been created. -/
theorem ProcessHistory.usedCount_eq
    (start : ProcessInitial initial)
    (history : ProcessHistory initial created state) :
    usedCount state.processes = created := by
  induction history with
  | init =>
      simp [usedCount, start.processes, Pcb.clear]
  | call request earlier performed inductionHypothesis =>
      obtain ⟨pids, current⟩ := earlier.reached.pidsRight start
      rw [usedCount_perform pids current performed, inductionHypothesis]

end Runs

/-! ## As many processes as there are slots -/

/-- A kernel that has created processes and nothing else. -/
structure Populated (created : Nat) (state : KernelState) : Prop where
  history : ProcessHistory demoKernel created state
  ready : MemoryReady state 0x110000 0x111000
  modules : state.modules = [demoModule]
  reserved : Reserved state 0x110000 0x111000 demoModule.start
  nextPid : state.nextPid = created + 1
  entries : ∀ slot < created, (state.processes slot).state = .ready ∧
    (state.processes slot).pid = slot + 1
  unused : ∀ slot, created ≤ slot → state.processes slot = Pcb.clear
  free : FreeAtLeast state.buddySys ((maxProcesses - created) * 6)

theorem populated_zero : Populated 0 demoKernel where
  history := .init
  ready := bootReady [demoModule]
  modules := rfl
  reserved := bootReserved [demoModule] 0x200000 (by omega) (by omega)
    (by omega)
  nextPid := rfl
  entries := fun _ below => absurd below (Nat.not_lt_zero _)
  unused := fun _ _ => rfl
  free := by
    obtain ⟨pages, enough, free⟩ := bootFree [demoModule]
    exact ⟨pages, Nat.le_trans (by decide) enough, free⟩

theorem Populated.succ
    {created : Nat} {state : KernelState}
    (populated : Populated created state)
    (few : created < maxProcesses) :
    ∃ next, Populated (created + 1) next := by
  have found : state.modules.find? (fun module => module.name = [0x61]) =
      some demoModule := by
    rw [populated.modules]
    rfl
  have unused : findUnusedSlot state.processes = some created := by
    refine findUnusedSlot_of few ?_ fun lower below => ?_
    · rw [populated.unused created (Nat.le_refl _)]
      rfl
    · rw [(populated.entries lower below).1]
      exact ProcessState.noConfusion
  have pid : state.nextPid ≠ 0 := by
    rw [populated.nextPid]
    omega
  have enough : FreeAtLeast state.buddySys
      ((maxProcesses - (created + 1)) * 6 + 6) := by
    have size : (maxProcesses - (created + 1)) * 6 + 6 =
        (maxProcesses - created) * 6 := by
      omega
    rw [size]
    exact populated.free
  obtain ⟨next, frames, run, process, left⟩ := processCreateFromModule_created
    populated.ready found unused populated.reserved (by decide) pid enough
  have creates : ProcessCall.creates state (.create [0x61]) = 1 := by
    rw [ProcessCall.creates, run]
    exact if_neg pid
  refine ⟨next, ?_, process.ready, process.modules.trans populated.modules,
    process.reserved populated.ready populated.reserved, ?_, ?_, ?_, left⟩
  · have history := populated.history.call (.create [0x61])
      (show ProcessCall.perform _ _ = some next by
        rw [ProcessCall.perform, run]
        rfl)
    rwa [creates] at history
  · have bound : maxProcesses = 16 := rfl
    rw [process.entered.nextPid, populated.nextPid, wrap32_of_lt (by omega)]
  · intro slot below
    rw [process.entered.processes]
    by_cases new : slot = created
    · rw [new, Function.update_self]
      exact ⟨rfl, populated.nextPid⟩
    · rw [Function.update_of_ne new]
      exact populated.entries slot (by omega)
  · intro slot above
    rw [process.entered.processes, Function.update_of_ne (by omega)]
    exact populated.unused slot (by omega)

theorem exists_populated
    {created : Nat}
    (few : created ≤ maxProcesses) :
    ∃ state, Populated created state := by
  induction created with
  | zero =>
      exact ⟨demoKernel, populated_zero⟩
  | succ created inductionHypothesis =>
      obtain ⟨state, populated⟩ := inductionHypothesis (by omega)
      exact populated.succ (by omega)

end MatrixOS
