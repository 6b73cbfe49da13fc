import MatrixOS.ProcessCycles
import MatrixOS.SystemRuns

namespace MatrixOS

open X86

/-!
# The process that calls

The handler of system calls takes the number of the process from the process
table.  Here the runs of that table and those of the system take their steps in
one order: processes are created, started and ended, calls are made, keys are
pressed, and user code writes to memory.
-/

/-- `current ? current->pid : 0`. -/
def KernelState.currentPid (state : KernelState) : Nat :=
  match state.currentProcess with
  | none => 0
  | some slot => (state.processes slot).pid

/--
The tables of the kernel next to what the system calls work on.  Each side has
its own view of memory; all that one takes from the other is the process that
calls.
-/
structure ProcessSystem where
  kernel : KernelState
  run : SystemRun
  /-- The slots that have called `SYSCALL_GETPID`, and what they were told. -/
  answers : List (Nat × Word)

namespace ProcessSystem

def start (initial : KernelState) (boot : SyscallState) : ProcessSystem where
  kernel := initial
  run := .start boot
  answers := []

/-- The system as the handler of a call finds it. -/
def calling (system : ProcessSystem) : SystemRun :=
  system.run.switched system.kernel.currentPid

/-- A request of the current process has been served. -/
def served
    (system : ProcessSystem) (request : SyscallRequest) (last : Regs)
    (next : SyscallState) (after : KernelState) :
    ProcessSystem where
  kernel := after
  run := system.calling.served request last next
  answers :=
    match request, system.kernel.currentProcess with
    | .getpid, some slot => system.answers ++ [(slot, last.eax)]
    | _, _ => system.answers

/-- An answer that is new was given to the current process. -/
theorem served_answers
    {system : ProcessSystem} {request : SyscallRequest} {last : Regs}
    {next : SyscallState} {after : KernelState} {answer : Nat × Word}
    (member : answer ∈ (system.served request last next after).answers) :
    answer ∈ system.answers ∨
      request = .getpid ∧ system.kernel.currentProcess = some answer.1 ∧
        answer.2 = last.eax := by
  unfold served at member
  split at member
  · rename_i slot isCurrent
    rcases List.mem_append.mp member with old | new
    · exact Or.inl old
    · obtain rfl := List.mem_singleton.mp new
      exact Or.inr ⟨rfl, isCurrent, rfl⟩
  · exact Or.inl member

end ProcessSystem

inductive ProcessSystemReachable
    (initial : KernelState) (boot : SyscallState) : ProcessSystem → Prop where
  | start : ProcessSystemReachable initial boot (.start initial boot)
  | process {system : ProcessSystem} {after : KernelState}
      (request : ProcessCall) :
      ProcessSystemReachable initial boot system →
        request.perform system.kernel = some after →
        ProcessSystemReachable initial boot { system with kernel := after }
  | syscall {system : ProcessSystem} {r last : Regs} {next : SyscallState}
      {request : SyscallRequest} {after : KernelState} :
      ProcessSystemReachable initial boot system →
        system.calling.state.UserPointers r →
        system.calling.state.request r = some request →
        system.calling.state.syscallHandler r = some (last, next) →
        syscallHandler r.eax.toNat system.kernel = some ((), after) →
        ProcessSystemReachable initial boot
          (system.served request last next after)
  | key (sc : UInt8) {system : ProcessSystem} :
      ProcessSystemReachable initial boot system →
        ProcessSystemReachable initial boot
          { system with run := system.run.pressed sc }
  | store (address : Nat) (byte : UInt8) {system : ProcessSystem} :
      ProcessSystemReachable initial boot system →
        address < virtOffset →
        ProcessSystemReachable initial boot
          { system with run := system.run.stored address byte }

section Table

variable {state next : KernelState} {slot : Nat}

/-- A process that has been created, running or not. -/
structure InTable (state : KernelState) (slot : Nat) : Prop where
  below : slot < maxProcesses
  used : (state.processes slot).state ≠ .unused

/-- The process keeps its place and its number. -/
structure KeepsPid (before after : KernelState) (slot : Nat) : Prop where
  inTable : InTable after slot
  pid : (after.processes slot).pid = (before.processes slot).pid

theorem InTable.same
    (inTable : InTable state slot)
    (entry : next.processes slot = state.processes slot) :
    KeepsPid state next slot := by
  have used : (next.processes slot).state ≠ .unused := by
    rw [entry]
    exact inTable.used
  exact ⟨⟨inTable.below, used⟩, by rw [entry]⟩

/-- A process changes its state, or another one does. -/
theorem InTable.update
    (inTable : InTable state slot)
    {other : Nat} {condition : ProcessState}
    (still : condition ≠ .unused)
    (processes : next.processes = Function.update state.processes other
      { state.processes other with state := condition }) :
    KeepsPid state next slot := by
  by_cases same : slot = other
  · have entry : next.processes slot =
        { state.processes slot with state := condition } := by
      rw [processes, same, Function.update_self]
    exact ⟨⟨inTable.below, by rw [entry]; exact still⟩, by rw [entry]⟩
  · refine inTable.same ?_
    rw [processes, Function.update_of_ne same]

/-- No call gives the slot of a process to another one. -/
theorem InTable.call
    (inTable : InTable state slot)
    {request : ProcessCall}
    (performed : request.perform state = some next) :
    KeepsPid state next slot := by
  rcases request.perform_cases performed with
    same | ⟨other, pcb, entered⟩ | ⟨pid, other, _, found, rfl⟩ |
      ⟨other, _, _, rfl⟩
  · exact inTable.same (congrFun same.processes slot)
  · have different : slot ≠ other := by
      rintro rfl
      exact inTable.used (findUnusedSlot_eq_some entered.wasUnused).2
    refine inTable.same ?_
    rw [entered.processes, Function.update_of_ne different]
  · exact inTable.update (by decide) KernelState.started_processes
  · exact inTable.update (by decide) KernelState.exited_processes

/-- The current process is one of the table. -/
def CurrentInTable (state : KernelState) : Prop :=
  ∀ slot, state.currentProcess = some slot → InTable state slot

theorem CurrentInTable.call
    {request : ProcessCall}
    (current : CurrentInTable state)
    (performed : request.perform state = some next) :
    CurrentInTable next := by
  intro slot isCurrent
  have keeps : state.currentProcess = some slot → InTable next slot :=
    fun before => ((current slot before).call performed).inTable
  rcases request.perform_cases performed with
    same | ⟨other, pcb, entered⟩ | ⟨pid, other, _, found, rfl⟩ |
      ⟨other, _, _, rfl⟩
  · exact keeps (same.currentProcess ▸ isCurrent)
  · exact keeps (entered.currentProcess ▸ isCurrent)
  · rw [KernelState.started_currentProcess] at isCurrent
    obtain rfl := Option.some.inj isCurrent
    have ready := (findReadySlot_eq_some found).1
    exact ⟨ready, by simp [KernelState.started_processes]⟩
  · rw [KernelState.exited_currentProcess] at isCurrent
    cases isCurrent

/-- What a system call does to the table is a call of the table, or nothing. -/
theorem syscallHandler_cases
    {eax : Nat}
    (handled : syscallHandler eax state = some ((), next)) :
    ProcessCall.exit.perform state = some next ∨ next = state := by
  rw [syscallHandler] at handled
  split at handled
  · exact Or.inl (by rw [ProcessCall.perform, handled]; rfl)
  · exact Or.inr (Prod.mk.inj (Option.some.inj handled)).2.symm

theorem PidsRight.pid_bounds
    (right : PidsRight state)
    (inTable : InTable state slot) :
    0 < (state.processes slot).pid ∧ (state.processes slot).pid < 2 ^ 32 := by
  obtain ⟨positive, below⟩ := right.bounds slot inTable.below inTable.used
  have few : usedCount state.processes ≤ (Finset.range maxProcesses).card :=
    Finset.card_filter_le _ _
  rw [Finset.card_range] at few
  have slots : maxProcesses = 16 := rfl
  have counted := right.counted
  exact ⟨positive, by omega⟩

end Table

section Runs

variable {initial : KernelState} {boot : SyscallState}
variable {system : ProcessSystem} {after : KernelState}

/-- The answers name the processes that they were given to. -/
structure AnswersRight (system : ProcessSystem) : Prop where
  pids : PidsRight system.kernel
  current : CurrentInTable system.kernel
  answers : ∀ answer ∈ system.answers,
    InTable system.kernel answer.1 ∧
      answer.2 = BitVec.ofNat 32 (system.kernel.processes answer.1).pid

theorem AnswersRight.start
    (table : ProcessInitial initial) :
    AnswersRight (.start initial boot) where
  pids := pidsRight_initial table
  current slot isCurrent := by
    change initial.currentProcess = some slot at isCurrent
    rw [table.currentProcess] at isCurrent
    cases isCurrent
  answers _ member := absurd member List.not_mem_nil

/-- The system above the table is not looked at. -/
theorem AnswersRight.withRun
    (right : AnswersRight system)
    (run : SystemRun) :
    AnswersRight { system with run := run } :=
  ⟨right.pids, right.current, right.answers⟩

theorem AnswersRight.process
    (right : AnswersRight system)
    {request : ProcessCall}
    (performed : request.perform system.kernel = some after) :
    AnswersRight { system with kernel := after } where
  pids := right.pids.call
    (fun slot isCurrent => (right.current slot isCurrent).used) performed
  current := right.current.call performed
  answers answer member := by
    obtain ⟨inTable, isPid⟩ := right.answers answer member
    have keeps := inTable.call performed
    exact ⟨keeps.inTable, by rw [isPid, keeps.pid]⟩

/-- The process that calls is told its own number. -/
theorem AnswersRight.served
    (right : AnswersRight system)
    {r last : Regs} {next : SyscallState} {request : SyscallRequest}
    (asked : system.calling.state.request r = some request)
    (handled : system.calling.state.syscallHandler r = some (last, next)) :
    AnswersRight (system.served request last next system.kernel) := by
  refine ⟨right.pids, right.current, fun answer member => ?_⟩
  have serves := SyscallState.syscallHandler_serves asked handled
  rcases ProcessSystem.served_answers member with old | ⟨rfl, isCurrent, told⟩
  · exact right.answers answer old
  · have own : last.eax = BitVec.ofNat 32 system.kernel.currentPid :=
      (congrArg (fun served => served.1.eax) serves).symm
    refine ⟨right.current answer.1 isCurrent, ?_⟩
    rw [told, own, KernelState.currentPid, isCurrent]
    rfl

theorem AnswersRight.syscall
    (right : AnswersRight system)
    {r last : Regs} {next : SyscallState} {request : SyscallRequest}
    (asked : system.calling.state.request r = some request)
    (handled : system.calling.state.syscallHandler r = some (last, next))
    (tables : syscallHandler r.eax.toNat system.kernel = some ((), after)) :
    AnswersRight (system.served request last next after) := by
  have served := right.served asked handled
  rcases syscallHandler_cases tables with exits | rfl
  · exact served.process exits
  · exact served

/-- Every run of the whole is one of the table and one of the system. -/
theorem ProcessSystemReachable.parts
    (reached : ProcessSystemReachable initial boot system) :
    ProcessReachable AnyCall initial system.kernel ∧
      SystemReachable boot system.run := by
  induction reached with
  | start => exact ⟨.init, .start⟩
  | process request _ performed inductionHypothesis =>
      obtain ⟨table, run⟩ := inductionHypothesis
      exact ⟨table.call request trivial performed, run⟩
  | syscall _ pointers asked handled tables inductionHypothesis =>
      obtain ⟨table, run⟩ := inductionHypothesis
      refine ⟨?_, (run.switch _).syscall pointers asked handled⟩
      rcases syscallHandler_cases tables with exits | rfl
      · exact table.call .exit trivial exits
      · exact table
  | key sc _ inductionHypothesis =>
      obtain ⟨table, run⟩ := inductionHypothesis
      exact ⟨table, run.key sc⟩
  | store address byte _ below inductionHypothesis =>
      obtain ⟨table, run⟩ := inductionHypothesis
      exact ⟨table, run.store address byte below⟩

theorem ProcessSystemReachable.answersRight
    (table : ProcessInitial initial)
    (reached : ProcessSystemReachable initial boot system) :
    AnswersRight system := by
  induction reached with
  | start => exact .start table
  | process request _ performed inductionHypothesis =>
      exact inductionHypothesis.process performed
  | syscall _ _ asked handled tables inductionHypothesis =>
      exact inductionHypothesis.syscall asked handled tables
  | key sc _ inductionHypothesis => exact inductionHypothesis.withRun _
  | store address byte _ _ inductionHypothesis =>
      exact inductionHypothesis.withRun _

end Runs

/-- The first process asks who it is. -/
theorem demoKernel_asked :
    ∃ system, ProcessSystemReachable demoKernel echoBoot system ∧
      system.answers = [(0, 1)] := by
  obtain ⟨created, frames, run, entry, found⟩ := demoKernel_ready
  have creates : (ProcessCall.create [0x61]).perform demoKernel =
      some created := by
    rw [ProcessCall.perform, run]
    rfl
  have starts : (ProcessCall.start 1).perform created =
      some (created.started 0) := by
    rw [ProcessCall.perform, processStart_of_some found]
    rfl
  have boots : ProcessSystemReachable demoKernel echoBoot _ := .start
  have running := (boots.process _ creates).process _ starts
  have asks := running.syscall (r := echoRegs 5 0) trivial rfl rfl rfl
  refine ⟨_, asks, ?_⟩
  have current := @KernelState.started_currentProcess created 0
  have isPid : (created.started 0).currentPid = 1 := by
    rw [KernelState.currentPid, current]
    dsimp only
    rw [KernelState.started_processes, Function.update_self, entry]
    rfl
  unfold ProcessSystem.served
  dsimp only
  rw [current]
  change [] ++ [(0, BitVec.ofNat 32 (created.started 0).currentPid)] = _
  rw [isPid]
  rfl

end MatrixOS
