import MatrixOS.Vmm

namespace MatrixOS

open ByteMemory

/-!
# Processes

`kernel/process/process.c`, the modules of `loader.c` it starts from, the
switch to user mode of `switch.asm` and the system calls that reach it.  What
the functions print is left out.
-/

/-- `MAX_PROCESSES`. -/
def maxProcesses : Nat := 16

/-- `USER_STACK_TOP`. -/
def userStackTop : Nat := 0xBFFFFFFB

/-- `SYSCALL_EXIT`. -/
def syscallExit : Nat := 1

/-- A cleared `pcb_t`. -/
def Pcb.clear : Pcb where
  pid := 0
  state := .unused
  name := []
  pageDirectory := 0
  entryPoint := 0
  userStack := 0
  kernelStack := 0

namespace KernelState

/-- The state with another process in a slot of the table. -/
def withProcess (state : KernelState) (slot : Nat) (pcb : Pcb) : KernelState :=
  { state with processes := Function.update state.processes slot pcb }

def withCurrentProcess
    (state : KernelState) (current : Option Nat) : KernelState :=
  { state with currentProcess := current }

def withNextPid (state : KernelState) (pid : Nat) : KernelState :=
  { state with nextPid := pid }

def withCr3 (state : KernelState) (cr3 : Nat) : KernelState :=
  { state with cr3 := cr3 }

section Updates

variable (state : KernelState) (slot : Nat) (pcb : Pcb)
variable (current : Option Nat) (cr3 : Nat) (buddySys : Pmm.BuddySystem)

@[simp] theorem withProcess_processes :
    (state.withProcess slot pcb).processes =
      Function.update state.processes slot pcb :=
  rfl

@[simp] theorem withCurrentProcess_processes :
    (state.withCurrentProcess current).processes = state.processes :=
  rfl

@[simp] theorem withCr3_processes :
    (state.withCr3 cr3).processes = state.processes :=
  rfl

@[simp] theorem withBuddySys_processes :
    (state.withBuddySys buddySys).processes = state.processes :=
  rfl

@[simp] theorem withProcess_currentProcess :
    (state.withProcess slot pcb).currentProcess = state.currentProcess :=
  rfl

@[simp] theorem withCurrentProcess_currentProcess :
    (state.withCurrentProcess current).currentProcess = current :=
  rfl

@[simp] theorem withCr3_currentProcess :
    (state.withCr3 cr3).currentProcess = state.currentProcess :=
  rfl

@[simp] theorem withProcess_nextPid :
    (state.withProcess slot pcb).nextPid = state.nextPid :=
  rfl

@[simp] theorem withCurrentProcess_nextPid :
    (state.withCurrentProcess current).nextPid = state.nextPid :=
  rfl

@[simp] theorem withCr3_nextPid :
    (state.withCr3 cr3).nextPid = state.nextPid :=
  rfl

@[simp] theorem withBuddySys_nextPid :
    (state.withBuddySys buddySys).nextPid = state.nextPid :=
  rfl

@[simp] theorem withProcess_buddySys :
    (state.withProcess slot pcb).buddySys = state.buddySys :=
  rfl

@[simp] theorem withCurrentProcess_buddySys :
    (state.withCurrentProcess current).buddySys = state.buddySys :=
  rfl

@[simp] theorem withCr3_buddySys :
    (state.withCr3 cr3).buddySys = state.buddySys :=
  rfl

@[simp] theorem withBuddySys_buddySys :
    (state.withBuddySys buddySys).buddySys = buddySys :=
  rfl

@[simp] theorem withProcess_cr3 :
    (state.withProcess slot pcb).cr3 = state.cr3 :=
  rfl

@[simp] theorem withCurrentProcess_cr3 :
    (state.withCurrentProcess current).cr3 = state.cr3 :=
  rfl

@[simp] theorem withCr3_cr3 : (state.withCr3 cr3).cr3 = cr3 :=
  rfl

@[simp] theorem withBuddySys_cr3 :
    (state.withBuddySys buddySys).cr3 = state.cr3 :=
  rfl

@[simp] theorem withProcess_mem :
    (state.withProcess slot pcb).mem = state.mem :=
  rfl

@[simp] theorem withCurrentProcess_mem :
    (state.withCurrentProcess current).mem = state.mem :=
  rfl

@[simp] theorem withBuddySys_mem :
    (state.withBuddySys buddySys).mem = state.mem :=
  rfl

@[simp] theorem withProcess_tempMgr :
    (state.withProcess slot pcb).tempMgr = state.tempMgr :=
  rfl

@[simp] theorem withCurrentProcess_tempMgr :
    (state.withCurrentProcess current).tempMgr = state.tempMgr :=
  rfl

@[simp] theorem withBuddySys_tempMgr :
    (state.withBuddySys buddySys).tempMgr = state.tempMgr :=
  rfl

@[simp] theorem withProcess_modules :
    (state.withProcess slot pcb).modules = state.modules :=
  rfl

@[simp] theorem withCurrentProcess_modules :
    (state.withCurrentProcess current).modules = state.modules :=
  rfl

@[simp] theorem withBuddySys_modules :
    (state.withBuddySys buddySys).modules = state.modules :=
  rfl

end Updates

end KernelState

/-- `process_init`; `current_process` and `next_pid` keep their values. -/
def processInit : Kernel Unit := fun state =>
  some ((), { state with processes := fun _ => Pcb.clear })

/-- `loader_find_module`. -/
def loaderFindModule (name : List UInt8) : Kernel (Option ModuleInfo) :=
  fun state =>
    some (state.modules.find? fun module => module.name = name, state)

/-- The first slot of the process table that is not in use. -/
def findUnusedSlot (processes : Nat → Pcb) : Option Nat :=
  (List.range maxProcesses).find? fun slot =>
    (processes slot).state = .unused

/-- The first slot with a process that `process_start` can start. -/
def findReadySlot (processes : Nat → Pcb) (pid : Nat) : Option Nat :=
  (List.range maxProcesses).find? fun slot =>
    (processes slot).pid = pid ∧ (processes slot).state = .ready

/-- The dump of the first `count` bytes of the code page. -/
def dumpUserCode (userCode : Nat) : (count : Nat) → Kernel Unit
  | 0 => pure ()
  | count + 1 => do
      dumpUserCode userCode count
      let _ ← load8 (userCode + count)

/--
The verification of the page tables in `process_create_from_module`.  What it
finds is only printed; the disassembly looks at bytes of the dump again.
-/
def verifyPageTables (userPageDir : Nat) : Kernel Unit := do
  let tempPageDir ← tempMapPage userPageDir
  let dirEntry ← load32 (tempPageDir + 0 * 4)
  if dirEntry &&& 0x1 ≠ 0 then
    let tempTable ← tempMapPage (dirEntry &&& 0xFFFFF000)
    let tableEntry ← load32 (tempTable + 0 * 4)
    if tableEntry &&& 0x1 ≠ 0 then
      let userPagePhys := tableEntry &&& 0xFFFFF000
      if userPagePhys = 0x2101000 then
        let tempUserPage ← tempMapPage userPagePhys
        dumpUserCode tempUserPage 16
        tempUnmapPage tempUserPage
    tempUnmapPage tempTable
  tempUnmapPage tempPageDir

/-- `pcb->pid = next_pid++` and the other fields of a new process. -/
def enterProcess
    (slot : Nat) (name : List UInt8) (userPageDir kernelStack : Nat) :
    Kernel Nat := fun state =>
  let pcb : Pcb := {
    pid := state.nextPid
    state := .ready
    name := name.take (32 - 1)
    pageDirectory := userPageDir
    entryPoint := 0x00000000
    userStack := userStackTop
    kernelStack := wrap32 (kernelStack + pageSize) }
  some (pcb.pid,
    (state.withProcess slot pcb).withNextPid (wrap32 (state.nextPid + 1)))

/-- `process_create_from_module`: the pid of the new process, or 0. -/
def processCreateFromModule (moduleName : List UInt8) : Kernel Nat := do
  match ← loaderFindModule moduleName with
  | none => return 0
  | some module =>
      match findUnusedSlot (← get).processes with
      | none => return 0
      | some slot =>
          let userPageDir ← vmmCreateUserSpace
          if userPageDir = 0 then
            return 0
          let loaded ←
            vmmLoadUserProgram userPageDir module.start module.size
          if loaded = 0 then
            vmmDestroyUserSpace userPageDir
            return 0
          let kernelStack ← pmmAllocPages 0
          if kernelStack = 0 then
            vmmDestroyUserSpace userPageDir
            return 0
          let pid ← enterProcess slot moduleName userPageDir kernelStack
          verifyPageTables userPageDir
          return pid

/-- The frame `iret` takes a process to user mode with. -/
structure UserFrame where
  eip : Nat
  cs : Nat
  eflags : Nat
  esp : Nat
  ss : Nat
  deriving Repr, DecidableEq

/-- `switch_to_user_mode`. -/
def switchToUserMode (pageDir entry stack : Nat) : Kernel UserFrame :=
  fun state =>
    some (⟨entry, 0x1B, 0x202, stack, 0x23⟩, state.withCr3 pageDir)

/--
`process_start`: the frame with which the process starts, or `none` when there
is no such process and the function returns.
-/
def processStart (pid : Nat) : Kernel (Option UserFrame) := do
  match findReadySlot (← get).processes pid with
  | none => return none
  | some slot =>
      let pcb := (← get).processes slot
      modify fun state => (state.withCurrentProcess (some slot)).withProcess
        slot { pcb with state := .running }
      let frame ←
        switchToUserMode pcb.pageDirectory pcb.entryPoint pcb.userStack
      return some frame

/-- `process_exit_current`. -/
def processExitCurrent : Kernel Unit := do
  match (← get).currentProcess with
  | none => return
  | some slot =>
      vmmDestroyUserSpace ((← get).processes slot).pageDirectory
      pmmFreePages (sub32 ((← get).processes slot).kernelStack pageSize) 0
      modify fun state => state.withProcess slot
        { state.processes slot with state := .terminated }
      modify fun state => state.withCurrentProcess none

/--
What `syscall_handler` does to the tables of the kernel.  The other calls
reach the console, the keyboard and the files, and memory through the pointers
of the process.
-/
def syscallHandler (eax : Nat) : Kernel Unit := do
  if eax = syscallExit then
    processExitCurrent

end MatrixOS
