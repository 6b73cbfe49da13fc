import MatrixOS.Paging
import MatrixOS.Pmm
import MatrixOS.StateOption
import MatrixOS.StringLib

namespace MatrixOS

open ByteMemory Paging

/-!
# The kernel state

Physical memory, the page directory register and the tables the kernel keeps.
The page allocator works on its own state: the list nodes and the bitmap it
keeps in the pages it manages are not part of `mem`.

Kernel code reads and writes memory through the page tables `cr3` points to;
rights do not matter to it.  An access to a page that is not mapped, or an
attempt to take a lock that is held, does not return.
-/

/-- `process_state_t`. -/
inductive ProcessState where
  | unused
  | ready
  | running
  | blocked
  | terminated
  deriving Repr, DecidableEq

/-- `pcb_t`, without the field `cr3_snapshot` that nothing uses. -/
structure Pcb where
  pid : Nat
  state : ProcessState
  name : List UInt8
  pageDirectory : Nat
  entryPoint : Nat
  userStack : Nat
  kernelStack : Nat
  deriving Repr, DecidableEq

/-- `module_info_t`; a name is its bytes before the terminator. -/
structure ModuleInfo where
  name : List UInt8
  start : Nat
  size : Nat
  deriving Repr, DecidableEq

/-- `struct temp_mapping_manager`. -/
structure TempMappingManager where
  lock : Bool
  availableSlots : Nat
  refCount : Nat → Nat

structure KernelState where
  mem : Memory
  cr3 : Nat
  buddySys : Pmm.BuddySystem
  tempMgr : TempMappingManager
  modules : List ModuleInfo
  processes : Nat → Pcb
  currentProcess : Option Nat
  nextPid : Nat

/-- Kernel code; `none` when it does not return. -/
abbrev Kernel := StateT KernelState Option

namespace KernelState

/-- The state with other memory contents. -/
def withMem (state : KernelState) (mem : Memory) : KernelState :=
  { state with mem := mem }

/-- The state with another state of the temporary mappings. -/
def withTempMgr (state : KernelState) (mgr : TempMappingManager) :
    KernelState :=
  { state with tempMgr := mgr }

/-- The state with another state of the page allocator. -/
def withBuddySys (state : KernelState) (buddySys : Pmm.BuddySystem) :
    KernelState :=
  { state with buddySys := buddySys }

section Updates

variable (state : KernelState) (mem : Memory) (mgr : TempMappingManager)

@[simp] theorem withMem_mem : (state.withMem mem).mem = mem := rfl

@[simp] theorem withMem_cr3 : (state.withMem mem).cr3 = state.cr3 := rfl

@[simp] theorem withMem_tempMgr :
    (state.withMem mem).tempMgr = state.tempMgr := rfl

@[simp] theorem withTempMgr_mem :
    (state.withTempMgr mgr).mem = state.mem := rfl

@[simp] theorem withTempMgr_cr3 :
    (state.withTempMgr mgr).cr3 = state.cr3 := rfl

@[simp] theorem withTempMgr_tempMgr :
    (state.withTempMgr mgr).tempMgr = mgr := rfl

end Updates

end KernelState

/-! ## Memory accesses -/

/-- Where the running code's pointer leads in a state. -/
def KernelState.resolve (state : KernelState) (ptr : Nat) : Option Nat :=
  walk state.mem state.cr3 ptr

def load8 (ptr : Nat) : Kernel UInt8 := fun state =>
  (state.resolve ptr).map fun addr => (state.mem addr, state)

def store8 (ptr : Nat) (byte : UInt8) : Kernel Unit := fun state =>
  (state.resolve ptr).map fun addr =>
    ((), state.withMem (Function.update state.mem addr byte))

/-- Read an aligned word. -/
def load32 (ptr : Nat) : Kernel Nat := fun state =>
  (state.resolve ptr).map fun addr => (load state.mem 4 addr, state)

/-- Write an aligned word. -/
def store32 (ptr value : Nat) : Kernel Unit := fun state =>
  (state.resolve ptr).map fun addr =>
    ((), state.withMem (store state.mem 4 addr value))

/-- The byte functions of `lib/string.c` run through the page tables. -/
def virtualAccess : ByteAccess Kernel where
  load8 := load8
  store8 := store8

/-! ## The page allocator -/

def pmmAllocPages (order : Nat) : Kernel Nat := fun state =>
  let (addr, buddySys) := Pmm.pmmAllocPages state.buddySys order
  some (addr, state.withBuddySys buddySys)

def pmmFreePages (pageAddr order : Nat) : Kernel Unit := fun state =>
  some ((), state.withBuddySys
    (Pmm.pmmFreePages state.buddySys pageAddr order))

end MatrixOS
