import Mathlib.Tactic.Ring
import MatrixOS.ByteMemory

namespace X86

open ByteMemory

/-!
# Descriptor tables of the 32-bit processor

What the processor reads from its tables in memory when an interrupt comes,
when code jumps to another segment, and when it reads or writes a port.  The
tables are bytes of a memory; a fault is `none`.  There is no local table, and
of the gates for interrupts only those of 32 bits are considered.
-/

/-- Where a table lies: its first byte, and the offset of its last one. -/
structure TableRegister where
  base : Nat
  limit : Nat
  deriving Repr, DecidableEq

/-- The registers that name the tables; `task` is what `ltr` has read. -/
structure TableRegisters where
  idtr : TableRegister
  gdtr : TableRegister
  task : TableRegister
  deriving Repr, DecidableEq

/-- A descriptor of a segment or of a task. -/
structure SegmentDescriptor where
  base : Nat
  limit : Nat
  access : Nat
  deriving Repr, DecidableEq

/-- A descriptor of the interrupt table. -/
structure GateDescriptor where
  offset : Nat
  selector : Nat
  access : Nat
  deriving Repr, DecidableEq

/-! ## Access bytes -/

namespace Access

def present (access : Nat) : Prop :=
  access / 128 % 2 = 1

/-- The privilege level of a descriptor. -/
def dpl (access : Nat) : Nat :=
  access / 32 % 4

/-- The type of a descriptor that is neither code nor data. -/
def systemType (access : Nat) : Option Nat :=
  if access / 16 % 2 = 0 then some (access % 16) else none

def isCode (access : Nat) : Prop :=
  access / 16 % 2 = 1 ∧ access / 8 % 2 = 1

def conforming (access : Nat) : Prop :=
  access / 4 % 2 = 1

def isWritableData (access : Nat) : Prop :=
  access / 16 % 2 = 1 ∧ access / 8 % 2 = 0 ∧ access / 2 % 2 = 1

instance (access : Nat) : Decidable (present access) :=
  inferInstanceAs (Decidable (_ = _))

instance (access : Nat) : Decidable (isCode access) :=
  inferInstanceAs (Decidable (_ ∧ _))

instance (access : Nat) : Decidable (conforming access) :=
  inferInstanceAs (Decidable (_ = _))

instance (access : Nat) : Decidable (isWritableData access) :=
  inferInstanceAs (Decidable (_ ∧ _))

end Access

/-! ## Reading the tables -/

def readSegment (mem : Memory) (address : Nat) : SegmentDescriptor where
  base := load mem 2 (address + 2) + 0x10000 * load mem 1 (address + 4) +
    0x1000000 * load mem 1 (address + 7)
  limit :=
    let pages := load mem 2 address + 0x10000 * (load mem 1 (address + 6) % 16)
    if load mem 1 (address + 6) / 128 % 2 = 1 then pages * 4096 + 4095
    else pages
  access := load mem 1 (address + 5)

def readGate (mem : Memory) (address : Nat) : GateDescriptor where
  offset := load mem 2 address + 0x10000 * load mem 2 (address + 6)
  selector := load mem 2 (address + 2)
  access := load mem 1 (address + 5)

/-- The descriptor that a selector names. -/
def segment (mem : Memory) (gdtr : TableRegister) (selector : Nat) :
    Option SegmentDescriptor :=
  if selector / 8 ≠ 0 ∧ selector / 4 % 2 = 0 ∧
      selector / 8 * 8 + 7 ≤ gdtr.limit then
    some (readSegment mem (gdtr.base + selector / 8 * 8))
  else
    none

/-- `ltr`, which marks the task as busy. -/
def loadTask (mem : Memory) (regs : TableRegisters) (selector : Nat) :
    Option (Memory × TableRegisters) := do
  let task ← segment mem regs.gdtr selector
  guard (Access.systemType task.access = some 9 ∧ Access.present task.access)
  return (store mem 1 (regs.gdtr.base + selector / 8 * 8 + 5) (task.access + 2),
    { regs with task := ⟨task.base, task.limit⟩ })

/-! ## Interrupts -/

/-- Where the processor goes on, and with which stack if it changes stacks. -/
structure EntryPoint where
  level : Nat
  selector : Nat
  eip : Nat
  stack : Option (Nat × Nat)
  maskInterrupts : Bool
  deriving Repr, DecidableEq

/-- The stack that the task has for a privilege level. -/
def taskStack (mem : Memory) (regs : TableRegisters) (level : Nat) :
    Option (Nat × Nat) := do
  guard (8 * level + 9 ≤ regs.task.limit)
  let ss := load mem 2 (regs.task.base + (8 * level + 8))
  let data ← segment mem regs.gdtr ss
  guard (ss % 4 = level ∧ Access.dpl data.access = level ∧
    Access.isWritableData data.access ∧ Access.present data.access)
  return (ss, load mem 4 (regs.task.base + (8 * level + 4)))

/-- What makes an interrupt: an `int` instruction, or anything else. -/
inductive Cause where
  | instruction
  | event
  deriving Repr, DecidableEq

/-- The processor at privilege level `cpl` takes an interrupt. -/
def deliver
    (mem : Memory) (regs : TableRegisters) (cpl : Nat) (cause : Cause)
    (vector : Nat) : Option EntryPoint := do
  guard (8 * vector + 7 ≤ regs.idtr.limit)
  let gate := readGate mem (regs.idtr.base + 8 * vector)
  let type := Access.systemType gate.access
  guard (type = some 0xE ∨ type = some 0xF)
  guard (cause = .instruction → cpl ≤ Access.dpl gate.access)
  guard (Access.present gate.access)
  let code ← segment mem regs.gdtr gate.selector
  guard (Access.isCode code.access ∧ Access.dpl code.access ≤ cpl ∧
    Access.present code.access ∧ gate.offset ≤ code.limit)
  let masks := decide (type = some 0xE)
  if Access.conforming code.access ∨ Access.dpl code.access = cpl then
    return ⟨cpl, gate.selector, gate.offset, none, masks⟩
  else
    let stack ← taskStack mem regs (Access.dpl code.access)
    return ⟨Access.dpl code.access, gate.selector, gate.offset, some stack,
      masks⟩

/--
`iret` to a privilege level with less rights; the segment registers must name
code and a stack of that level.
-/
def returnOutward
    (mem : Memory) (regs : TableRegisters) (cpl cs ss : Nat) : Option Nat := do
  guard (cpl < cs % 4)
  let code ← segment mem regs.gdtr cs
  guard (Access.isCode code.access ∧ Access.present code.access ∧
    (if Access.conforming code.access then Access.dpl code.access ≤ cs % 4
    else Access.dpl code.access = cs % 4))
  let data ← segment mem regs.gdtr ss
  guard (ss % 4 = cs % 4 ∧ Access.dpl data.access = cs % 4 ∧
    Access.isWritableData data.access ∧ Access.present data.access)
  return cs % 4

/-! ## What else code can try -/

/-- A far jump or call. -/
inductive FarTransfer where
  | refused
  /-- To other code of the same privilege level. -/
  | code
  /-- Through a gate or to another task. -/
  | system (type : Nat)
  deriving Repr, DecidableEq

/-- What a far jump or call by code of privilege level `cpl` comes to. -/
def farTransfer
    (mem : Memory) (regs : TableRegisters) (cpl selector : Nat) : FarTransfer :=
  match segment mem regs.gdtr selector with
  | none => .refused
  | some target =>
      match Access.systemType target.access with
      | some type =>
          if type ∈ [1, 4, 5, 9, 12] ∧ Access.present target.access ∧
              cpl ≤ Access.dpl target.access ∧
              selector % 4 ≤ Access.dpl target.access then
            .system type
          else
            .refused
      | none =>
          if Access.isCode target.access ∧ Access.present target.access ∧
              (if Access.conforming target.access then
                Access.dpl target.access ≤ cpl
              else
                selector % 4 ≤ cpl ∧ Access.dpl target.access = cpl) then
            .code
          else
            .refused

/-- Whether `in` and `out` may use a port, by level or by the task's bitmap. -/
def portAllowed
    (mem : Memory) (regs : TableRegisters) (cpl iopl port : Nat) : Prop :=
  cpl ≤ iopl ∨
    103 ≤ regs.task.limit ∧
      load mem 2 (regs.task.base + 102) + port / 8 + 1 ≤ regs.task.limit ∧
      load mem 2 (regs.task.base + (load mem 2 (regs.task.base + 102) +
        port / 8)) / 2 ^ (port % 8) % 2 = 0

instance
    (mem : Memory) (regs : TableRegisters) (cpl iopl port : Nat) :
    Decidable (portAllowed mem regs cpl iopl port) :=
  inferInstanceAs (Decidable (_ ∨ _))

/-- An instruction with which code may reach beyond its privilege level. -/
inductive Escape where
  | int (vector : Nat)
  | far (selector : Nat)
  | port (number : Nat)
  deriving Repr, DecidableEq

/-- What comes of it. -/
inductive EscapeOutcome where
  /-- The processor faults. -/
  | refused
  | goesOn
  | usesPort
  | enters (entry : EntryPoint)
  | system (type : Nat)
  deriving Repr, DecidableEq

/-- Code of privilege level `cpl` attempts something. -/
def Escape.outcome
    (mem : Memory) (regs : TableRegisters) (cpl iopl : Nat) :
    Escape → EscapeOutcome
  | int vector =>
      match deliver mem regs cpl .instruction vector with
      | some entry => .enters entry
      | none => .refused
  | far selector =>
      match farTransfer mem regs cpl selector with
      | .refused => .refused
      | .code => .goesOn
      | .system type => .system type
  | port number =>
      if portAllowed mem regs cpl iopl number then .usesPort else .refused

/-! ## What the tables decide -/

section Congruence

variable {left right : Memory} {regs : TableRegisters}

/-- The two memories hold the same tables. -/
structure SameDescriptors (left right : Memory) (regs : TableRegisters) : Prop where
  idt : Agree regs.idtr.base (regs.idtr.limit + 1) left right
  gdt : Agree regs.gdtr.base (regs.gdtr.limit + 1) left right
  /-- The fields of the task; its bitmap, if there is one, lies above. -/
  task : Agree regs.task.base 104 left right

theorem readSegment_congr
    {address : Nat}
    (agree : Agree address 8 left right) :
    readSegment left address = readSegment right address := by
  have word {width offset : Nat} (inside : offset + width ≤ 8) :
      load left width (address + offset) = load right width (address + offset) :=
    load_congr (agree.mono (by omega) (by omega))
  have first : load left 2 address = load right 2 address :=
    word (show 0 + 2 ≤ 8 by omega)
  simp only [readSegment, first, word (show 2 + 2 ≤ 8 by omega),
    word (show 4 + 1 ≤ 8 by omega), word (show 5 + 1 ≤ 8 by omega),
    word (show 6 + 1 ≤ 8 by omega), word (show 7 + 1 ≤ 8 by omega)]

theorem readGate_congr
    {address : Nat}
    (agree : Agree address 8 left right) :
    readGate left address = readGate right address := by
  have word {width offset : Nat} (inside : offset + width ≤ 8) :
      load left width (address + offset) = load right width (address + offset) :=
    load_congr (agree.mono (by omega) (by omega))
  have first : load left 2 address = load right 2 address :=
    word (show 0 + 2 ≤ 8 by omega)
  simp only [readGate, first, word (show 2 + 2 ≤ 8 by omega),
    word (show 5 + 1 ≤ 8 by omega), word (show 6 + 2 ≤ 8 by omega)]

/-- Without privilege and without a bitmap no port is allowed. -/
theorem not_portAllowed
    {mem : Memory}
    {cpl iopl port : Nat}
    (privileged : iopl < cpl)
    (noBitmap : regs.task.limit ≤ load mem 2 (regs.task.base + 102)) :
    ¬ portAllowed mem regs cpl iopl port := by
  rintro (level | ⟨_, inside, _⟩)
  · exact Nat.not_lt.mpr level privileged
  · omega

end Congruence

/-! ## Interrupts through a gate -/

section Gates

variable {mem : Memory} {regs : TableRegisters} {cpl vector : Nat}
variable {cause : Cause} {gate : GateDescriptor} {code : SegmentDescriptor}

/-- The table has an interrupt gate for the vector. -/
structure InterruptGate
    (mem : Memory) (regs : TableRegisters) (vector : Nat)
    (gate : GateDescriptor) : Prop where
  inTable : 8 * vector + 7 ≤ regs.idtr.limit
  reads : readGate mem (regs.idtr.base + 8 * vector) = gate
  type : Access.systemType gate.access = some 0xE
  present : Access.present gate.access

/-- The selector of a gate names code of privilege level 0 that has its offset. -/
structure LeadsToKernel
    (mem : Memory) (regs : TableRegisters) (gate : GateDescriptor)
    (code : SegmentDescriptor) : Prop where
  names : segment mem regs.gdtr gate.selector = some code
  isCode : Access.isCode code.access
  level : Access.dpl code.access = 0
  notConforming : ¬ Access.conforming code.access
  present : Access.present code.access
  inside : gate.offset ≤ code.limit

theorem deliver_outside (outside : regs.idtr.limit < 8 * vector + 7) :
    deliver mem regs cpl cause vector = none := by
  simp [deliver, guard, Nat.not_le.mpr outside]

/-- An `int` instruction needs the privilege level of the gate. -/
theorem deliver_refused
    (hasGate : InterruptGate mem regs vector gate)
    (above : Access.dpl gate.access < cpl) :
    deliver mem regs cpl .instruction vector = none := by
  simp [deliver, guard, hasGate.inTable, hasGate.reads, hasGate.type,
    Nat.not_le.mpr above]

/-- From privilege level 0 an interrupt stays on its stack. -/
theorem deliver_kernel
    (hasGate : InterruptGate mem regs vector gate)
    (kernel : LeadsToKernel mem regs gate code) :
    deliver mem regs 0 cause vector =
      some ⟨0, gate.selector, gate.offset, none, true⟩ := by
  simp [deliver, guard, hasGate.inTable, hasGate.reads, hasGate.type,
    hasGate.present, kernel.names, kernel.isCode, kernel.level, kernel.present,
    kernel.inside]

/-- From any other level it goes on with the task's stack for level 0. -/
theorem deliver_inward
    (hasGate : InterruptGate mem regs vector gate)
    (kernel : LeadsToKernel mem regs gate code)
    (inward : 0 < cpl)
    (allowed : cause = .instruction → cpl ≤ Access.dpl gate.access) :
    deliver mem regs cpl cause vector =
      (taskStack mem regs 0).map fun stack =>
        ⟨0, gate.selector, gate.offset, some stack, true⟩ := by
  have differs : ¬ 0 = cpl := Nat.ne_of_lt inward
  simp [deliver, guard, hasGate.inTable, hasGate.reads, hasGate.type,
    hasGate.present, kernel.names, kernel.isCode, kernel.level, kernel.present,
    kernel.inside, kernel.notConforming, differs]
  rw [if_pos allowed, Option.map_eq_bind]
  rfl

end Gates

end X86
