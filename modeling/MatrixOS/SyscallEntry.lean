import MatrixOS.InterruptEntry
import MatrixOS.Process
import MatrixOS.Vfs

namespace MatrixOS

open X86

/-!
# System-call entry and exit

`syscall_entry` of `kernel/syscall/syscall_asm.asm` and what `syscall_handler`
does with its `struct regs`.
-/

/-- `syscall_entry`, up to the call. -/
def syscallBeforeCall : List Instr :=
  [.pusha, .pushSeg .ds, .pushSeg .es, .pushSeg .fs, .pushSeg .gs,
    .movAxImm 0x10, .movSegAx .ds, .movSegAx .es, .movSegAx .fs, .movSegAx .gs,
    .pushEsp]

/-- `syscall_entry` between the call and `iret`. -/
def syscallAfterCall : List Instr :=
  [.addEsp 1, .popSeg .gs, .popSeg .fs, .popSeg .es, .popSeg .ds, .popa]

/-- `struct regs`. -/
structure Regs where
  gs : Word
  fs : Word
  es : Word
  ds : Word
  edi : Word
  esi : Word
  ebp : Word
  esp : Word
  ebx : Word
  edx : Word
  ecx : Word
  eax : Word
  intNo : Word
  errCode : Word
  eip : Word
  cs : Word
  eflags : Word
  useresp : Word
  ss : Word

/-- The record that lies above the argument. -/
def regsAt (stack : Nat → Word) : Regs where
  gs := stack 1
  fs := stack 2
  es := stack 3
  ds := stack 4
  edi := stack 5
  esi := stack 6
  ebp := stack 7
  esp := stack 8
  ebx := stack 9
  edx := stack 10
  ecx := stack 11
  eax := stack 12
  intNo := stack 13
  errCode := stack 14
  eip := stack 15
  cs := stack 16
  eflags := stack 17
  useresp := stack 18
  ss := stack 19

/-! ## The handler -/

/-- What the functions that `syscall_handler` calls return to it. -/
structure Services where
  pid : Word
  keyboardGetChar : BitVec 8
  vfsOpen : (path flags : Word) → Word
  vfsClose : (fd : Word) → Word
  vfsRead : (fd buf count : Word) → Word
  vfsWrite : (fd buf count : Word) → Word
  vfsSeek : (fd offset whence : Word) → Word
  vfsIoctl : (fd request argp : Word) → Word
  vfsStat : (path stat : Word) → Word

/-- `EINVAL`, as it is stored in `eax`. -/
def einvalWord : Word :=
  BitVec.ofInt 32 einval

/-- `syscall_handler`, for what it stores in `r`. -/
def syscallHandlerRegs (services : Services) (r : Regs) : Regs :=
  match r.eax.toNat with
  | 1 => r
  | 2 => r
  | 4 => r
  | 3 => { r with eax := services.keyboardGetChar.signExtend 32 }
  | 5 => { r with eax := services.pid }
  | 10 => { r with
      eax := if r.ebx ≠ 0 then services.vfsOpen r.ebx r.ecx else einvalWord }
  | 11 => { r with eax := services.vfsClose r.ebx }
  | 12 => { r with
      eax := if r.ecx ≠ 0 then services.vfsRead r.ebx r.ecx r.edx
        else einvalWord }
  | 13 => { r with
      eax := if r.ecx ≠ 0 then services.vfsWrite r.ebx r.ecx r.edx
        else einvalWord }
  | 14 => { r with eax := services.vfsSeek r.ebx r.ecx r.edx }
  | 15 => { r with eax := services.vfsIoctl r.ebx r.ecx r.edx }
  | 16 => { r with
      eax := if r.ebx = 0 ∨ r.ecx = 0 then einvalWord
        else services.vfsStat r.ebx r.ecx }
  | _ => { r with eax := BitVec.ofInt 32 (-1) }

/-- Nothing but the result is stored. -/
theorem syscallHandlerRegs_eq (services : Services) (r : Regs) :
    syscallHandlerRegs services r =
      { r with eax := (syscallHandlerRegs services r).eax } := by
  unfold syscallHandlerRegs
  split <;> rfl

/-- The stack when the handler has stored its result. -/
def storeResult (services : Services) (called : Cpu) : Cpu :=
  { called with
    stack := Function.update called.stack 12
      (syscallHandlerRegs services (regsAt called.stack)).eax }

theorem regsAt_storeResult (services : Services) (called : Cpu) :
    regsAt (storeResult services called).stack =
      syscallHandlerRegs services (regsAt called.stack) := by
  rw [syscallHandlerRegs_eq]
  rfl

/-- A system call from its frame to `iret`. -/
structure SyscallRun
    (services : Services) (entered called returned last : Cpu) : Prop where
  atCall : called = run syscallBeforeCall entered
  returns : CalleeReturns 1 (storeResult services called) returned
  atIret : last = run syscallAfterCall returned

/-! ## The contract -/

/-- User code of this system: its segments, and the fixed bits of `eflags`. -/
structure UserMode (context : Context) : Prop where
  cs : context.cs = 0x1B
  ss : context.ss = 0x23
  eflags : context.eflags.getLsbD 5 = false

/-- The fields that `syscall_entry` fills itself. -/
structure SavedFieldsRight (context : Context) (r : Regs) : Prop where
  gs : r.gs = (context.seg .gs).setWidth 32
  fs : r.fs = (context.seg .fs).setWidth 32
  es : r.es = (context.seg .es).setWidth 32
  ds : r.ds = (context.seg .ds).setWidth 32
  edi : r.edi = context.gpr .edi
  esi : r.esi = context.gpr .esi
  ebp : r.ebp = context.gpr .ebp
  ebx : r.ebx = context.gpr .ebx
  edx : r.edx = context.gpr .edx
  ecx : r.ecx = context.gpr .ecx
  eax : r.eax = context.gpr .eax

/-- The fields for what the processor pushes. -/
structure PushedFieldsRight (context : Context) (r : Regs) : Prop where
  eip : r.eip = context.eip
  cs : r.cs = context.cs.setWidth 32
  eflags : r.eflags = context.eflags
  useresp : r.useresp = context.esp
  ss : r.ss = context.ss.setWidth 32

/-- User code goes on with the result in `eax`. -/
def Resumes (context : Context) (result : Word) (last : Cpu) : Prop :=
  last.iretToUser =
    { context with gpr := Function.update context.gpr .eax result }

structure SyscallContract
    (context : Context) (called returned last : Cpu) : Prop where
  saved : SavedFieldsRight context (regsAt called.stack)
  pushed : PushedFieldsRight context (regsAt called.stack)
  resumes : (regsAt called.stack).eax ≠ BitVec.ofNat 32 syscallExit →
    Resumes context (regsAt returned.stack).eax last

/-- The processor has entered the kernel from user code. -/
structure EnteredFrom
    (context : Context) (kernelStack : Nat → Word) (entered : Cpu) : Prop where
  gpr : entered.gpr = context.gpr
  seg : entered.seg = context.seg
  stack : entered.stack =
    consWord context.eip (consWord (context.cs.setWidth 32)
      (consWord context.eflags (consWord context.esp
        (consWord (context.ss.setWidth 32) kernelStack))))

section Contract

variable {services : Services} {context : Context}
variable {stack kernelStack : Nat → Word} {kernelEsp : Word}
variable {entered called returned last : Cpu}

/-- The frame of an interrupt of user code. -/
theorem UserMode.frame
    (user : UserMode context) :
    EnteredFrom context kernelStack
      (context.enter stack kernelEsp kernelStack) := by
  have ring : context.cs.setWidth 2 = 3#2 := by
    rw [user.cs]
    decide
  simp only [Context.enter, if_pos ring]
  exact ⟨rfl, rfl, rfl⟩

/-- What the handler finds above its record of the saved registers. -/
theorem syscallBeforeCall_above (index : Nat) :
    (run syscallBeforeCall entered).stack (index + 13) = entered.stack index :=
  rfl

theorem EnteredFrom.savedFieldsRight
    (frame : EnteredFrom context kernelStack entered) :
    SavedFieldsRight context (regsAt (run syscallBeforeCall entered).stack) := by
  have word : ∀ reg, entered.gpr reg = context.gpr reg := congrFun frame.gpr
  have selector : ∀ reg, (entered.seg reg).setWidth 32 =
      (context.seg reg).setWidth 32 := fun reg =>
    congrArg _ (congrFun frame.seg reg)
  exact ⟨selector .gs, selector .fs, selector .es, selector .ds, word .edi,
    word .esi, word .ebp, word .ebx, word .edx, word .ecx, word .eax⟩

/-- The field for `eflags` holds the stack segment of user code. -/
theorem EnteredFrom.eflags_field
    (frame : EnteredFrom context kernelStack entered) :
    (regsAt (run syscallBeforeCall entered).stack).eflags =
      context.ss.setWidth 32 := by
  change (run syscallBeforeCall entered).stack (4 + 13) = _
  rw [syscallBeforeCall_above, frame.stack]
  rfl

/-- The fields for what the processor pushes are two words too high. -/
theorem EnteredFrom.not_pushedFieldsRight
    (user : UserMode context)
    (frame : EnteredFrom context kernelStack entered) :
    ¬ PushedFieldsRight context
      (regsAt (run syscallBeforeCall entered).stack) := by
  intro right
  have bit := congrArg (BitVec.getLsbD · 5)
    (right.eflags.symm.trans frame.eflags_field)
  simp only [user.ss, user.eflags] at bit
  exact absurd bit (by decide)

theorem setWidth_selector (selector : Selector) :
    BitVec.setWidth 16 (BitVec.setWidth 32 selector) = selector := by
  rw [BitVec.setWidth_setWidth_of_le _ (by decide), BitVec.setWidth_eq]

/-- The code after the call takes its words from the record. -/
theorem syscallAfterCall_last (returned : Cpu) :
    (run syscallAfterCall returned).stack =
        (fun index => returned.stack (index + 13)) ∧
      (run syscallAfterCall returned).gpr = (returned.drop 5).popAll.gpr ∧
      (run syscallAfterCall returned).seg .gs = (returned.stack 1).setWidth 16 ∧
      (run syscallAfterCall returned).seg .fs = (returned.stack 2).setWidth 16 ∧
      (run syscallAfterCall returned).seg .es = (returned.stack 3).setWidth 16 ∧
      (run syscallAfterCall returned).seg .ds = (returned.stack 4).setWidth 16 :=
  ⟨rfl, rfl, rfl, rfl, rfl, rfl⟩

/-- The words of the record after the handler. -/
theorem SyscallRun.returned_stack
    (syscall : SyscallRun services entered called returned last)
    {index : Nat}
    (above : 1 ≤ index)
    (notResult : index ≠ 12) :
    returned.stack index = (run syscallBeforeCall entered).stack index := by
  rw [syscall.returns.stack index above, ← syscall.atCall]
  exact Function.update_of_ne notResult _ _

/-- User code goes on, whatever the system call. -/
theorem SyscallRun.resumes
    (frame : EnteredFrom context kernelStack entered)
    (syscall : SyscallRun services entered called returned last) :
    Resumes context (regsAt returned.stack).eax last := by
  obtain ⟨stack, gpr, gs, fs, es, ds⟩ := syscallAfterCall_last returned
  rw [← syscall.atIret] at stack gpr gs fs es ds
  have saved := frame.savedFieldsRight
  have kept : ∀ index, 1 ≤ index → index ≠ 12 → returned.stack index =
      (run syscallBeforeCall entered).stack index := fun index =>
    syscall.returned_stack
  have above : ∀ index, last.stack index = entered.stack index := by
    intro index
    rw [stack]
    exact (kept (index + 13) (by omega) (by omega)).trans
      (syscallBeforeCall_above index)
  have general : last.gpr =
      Function.update context.gpr .eax (regsAt returned.stack).eax := by
    funext reg
    rw [gpr]
    cases reg with
    | eax => rfl
    | ecx => exact (kept 11 (by decide) (by decide)).trans saved.ecx
    | edx => exact (kept 10 (by decide) (by decide)).trans saved.edx
    | ebx => exact (kept 9 (by decide) (by decide)).trans saved.ebx
    | ebp => exact (kept 7 (by decide) (by decide)).trans saved.ebp
    | esi => exact (kept 6 (by decide) (by decide)).trans saved.esi
    | edi => exact (kept 5 (by decide) (by decide)).trans saved.edi
  have selector : ∀ {word : Word} {value : Selector},
      word = value.setWidth 32 → word.setWidth 16 = value := by
    rintro _ value rfl
    exact setWidth_selector value
  have segments : last.seg = context.seg := by
    funext reg
    cases reg with
    | ds =>
        rw [ds, kept 4 (by decide) (by decide)]
        exact selector saved.ds
    | es =>
        rw [es, kept 3 (by decide) (by decide)]
        exact selector saved.es
    | fs =>
        rw [fs, kept 2 (by decide) (by decide)]
        exact selector saved.fs
    | gs =>
        rw [gs, kept 1 (by decide) (by decide)]
        exact selector saved.gs
  rw [Resumes, Cpu.iretToUser, general, segments, above, above, above, above,
    above, frame.stack]
  simp only [consWord_zero, consWord_succ, setWidth_selector]

/--
The fields for `eip`, `cs`, `eflags`, `useresp` and `ss` are never all right.
The other registers are where the handler looks for them, and user code goes
on with the result.
-/
theorem not_syscallContract
    (user : UserMode context)
    (syscall : SyscallRun services
      (context.enter stack kernelEsp kernelStack) called returned last) :
    ¬ SyscallContract context called returned last ∧
      SavedFieldsRight context (regsAt called.stack) ∧
      Resumes context (regsAt returned.stack).eax last := by
  have frame : EnteredFrom context kernelStack
      (context.enter stack kernelEsp kernelStack) := user.frame
  have atCall := syscall.atCall
  refine ⟨fun contract => ?_, ?_, syscall.resumes frame⟩
  · rw [atCall] at contract
    exact frame.not_pushedFieldsRight user contract.pushed
  · rw [atCall]
    exact frame.savedFieldsRight

end Contract

theorem demoContext_userMode : UserMode demoContext :=
  ⟨rfl, rfl, by decide⟩

/-- A run whose handler leaves the registers as they are. -/
theorem syscallRun_idle (services : Services) (entered : Cpu) :
    ∃ called returned last,
      SyscallRun services entered called returned last :=
  ⟨_, _, _, rfl, ⟨fun _ _ => rfl, rfl, rfl, fun _ _ => rfl⟩, rfl⟩

/-- Services that return 0. -/
def demoServices : Services where
  pid := 0
  keyboardGetChar := 0
  vfsOpen := fun _ _ => 0
  vfsClose := fun _ => 0
  vfsRead := fun _ _ _ => 0
  vfsWrite := fun _ _ _ => 0
  vfsSeek := fun _ _ _ => 0
  vfsIoctl := fun _ _ _ => 0
  vfsStat := fun _ _ => 0

/-- A call of user code with all registers clear. -/
theorem not_syscallContract_demoContext :
    ∃ called returned last,
      SyscallRun demoServices demoEntered called returned last ∧
      ¬ SyscallContract demoContext called returned last ∧
      SavedFieldsRight demoContext (regsAt called.stack) ∧
      Resumes demoContext (regsAt returned.stack).eax last := by
  obtain ⟨called, returned, last, syscall⟩ :=
    syscallRun_idle demoServices demoEntered
  exact ⟨called, returned, last, syscall,
    not_syscallContract demoContext_userMode syscall⟩

/-- The handler finds 0x23 for `eflags` and not 0x202. -/
theorem not_eflagsField_demoContext :
    ∃ called returned last,
      SyscallRun demoServices demoEntered called returned last ∧
      (regsAt called.stack).eflags = 0x23 ∧
      ¬ SyscallContract demoContext called returned last := by
  obtain ⟨called, returned, last, syscall⟩ :=
    syscallRun_idle demoServices demoEntered
  have eflags : (regsAt called.stack).eflags = 0x23 := by
    rw [syscall.atCall]
    exact demoContext_userMode.frame.eflags_field
  refine ⟨called, returned, last, syscall, eflags, fun contract => ?_⟩
  exact absurd (eflags.symm.trans contract.pushed.eflags) (by decide)

end MatrixOS
