import Mathlib.Logic.Function.Basic

namespace X86

/-!
# Code around an interrupt

The instructions with which 32-bit x86 code saves and restores registers on
its stack, and what the processor itself pushes and pops.  The words of the
stack are counted from `esp` upwards; what lies below `esp` is lost.
-/

abbrev Word := BitVec 32

abbrev Selector := BitVec 16

/-- The general registers without the stack pointer. -/
inductive Reg where
  | eax
  | ecx
  | edx
  | ebx
  | ebp
  | esi
  | edi
  deriving Repr, DecidableEq

inductive SegReg where
  | ds
  | es
  | fs
  | gs
  deriving Repr, DecidableEq

/-- The registers of interrupted code. -/
structure Context where
  gpr : Reg → Word
  seg : SegReg → Selector
  esp : Word
  eip : Word
  cs : Selector
  eflags : Word
  ss : Selector

/-- A write to an I/O port. -/
structure PortWrite where
  port : Nat
  value : Nat
  deriving Repr, DecidableEq

/-- The processor inside the kernel. -/
structure Cpu where
  gpr : Reg → Word
  seg : SegReg → Selector
  esp : Word
  stack : Nat → Word
  interruptsOn : Bool
  written : List PortWrite

/-! ## The stack -/

/-- A word in front of the words of a stack. -/
def consWord (word : Word) (stack : Nat → Word) : Nat → Word
  | 0 => word
  | index + 1 => stack index

section ConsWord

variable (word : Word) (stack : Nat → Word)

@[simp] theorem consWord_zero : consWord word stack 0 = word :=
  rfl

@[simp] theorem consWord_succ (index : Nat) :
    consWord word stack (index + 1) = stack index :=
  rfl

end ConsWord

namespace Cpu

def push (cpu : Cpu) (word : Word) : Cpu :=
  { cpu with esp := cpu.esp - 4, stack := consWord word cpu.stack }

/-- `add esp, 4 * count`. -/
def drop (cpu : Cpu) (count : Nat) : Cpu :=
  { cpu with
    esp := cpu.esp + BitVec.ofNat 32 (4 * count)
    stack := fun index => cpu.stack (index + count) }

def setReg (cpu : Cpu) (reg : Reg) (word : Word) : Cpu :=
  { cpu with gpr := Function.update cpu.gpr reg word }

def setSeg (cpu : Cpu) (reg : SegReg) (selector : Selector) : Cpu :=
  { cpu with seg := Function.update cpu.seg reg selector }

end Cpu

/-! ## Instructions -/

inductive Instr where
  | pusha
  | popa
  | pushImm (word : Word)
  | pushReg (reg : Reg)
  | pushSeg (reg : SegReg)
  | pushEsp
  /-- `push dword [esp + 4 * index]` -/
  | pushWord (index : Nat)
  | popReg (reg : Reg)
  | popSeg (reg : SegReg)
  /-- `mov ax, reg` -/
  | movAxSeg (reg : SegReg)
  | movAxImm (selector : Selector)
  /-- `mov reg, ax` -/
  | movSegAx (reg : SegReg)
  /-- `lea eax, [esp + 4 * index]` -/
  | leaEax (index : Nat)
  | addEsp (count : Nat)
  | movAlImm (value : BitVec 8)
  /-- `out port, al` -/
  | outAl (port : Nat)
  | sti
  deriving Repr, DecidableEq

namespace Cpu

/-- The lower half of `eax`. -/
def ax (cpu : Cpu) : Selector :=
  (cpu.gpr .eax).setWidth 16

def setAx (cpu : Cpu) (selector : Selector) : Cpu :=
  cpu.setReg .eax ((cpu.gpr .eax).extractLsb' 16 16 ++ selector)

def al (cpu : Cpu) : BitVec 8 :=
  (cpu.gpr .eax).setWidth 8

def setAl (cpu : Cpu) (value : BitVec 8) : Cpu :=
  cpu.setReg .eax ((cpu.gpr .eax).extractLsb' 8 24 ++ value)

/-- `pusha`; the stack pointer it pushes is the one before. -/
def pushAll (cpu : Cpu) : Cpu :=
  (((((((cpu.push (cpu.gpr .eax)).push (cpu.gpr .ecx)).push (cpu.gpr .edx)).push
    (cpu.gpr .ebx)).push cpu.esp).push (cpu.gpr .ebp)).push (cpu.gpr .esi)).push
      (cpu.gpr .edi)

/-- `popa`; the stack pointer on the stack is skipped. -/
def popAll (cpu : Cpu) : Cpu :=
  { cpu.drop 8 with
    gpr := fun
      | .edi => cpu.stack 0
      | .esi => cpu.stack 1
      | .ebp => cpu.stack 2
      | .ebx => cpu.stack 4
      | .edx => cpu.stack 5
      | .ecx => cpu.stack 6
      | .eax => cpu.stack 7 }

end Cpu

def Instr.exec (cpu : Cpu) : Instr → Cpu
  | pusha => cpu.pushAll
  | popa => cpu.popAll
  | pushImm word => cpu.push word
  | pushReg reg => cpu.push (cpu.gpr reg)
  | pushSeg reg => cpu.push ((cpu.seg reg).setWidth 32)
  | pushEsp => cpu.push cpu.esp
  | pushWord index => cpu.push (cpu.stack index)
  | popReg reg => (cpu.drop 1).setReg reg (cpu.stack 0)
  | popSeg reg => (cpu.drop 1).setSeg reg ((cpu.stack 0).setWidth 16)
  | movAxSeg reg => cpu.setAx (cpu.seg reg)
  | movAxImm selector => cpu.setAx selector
  | movSegAx reg => cpu.setSeg reg cpu.ax
  | leaEax index => cpu.setReg .eax (cpu.esp + BitVec.ofNat 32 (4 * index))
  | addEsp count => cpu.drop count
  | movAlImm value => cpu.setAl value
  | outAl port =>
      { cpu with written := cpu.written ++ [⟨port, cpu.al.toNat⟩] }
  | sti => { cpu with interruptsOn := true }

/-- Straight-line code. -/
def run (code : List Instr) (cpu : Cpu) : Cpu :=
  code.foldl Instr.exec cpu

theorem run_append (first second : List Instr) (cpu : Cpu) :
    run (first ++ second) cpu = run second (run first cpu) :=
  List.foldl_append

/-! ## Calls of C functions -/

/--
What a function called from assembly may do: it keeps the registers that
belong to its caller and the stack above its arguments.
-/
structure CalleeReturns (arguments : Nat) (before after : Cpu) : Prop where
  saved : ∀ reg, reg = .ebx ∨ reg = .ebp ∨ reg = .esi ∨ reg = .edi →
    after.gpr reg = before.gpr reg
  seg : after.seg = before.seg
  esp : after.esp = before.esp
  stack : ∀ index, arguments ≤ index → after.stack index = before.stack index

/-! ## Entering and leaving -/

/-- The frame of an interrupt, with a change of stacks when it comes from ring 3. -/
def Context.enter
    (context : Context) (stack : Nat → Word) (kernelEsp : Word)
    (kernelStack : Nat → Word) : Cpu :=
  let cpu : Cpu :=
    if context.cs.setWidth 2 = 3#2 then
      (({ gpr := context.gpr
          seg := context.seg
          esp := kernelEsp
          stack := kernelStack
          interruptsOn := false
          written := [] } : Cpu).push (context.ss.setWidth 32)).push context.esp
    else
      { gpr := context.gpr
        seg := context.seg
        esp := context.esp
        stack := stack
        interruptsOn := false
        written := [] }
  ((cpu.push context.eflags).push (context.cs.setWidth 32)).push context.eip

/-- `iret`, when it returns to ring 3. -/
def Cpu.iretToUser (cpu : Cpu) : Context where
  gpr := cpu.gpr
  seg := cpu.seg
  eip := cpu.stack 0
  cs := (cpu.stack 1).setWidth 16
  eflags := cpu.stack 2
  esp := cpu.stack 3
  ss := (cpu.stack 4).setWidth 16

end X86
