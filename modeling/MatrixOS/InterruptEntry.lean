import Mathlib.Tactic.Ring
import MatrixOS.X86Stubs

namespace MatrixOS

open X86

/-!
# Interrupt entry and exit

The stubs of `kernel/interrupts/interrupt_asm.asm`.  Each vector has a stub
that pushes its number, and all stubs go on with `isr_common_stub`, which calls
`interrupt_handler(regs, int_no)`.
-/

/-- `ISR_NOERR`. -/
def isrNoErr (vector : Nat) : List Instr :=
  [.pushImm (BitVec.ofNat 32 vector), .pushImm 0]

/-- `ISR_ERR`. -/
def isrErr (vector : Nat) : List Instr :=
  [.pushImm (BitVec.ofNat 32 vector)]

/-- `int_n`, up to the jump. -/
def interruptStub : Nat → List Instr
  | 9 => isrErr 9
  | 14 => isrErr 14
  | vector => isrNoErr vector

/-- `isr_common_stub`, up to the call. -/
def isrBeforeCall : List Instr :=
  [.pusha, .movAxSeg .ds, .pushReg .eax,
    .movAxImm 0x10, .movSegAx .ds, .movSegAx .es, .movSegAx .fs, .movSegAx .gs,
    .pushWord 10, .leaEax 11, .pushReg .eax]

/-- `isr_common_stub` between the call and `iret`. -/
def isrAfterCall : List Instr :=
  [.addEsp 2, .popReg .eax,
    .movSegAx .ds, .movSegAx .es, .movSegAx .fs, .movSegAx .gs,
    .popa, .addEsp 2, .movAlImm 0x20, .outAl 0x20, .sti]

/-- What `idt_install` puts into an entry of the table. -/
inductive Gate where
  | stub (vector : Nat)
  | syscallEntry
  deriving Repr, DecidableEq

/-- `idt_install`. -/
def idtGate (vector : Nat) : Gate :=
  if vector = 0x80 then .syscallEntry else .stub vector

/-- The exceptions with an error code. -/
def PushesErrorCode (vector : Nat) : Prop :=
  vector = 8 ∨ 10 ≤ vector ∧ vector ≤ 14 ∨ vector = 17

instance (vector : Nat) : Decidable (PushesErrorCode vector) :=
  inferInstanceAs (Decidable (_ ∨ _))

/-- The processor when the stub begins. -/
def atStub (entered : Cpu) (vector : Nat) (errorCode : Word) : Cpu :=
  if PushesErrorCode vector then entered.push errorCode else entered

/-- An interrupt from its frame to `iret`. -/
structure InterruptRun
    (entered : Cpu) (vector : Nat) (errorCode : Word)
    (called returned last : Cpu) : Prop where
  atCall : called = run (interruptStub vector ++ isrBeforeCall)
    (atStub entered vector errorCode)
  returns : CalleeReturns 2 called returned
  atIret : last = run isrAfterCall returned

/-! ## The common part -/

section Common

variable {jumped called returned last : Cpu}

/-- What the handler finds on the stack. -/
theorem isrBeforeCall_stack (jumped : Cpu) :
    (run isrBeforeCall jumped).esp = jumped.esp - 44 ∧
      (run isrBeforeCall jumped).stack 1 = jumped.stack 1 ∧
      (run isrBeforeCall jumped).stack 2 =
        (jumped.gpr .eax).extractLsb' 16 16 ++ jumped.seg .ds ∧
      (∀ index, (run isrBeforeCall jumped).stack (index + 3) =
        (jumped.pushAll).stack index) ∧
      (run isrBeforeCall jumped).written = jumped.written := by
  refine ⟨?_, rfl, rfl, fun index => rfl, rfl⟩
  change jumped.esp - 4 - 4 - 4 - 4 - 4 - 4 - 4 - 4 - 4 - 4 - 4 = _
  bv_omega

theorem setWidth_low
    {highWidth lowWidth : Nat}
    (high : BitVec highWidth)
    (low : BitVec lowWidth) :
    BitVec.setWidth lowWidth (high ++ low) = low := by
  rw [BitVec.setWidth_append]
  simp

/-- The low byte of a word is replaced. -/
theorem setLow_eq_iff (word : Word) (value : BitVec 8) :
    word.extractLsb' 8 24 ++ value = word ↔ word.setWidth 8 = value := by
  have whole : word.extractLsb' 8 24 ++ word.setWidth 8 = word := by
    ext bit inWord
    simp only [BitVec.getElem_append, BitVec.getElem_setWidth,
      BitVec.getElem_extractLsb']
    split
    · simp [inWord]
    · simp [show 8 + (bit - 8) = bit by omega, inWord]
  constructor
  · intro same
    have low := congrArg (BitVec.setWidth 8) same
    rw [← low]
    exact (setWidth_low _ _).symm ▸ rfl
  · rintro rfl
    exact whole

/-- What is left of the stack when the stub comes to `iret`. -/
theorem isrAfterCall_last (returned : Cpu) :
    (run isrAfterCall returned).esp = returned.esp + 52 ∧
      (∀ index, (run isrAfterCall returned).stack index =
        returned.stack (index + 13)) ∧
      (∀ reg, (run isrAfterCall returned).seg reg =
        (returned.stack 2).setWidth 16) ∧
      (∀ reg, reg ≠ .eax → (run isrAfterCall returned).gpr reg =
        (returned.drop 3).popAll.gpr reg) ∧
      (run isrAfterCall returned).gpr .eax =
        (returned.stack 10).extractLsb' 8 24 ++ 0x20#8 ∧
      (run isrAfterCall returned).written =
        returned.written ++ [⟨0x20, 0x20⟩] := by
  refine ⟨?_, fun index => ?_, fun reg => ?_, fun reg different => ?_, ?_, ?_⟩
  · change returned.esp + 8#32 + 4#32 + 32#32 + 8#32 = _
    bv_omega
  · change returned.stack (index + 2 + 8 + 1 + 2) = _
    rfl
  · cases reg <;> simp [isrAfterCall, run, Instr.exec, Cpu.setSeg, Cpu.setReg,
      Cpu.setAl, Cpu.drop, Cpu.popAll, Cpu.ax]
  · simp [isrAfterCall, run, Instr.exec, Cpu.setSeg, Cpu.setReg, Cpu.setAl,
      Cpu.drop, Cpu.popAll, different]
  · simp [isrAfterCall, run, Instr.exec, Cpu.setSeg, Cpu.setReg, Cpu.setAl,
      Cpu.drop, Cpu.popAll]
  · change returned.written ++ [⟨0x20, (BitVec.setWidth 8 (_ ++ 0x20#8)).toNat⟩] = _
    rw [setWidth_low]
    rfl

/-- From the jump to `iret`, whatever the handler does. -/
structure CommonRun (jumped called last : Cpu) : Prop where
  intNo : called.stack 1 = jumped.stack 1
  esp : last.esp = jumped.esp + 8
  stack : ∀ index, last.stack index = jumped.stack (index + 2)
  seg : ∀ reg, last.seg reg = jumped.seg .ds
  gpr : ∀ reg, reg ≠ .eax → last.gpr reg = jumped.gpr reg
  eax : last.gpr .eax = (jumped.gpr .eax).extractLsb' 8 24 ++ 0x20#8

theorem commonRun
    (atCall : called = run isrBeforeCall jumped)
    (returns : CalleeReturns 2 called returned)
    (atIret : last = run isrAfterCall returned) :
    CommonRun jumped called last := by
  subst atCall atIret
  obtain ⟨esp, intNo, ds, saved, _⟩ := isrBeforeCall_stack jumped
  obtain ⟨lastEsp, stack, seg, gpr, eax, _⟩ := isrAfterCall_last returned
  have kept : ∀ index, returned.stack (index + 3) =
      jumped.pushAll.stack index := fun index =>
    (returns.stack (index + 3) (by omega)).trans (saved index)
  refine ⟨intNo, ?_, fun index => ?_, fun reg => ?_, fun reg different => ?_, ?_⟩
  · rw [lastEsp, returns.esp, esp]
    bv_omega
  · rw [stack, kept]
    rfl
  · rw [seg, returns.stack 2 (by omega), ds]
    exact setWidth_low _ _
  · rw [gpr reg different]
    cases reg with
    | eax => exact absurd rfl different
    | edi => exact kept 0
    | esi => exact kept 1
    | ebp => exact kept 2
    | ebx => exact kept 4
    | edx => exact kept 5
    | ecx => exact kept 6
  · rw [eax, kept 7]
    rfl

end Common

/-! ## Which interrupts are right -/

/-- The handler gets the vector, and the interrupted code its registers. -/
structure EntryExitRight
    (vector : Nat) (entered called last : Cpu) : Prop where
  intNo : called.stack 1 = BitVec.ofNat 32 vector
  esp : last.esp = entered.esp
  frame : ∀ index, last.stack index = entered.stack index
  gpr : last.gpr = entered.gpr
  seg : last.seg = entered.seg

/-- The stub pushes its number where it is looked for, and two words in all. -/
def StubFits (vector : Nat) (errorCode : Word) : Prop :=
  vector ≠ 9 ∧ (PushesErrorCode vector → vector = 14 ∧ errorCode = 14)

/-- The registers that the common part does not keep happen to be right. -/
structure RegistersFit (entered : Cpu) : Prop where
  al : entered.al = 0x20#8
  es : entered.seg .es = entered.seg .ds
  fs : entered.seg .fs = entered.seg .ds
  gs : entered.seg .gs = entered.seg .ds

section Vectors

variable {entered called returned last jumped : Cpu} {vector : Nat}
variable {errorCode : Word}

theorem CommonRun.gpr_eq_iff
    (common : CommonRun jumped called last) :
    last.gpr = jumped.gpr ↔ jumped.al = 0x20#8 := by
  rw [Cpu.al, ← setLow_eq_iff, ← common.eax]
  constructor
  · intro same
    rw [same]
  · intro eax
    funext reg
    by_cases isEax : reg = .eax
    · rw [isEax, eax]
    · exact common.gpr reg isEax

theorem CommonRun.seg_eq_iff
    (common : CommonRun jumped called last) :
    last.seg = jumped.seg ↔ jumped.seg .es = jumped.seg .ds ∧
      jumped.seg .fs = jumped.seg .ds ∧ jumped.seg .gs = jumped.seg .ds := by
  constructor
  · intro same
    have all : ∀ reg, jumped.seg reg = jumped.seg .ds := fun reg =>
      (congrFun same reg).symm.trans (common.seg reg)
    exact ⟨all .es, all .fs, all .gs⟩
  · rintro ⟨es, fs, gs⟩
    funext reg
    rw [common.seg]
    cases reg with
    | ds => rfl
    | es => exact es.symm
    | fs => exact fs.symm
    | gs => exact gs.symm

/-- The stub and the common part as one run. -/
theorem InterruptRun.common
    (interrupt : InterruptRun entered vector errorCode called returned last) :
    CommonRun (run (interruptStub vector) (atStub entered vector errorCode))
      called last := by
  have atCall := interrupt.atCall
  rw [run_append] at atCall
  exact commonRun atCall interrupt.returns interrupt.atIret

theorem run_interruptStub_nine (cpu : Cpu) :
    run (interruptStub 9) cpu = cpu.push 9#32 :=
  rfl

theorem run_interruptStub_fourteen (cpu : Cpu) :
    run (interruptStub 14) cpu = cpu.push 14#32 :=
  rfl

theorem run_interruptStub
    (notNine : vector ≠ 9)
    (notFourteen : vector ≠ 14)
    (cpu : Cpu) :
    run (interruptStub vector) cpu =
      (cpu.push (BitVec.ofNat 32 vector)).push 0#32 := by
  unfold interruptStub
  split
  · exact absurd rfl notNine
  · exact absurd rfl notFourteen
  · rfl

/-- The common part after a stub that has left two words too few or too many. -/
theorem CommonRun.not_right
    (common : CommonRun jumped called last)
    (differs : jumped.esp + 8 ≠ entered.esp) :
    ¬ EntryExitRight vector entered called last :=
  fun right => differs (common.esp.symm.trans right.esp)

/-- The common part after two words. -/
theorem CommonRun.right_iff
    {first second : Word}
    (common : CommonRun ((entered.push second).push first) called last) :
    EntryExitRight vector entered called last ↔
      second = BitVec.ofNat 32 vector ∧ RegistersFit entered := by
  constructor
  · intro right
    obtain ⟨es, fs, gs⟩ := common.seg_eq_iff.mp right.seg
    exact ⟨common.intNo.symm.trans right.intNo,
      ⟨common.gpr_eq_iff.mp right.gpr, es, fs, gs⟩⟩
  · rintro ⟨isVector, al, es, fs, gs⟩
    refine ⟨common.intNo.trans isVector, ?_, common.stack,
      common.gpr_eq_iff.mpr al, common.seg_eq_iff.mpr ⟨es, fs, gs⟩⟩
    rw [common.esp]
    change entered.esp - 4 - 4 + 8 = entered.esp
    simp [BitVec.sub_eq_add_neg, BitVec.add_assoc]

/--
An interrupt is entered and left as it should be when the stub fits its vector,
`al` is the byte that acknowledges the interrupt, and the data segments are
all the same.
-/
theorem entryExitRight_iff
    (interrupt : InterruptRun entered vector errorCode called returned last) :
    EntryExitRight vector entered called last ↔
      StubFits vector errorCode ∧ RegistersFit entered := by
  have common := interrupt.common
  by_cases pushes : PushesErrorCode vector
  · rw [atStub, if_pos pushes] at common
    by_cases pageFault : vector = 14
    · subst pageFault
      rw [run_interruptStub_fourteen] at common
      refine common.right_iff.trans (and_congr_left fun _ => ?_)
      exact ⟨fun code => ⟨by decide, fun _ => ⟨rfl, code⟩⟩, fun fits =>
        (fits.2 pushes).2⟩
    · have notNine : vector ≠ 9 := by
        rintro rfl
        exact absurd pushes (by decide)
      rw [run_interruptStub notNine pageFault] at common
      refine iff_of_false (common.not_right ?_) fun fits =>
        pageFault (fits.1.2 pushes).1
      change entered.esp - 4 - 4 - 4 + 8 ≠ entered.esp
      simp [BitVec.sub_eq_add_neg, BitVec.add_assoc]
  · rw [atStub, if_neg pushes] at common
    by_cases nine : vector = 9
    · subst nine
      rw [run_interruptStub_nine] at common
      refine iff_of_false (common.not_right ?_) fun fits => fits.1.1 rfl
      change entered.esp - 4 + 8 ≠ entered.esp
      simp [BitVec.sub_eq_add_neg, BitVec.add_assoc]
    · have notFourteen : vector ≠ 14 := by
        rintro rfl
        exact pushes (by decide)
      rw [run_interruptStub nine notFourteen] at common
      refine common.right_iff.trans (and_congr_left fun _ => ?_)
      exact ⟨fun _ => ⟨nine, fun code => absurd code pushes⟩, fun _ => rfl⟩

end Vectors

/-- User code with all registers clear but those that select its segments. -/
def demoContext : Context where
  gpr := fun _ => 0
  seg := fun _ => 0x23
  esp := 0xBFFFFFFB
  eip := 0
  cs := 0x1B
  eflags := 0x202
  ss := 0x23

/-- The frame of an interrupt of this code. -/
def demoEntered : Cpu :=
  demoContext.enter (fun _ => 0) 0xC0130000 fun _ => 0

/-- The run of an interrupt whose handler changes nothing. -/
theorem interruptRun_idle (vector : Nat) (errorCode : Word) (entered : Cpu) :
    ∃ called last, InterruptRun entered vector errorCode called called last :=
  ⟨_, _, rfl, ⟨fun _ _ => rfl, rfl, rfl, fun _ _ => rfl⟩, rfl⟩

/-- The timer interrupts user code with 0 in `eax`. -/
theorem entryExitRight_timer :
    ∃ called last,
      InterruptRun demoEntered 32 0 called called last ∧
      (EntryExitRight 32 demoEntered called last ↔
        StubFits 32 0 ∧ RegistersFit demoEntered) := by
  obtain ⟨called, last, interrupt⟩ := interruptRun_idle 32 0 demoEntered
  exact ⟨called, last, interrupt, entryExitRight_iff interrupt⟩

/-- It comes back with another `eax`. -/
theorem not_entryExitRight_timer :
    ∃ called last,
      InterruptRun demoEntered 32 0 called called last ∧
      ¬ EntryExitRight 32 demoEntered called last := by
  obtain ⟨called, last, interrupt⟩ := interruptRun_idle 32 0 demoEntered
  refine ⟨called, last, interrupt, fun right => ?_⟩
  have al := interrupt.common.gpr_eq_iff.mp right.gpr
  exact absurd al (by decide)

end MatrixOS
