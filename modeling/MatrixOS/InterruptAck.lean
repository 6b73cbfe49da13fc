import Mathlib.Data.Finset.Basic
import Mathlib.Data.Fintype.Basic
import MatrixOS.InterruptEntry

namespace MatrixOS

open X86

/-!
# Interrupt acknowledgement

The two interrupt controllers, by the interrupts they have in service, and the
bytes that `pic_eoi` and `isr_common_stub` send to them.  The messages on the
serial port are left out.
-/

/-! ## The controllers -/

/-- The interrupts of a controller that are in service. -/
abbrev InService := Finset (Fin 8)

/-- A non-specific end of interrupt: the highest priority is that of line 0. -/
def InService.eoi (lines : InService) : InService :=
  {line ∈ lines | ∃ higher ∈ lines, higher < line}

/-- Both controllers, and whether one was told of an end it did not wait for. -/
structure Pics where
  master : InService
  slave : InService
  spurious : Bool
  deriving DecidableEq

namespace Pics

def idle : Pics where
  master := ∅
  slave := ∅
  spurious := false

/-- The controllers pass an interrupt on; the slave is on line 2 of the master. -/
def raise (irq : Fin 16) (pics : Pics) : Pics :=
  if irq < 8 then
    { pics with master := insert (Fin.ofNat 8 irq) pics.master }
  else
    { pics with
      master := insert 2 pics.master
      slave := insert (Fin.ofNat 8 (irq - 8)) pics.slave }

/-- No interrupt in service holds this one back. -/
def Deliverable (pics : Pics) (irq : Fin 16) : Prop :=
  if irq < 8 then
    ∀ line ∈ pics.master, Fin.ofNat 8 irq < line
  else
    (∀ line ∈ pics.master, 2 < line) ∧
      ∀ line ∈ pics.slave, Fin.ofNat 8 (irq - 8) < line

/-- A byte on a port. -/
def receive (pics : Pics) (write : PortWrite) : Pics :=
  if write = ⟨0x20, 0x20⟩ then
    { pics with
      master := pics.master.eoi
      spurious := pics.spurious || pics.master = ∅ }
  else if write = ⟨0xA0, 0x20⟩ then
    { pics with
      slave := pics.slave.eoi
      spurious := pics.spurious || pics.slave = ∅ }
  else
    pics

/-- Nothing is in service, and each end of interrupt was waited for. -/
structure Acknowledged (pics : Pics) : Prop where
  master : pics.master = ∅
  slave : pics.slave = ∅
  expected : pics.spurious = false

theorem Acknowledged.deliverable
    {pics : Pics}
    (acknowledged : pics.Acknowledged)
    (irq : Fin 16) :
    pics.Deliverable irq := by
  rw [Deliverable, acknowledged.master, acknowledged.slave]
  simp

end Pics

/-! ## The acknowledgements -/

/-- The vector that `pic_remap(0x20, 0x28)` gives to an interrupt. -/
def irqVector (irq : Fin 16) : Nat :=
  if irq < 8 then 0x20 + irq else 0x28 + (irq - 8)

def picEoi (irq : Nat) : List PortWrite :=
  if 8 ≤ irq then [⟨0xA0, 0x20⟩, ⟨0x20, 0x20⟩] else [⟨0x20, 0x20⟩]

/-- What `keyboard_input_handler` sends. -/
def keyboardInputHandlerEoi (sc : UInt8) : List PortWrite :=
  if sc = 0xFA ∨ sc = 0xAA ∨ sc = 0x00 ∨ sc = 0xFF then
    picEoi 1
  else
    picEoi 1

/-- What `interrupt_handler` sends when the keyboard port reads as `sc`. -/
def interruptHandlerEoi (sc : UInt8) (intNo : Word) : List PortWrite :=
  if intNo = 33 then keyboardInputHandlerEoi sc else []

/-- A hardware interrupt from its frame to `iret`. -/
structure IrqRun
    (irq : Fin 16) (sc : UInt8) (entered called returned last : Cpu) :
    Prop where
  entered_written : entered.written = []
  interrupt : ∃ vector, idtGate (irqVector irq) = .stub vector ∧
    InterruptRun entered vector 0 called returned last
  handler : returned.written =
    called.written ++ interruptHandlerEoi sc (called.stack 1)

/-- Interrupts after `isr_install`, one after the other. -/
inductive PicRun : List (Fin 16) → Pics → Prop where
  | start : PicRun [] Pics.idle
  | deliver
      {irqs : List (Fin 16)}
      {pics : Pics}
      {irq : Fin 16}
      {sc : UInt8}
      {entered called returned last : Cpu}
      (earlier : PicRun irqs pics)
      (deliverable : pics.Deliverable irq)
      (interrupt : IrqRun irq sc entered called returned last) :
      PicRun (irqs ++ [irq]) (last.written.foldl Pics.receive (pics.raise irq))

section Irq

variable {irq : Fin 16} {sc : UInt8} {entered called returned last : Cpu}

theorem idtGate_irqVector (irq : Fin 16) :
    idtGate (irqVector irq) = .stub (irqVector irq) := by
  decide +revert

/-- No interrupt of the controllers has an error code or a special stub. -/
theorem irqVector_plain (irq : Fin 16) :
    ¬ PushesErrorCode (irqVector irq) ∧ irqVector irq ≠ 9 ∧
      irqVector irq ≠ 14 := by
  decide +revert

theorem ofNat_irqVector_eq_iff (irq : Fin 16) :
    BitVec.ofNat 32 (irqVector irq) = 33 ↔ irq = 1 := by
  decide +revert

/-- The bytes that are sent for an interrupt. -/
def irqEoi (irq : Fin 16) : List PortWrite :=
  if irq = 1 then [⟨0x20, 0x20⟩, ⟨0x20, 0x20⟩] else [⟨0x20, 0x20⟩]

theorem interruptHandlerEoi_irqVector (irq : Fin 16) (sc : UInt8) :
    interruptHandlerEoi sc (BitVec.ofNat 32 (irqVector irq)) ++
        [⟨0x20, 0x20⟩] =
      irqEoi irq := by
  rw [interruptHandlerEoi, irqEoi, keyboardInputHandlerEoi, ite_self]
  by_cases keyboard : irq = 1
  · rw [if_pos ((ofNat_irqVector_eq_iff irq).mpr keyboard), if_pos keyboard]
    rfl
  · rw [if_neg fun same => keyboard ((ofNat_irqVector_eq_iff irq).mp same),
      if_neg keyboard]
    rfl

theorem IrqRun.last_written
    (run : IrqRun irq sc entered called returned last) :
    last.written = irqEoi irq := by
  obtain ⟨vector, gate, interrupt⟩ := run.interrupt
  obtain rfl : irqVector irq = vector :=
    Gate.stub.inj ((idtGate_irqVector irq).symm.trans gate)
  obtain ⟨noErrorCode, notNine, notFourteen⟩ := irqVector_plain irq
  have atCall := interrupt.atCall
  rw [run_append, run_interruptStub notNine notFourteen, atStub,
    if_neg noErrorCode] at atCall
  obtain ⟨_, intNo, _, _, written⟩ := isrBeforeCall_stack
    ((entered.push (BitVec.ofNat 32 (irqVector irq))).push 0#32)
  obtain ⟨_, _, _, _, _, lastWritten⟩ := isrAfterCall_last returned
  rw [← atCall] at intNo written
  rw [interrupt.atIret, lastWritten, run.handler, intNo, written]
  change entered.written ++ _ ++ _ = _
  rw [run.entered_written, List.nil_append]
  exact interruptHandlerEoi_irqVector irq sc

end Irq

/-! ## Sequences of interrupts -/

/-- The interrupts that are acknowledged as they should be. -/
def Single (irq : Fin 16) : Prop :=
  irq ≠ 1 ∧ irq < 8

instance : DecidablePred Single :=
  fun _ => inferInstanceAs (Decidable (_ ∧ _))

theorem InService.eoi_singleton (line : Fin 8) :
    InService.eoi {line} = ∅ := by
  simp [InService.eoi]

theorem InService.eoi_empty : InService.eoi ∅ = ∅ :=
  rfl

/-- A master that is free has one interrupt in service. -/
theorem Pics.raise_master
    {pics : Pics}
    (free : pics.master = ∅)
    (irq : Fin 16) :
    ∃ line, (pics.raise irq).master = {line} := by
  rw [Pics.raise]
  split
  · exact ⟨_, by rw [free, insert_empty_eq]⟩
  · exact ⟨_, by rw [free, insert_empty_eq]⟩

theorem Pics.raise_slave (pics : Pics) (irq : Fin 16) :
    (pics.raise irq).slave = ∅ ↔ pics.slave = ∅ ∧ irq < 8 := by
  rw [Pics.raise]
  split
  · rename_i ofMaster
    exact (and_iff_left ofMaster).symm
  · rename_i ofSlave
    exact iff_of_false (Finset.insert_ne_empty _ _) fun both => ofSlave both.2

theorem Pics.raise_spurious (pics : Pics) (irq : Fin 16) :
    (pics.raise irq).spurious = pics.spurious := by
  rw [Pics.raise]
  split <;> rfl

/-- The end of an interrupt of the master. -/
theorem Pics.receive_eoi (pics : Pics) :
    pics.receive ⟨0x20, 0x20⟩ =
      { pics with
        master := pics.master.eoi
        spurious := pics.spurious || pics.master = ∅ } :=
  rfl

/-- What an interrupt does to controllers whose master is free. -/
theorem irqEoi_receive
    (irq : Fin 16)
    {pics : Pics}
    (free : pics.master = ∅) :
    (irqEoi irq).foldl Pics.receive (pics.raise irq) =
      { master := ∅
        slave := (pics.raise irq).slave
        spurious := pics.spurious || irq = 1 } := by
  obtain ⟨line, inService⟩ := Pics.raise_master free irq
  have busy : ({line} : InService) ≠ ∅ := Finset.singleton_ne_empty line
  rw [irqEoi]
  split
  · rename_i keyboard
    subst keyboard
    simp only [List.foldl_cons, List.foldl_nil, Pics.receive_eoi, inService,
      InService.eoi_singleton, InService.eoi_empty, Pics.raise_spurious, busy,
      decide_false,
      decide_true, Bool.or_false]
  · rename_i other
    simp only [List.foldl_cons, List.foldl_nil, Pics.receive_eoi, inService,
      InService.eoi_singleton, Pics.raise_spurious, busy, other]

section Run

variable {irqs : List (Fin 16)} {pics : Pics}

/-- What the interrupts of a sequence leave behind. -/
structure LeftBehind (irqs : List (Fin 16)) (pics : Pics) : Prop where
  master : pics.master = ∅
  slave : pics.slave = ∅ ↔ ∀ irq ∈ irqs, irq < 8
  spurious : pics.spurious = false ↔ ∀ irq ∈ irqs, irq ≠ 1

theorem LeftBehind.deliver
    (leftBehind : LeftBehind irqs pics)
    (irq : Fin 16) :
    LeftBehind (irqs ++ [irq])
      ((irqEoi irq).foldl Pics.receive (pics.raise irq)) := by
  rw [irqEoi_receive irq leftBehind.master]
  refine ⟨rfl, ?_, ?_⟩
  · rw [Pics.raise_slave, leftBehind.slave]
    simp only [List.forall_mem_append, List.forall_mem_singleton]
  · rw [Bool.or_eq_false_iff, leftBehind.spurious, decide_eq_false_iff_not]
    simp only [List.forall_mem_append, List.forall_mem_singleton]

theorem PicRun.leftBehind (run : PicRun irqs pics) : LeftBehind irqs pics := by
  induction run with
  | start =>
      exact ⟨rfl, by simp [Pics.idle], by simp [Pics.idle]⟩
  | deliver earlier deliverable interrupt inductionHypothesis =>
      rw [interrupt.last_written]
      exact inductionHypothesis.deliver _

/--
The controllers are as they should be when no interrupt came from the keyboard
or from the slave.
-/
theorem acknowledged_iff
    (run : PicRun irqs pics) :
    (pics.Acknowledged ↔ ∀ irq ∈ irqs, Single irq) ∧
      (pics.Acknowledged → ∀ irq, pics.Deliverable irq) := by
  have leftBehind := run.leftBehind
  refine ⟨⟨?_, ?_⟩, Pics.Acknowledged.deliverable⟩
  · intro acknowledged irq delivered
    exact ⟨leftBehind.spurious.mp acknowledged.expected irq delivered,
      leftBehind.slave.mp acknowledged.slave irq delivered⟩
  · intro single
    exact ⟨leftBehind.master,
      leftBehind.slave.mpr fun irq delivered => (single irq delivered).2,
      leftBehind.spurious.mpr fun irq delivered => (single irq delivered).1⟩

end Run

/-- An interrupt whose handler leaves the registers as they are. -/
theorem irqRun_idle
    (irq : Fin 16)
    (sc : UInt8)
    {entered : Cpu}
    (fresh : entered.written = []) :
    ∃ called returned last, IrqRun irq sc entered called returned last := by
  let called := run (interruptStub (irqVector irq) ++ isrBeforeCall)
    (atStub entered (irqVector irq) 0)
  let written := called.written ++ interruptHandlerEoi sc (called.stack 1)
  exact ⟨called, { called with written := written }, _, fresh,
    ⟨_, idtGate_irqVector irq, rfl,
      ⟨fun _ _ => rfl, rfl, rfl, fun _ _ => rfl⟩, rfl⟩, rfl⟩

/-- The first interrupt after `isr_install`. -/
theorem picRun_first (irq : Fin 16) :
    PicRun [irq] ((irqEoi irq).foldl Pics.receive (Pics.idle.raise irq)) := by
  obtain ⟨called, returned, last, interrupt⟩ :=
    irqRun_idle irq 0 (show demoEntered.written = [] from rfl)
  have deliverable : Pics.idle.Deliverable irq :=
    (Pics.Acknowledged.mk rfl rfl rfl).deliverable irq
  have run := PicRun.start.deliver deliverable interrupt
  rw [interrupt.last_written] at run
  exact run

theorem acknowledged_iff_timer :
    ∃ pics, PicRun [0] pics ∧
      (pics.Acknowledged ↔ ∀ irq ∈ [(0 : Fin 16)], Single irq) ∧
      (pics.Acknowledged → ∀ irq, pics.Deliverable irq) := by
  exact ⟨_, picRun_first 0, acknowledged_iff (picRun_first 0)⟩

/-- The clock on the slave holds back itself, and a key is acknowledged twice. -/
theorem not_acknowledged :
    (∃ pics, PicRun [8] pics ∧ ¬ pics.Acknowledged ∧ ¬ pics.Deliverable 8) ∧
      ∃ pics, PicRun [1] pics ∧ ¬ pics.Acknowledged := by
  refine ⟨⟨_, picRun_first 8, fun acknowledged => ?_, ?_⟩,
    ⟨_, picRun_first 1, fun acknowledged => ?_⟩⟩
  · exact absurd acknowledged.slave (by decide)
  · rw [Pics.Deliverable]
    decide
  · exact absurd acknowledged.expected (by decide)

end MatrixOS
