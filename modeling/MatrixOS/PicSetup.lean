import Mathlib.Data.Finset.Card
import MatrixOS.InterruptAck
import MatrixOS.PmmBitmap
import MatrixOS.PortPrograms
import MatrixOS.Serial

namespace MatrixOS

open PortProgram X86

/-!
# Programming the interrupt controllers

The functions of `kernel/interrupts/pic.c` as programs, and the two controllers
with the registers that they write.  Requests come and go while the controllers
are programmed.
-/

local instance controllerLines : NeZero 8 :=
  ⟨by decide⟩

local instance lines : NeZero 16 :=
  ⟨by decide⟩

namespace PicSetup

/-! ## The functions -/

/-- `pic_remap`. -/
def picRemap (offset1 offset2 : Int) : PortProgram UInt16 UInt8 Unit := do
  let a1 ← inb 0x21
  let a2 ← inb 0xA1
  outb 0x20 0x11
  outb 0xA0 0x11
  outb 0x21 (charOf offset1)
  outb 0xA1 (charOf offset2)
  outb 0x21 0x04
  outb 0xA1 0x02
  outb 0x21 0x01
  outb 0xA1 0x01
  outb 0x21 0xFF
  outb 0xA1 0xFF
  outb 0x21 a1
  outb 0xA1 a2

/-- `pic_eoi`. -/
def picEoi (irq : UInt8) : PortProgram UInt16 UInt8 Unit := do
  if irq ≥ 8 then
    outb 0xA0 0x20
  outb 0x20 0x20

/-- What a byte keeps of `1 << irq`. -/
def irqBit (irq : UInt8) : UInt8 :=
  UInt8.ofNat (1 <<< (irq.toNat % 32))

/-- The port of an interrupt, and its number there. -/
def maskPort (irq : UInt8) : UInt16 × UInt8 :=
  if irq < 8 then (0x21, irq) else (0xA1, irq - 8)

/-- `pic_set_mask`. -/
def picSetMask (irq : UInt8) : PortProgram UInt16 UInt8 Unit := do
  let (port, irq) := maskPort irq
  let value ← inb port
  outb port (value ||| irqBit irq)

/-- `pic_clear_mask`. -/
def picClearMask (irq : UInt8) : PortProgram UInt16 UInt8 Unit := do
  let (port, irq) := maskPort irq
  let value ← inb port
  outb port (value &&& ~~~(irqBit irq))

/-- What `isr_install` does to the controllers. -/
def isrInstall : PortProgram UInt16 UInt8 Unit := do
  picRemap 0x20 0x28
  picClearMask 1

/-! ## A controller -/

/-- The word that a controller waits for. -/
inductive PicStage where
  | icw2
  | icw3
  | icw4
  | ready
  deriving Repr, DecidableEq

/-- An 8259A. -/
structure Pic where
  stage : PicStage
  single : Bool
  wantsIcw4 : Bool
  base : UInt8
  cascade : UInt8
  mode8086 : Bool
  mask : UInt8
  inService : InService
  requests : Finset (Fin 8)
  deriving DecidableEq

namespace Pic

/-- A byte on the first port: the initialisation begins, or an interrupt ends. -/
def writeCommand (byte : UInt8) (pic : Pic) : Pic :=
  if byte &&& 0x10 != 0 then
    { pic with
      stage := .icw2
      single := byte &&& 0x02 != 0
      wantsIcw4 := byte &&& 0x01 != 0
      mode8086 := false
      mask := 0
      inService := ∅
      requests := ∅ }
  else if byte = 0x20 then
    { pic with inService := pic.inService.eoi }
  else
    pic

def afterIcw3 (pic : Pic) : PicStage :=
  if pic.wantsIcw4 then .icw4 else .ready

/-- A byte on the second port. -/
def writeData (byte : UInt8) (pic : Pic) : Pic :=
  match pic.stage with
  | .icw2 =>
      { pic with
        base := byte &&& 0xF8
        stage := if pic.single then pic.afterIcw3 else .icw3 }
  | .icw3 => { pic with cascade := byte, stage := pic.afterIcw3 }
  | .icw4 => { pic with mode8086 := byte &&& 0x01 != 0, stage := .ready }
  | .ready => { pic with mask := byte }

/-- The bit of a line in the mask is clear. -/
def Enabled (pic : Pic) (line : Fin 8) : Prop :=
  pic.mask.toNat.testBit line = false

/-- A line is requested and enabled, and no other one comes before it. -/
structure Passes (pic : Pic) (requests : Finset (Fin 8)) (line : Fin 8) :
    Prop where
  ready : pic.stage = .ready
  requested : line ∈ requests
  enabled : pic.Enabled line
  first : ∀ other ∈ requests, other < line → ¬ pic.Enabled other
  above : ∀ busy ∈ pic.inService, line < busy

end Pic

/-! ## The two controllers -/

structure PicPair where
  master : Pic
  slave : Pic
  deriving DecidableEq

namespace PicPair

def write (port : UInt16) (byte : UInt8) (pair : PicPair) : PicPair :=
  if port = 0x20 then { pair with master := pair.master.writeCommand byte }
  else if port = 0x21 then { pair with master := pair.master.writeData byte }
  else if port = 0xA0 then { pair with slave := pair.slave.writeCommand byte }
  else if port = 0xA1 then { pair with slave := pair.slave.writeData byte }
  else pair

/-- The second port of a controller reads as its mask. -/
def read (port : UInt16) (pair : PicPair) : Option UInt8 :=
  if port = 0x21 then some pair.master.mask
  else if port = 0xA1 then some pair.slave.mask
  else none

def withRequests (requests slaveRequests : Finset (Fin 8)) (pair : PicPair) :
    PicPair where
  master := { pair.master with requests := requests }
  slave := { pair.slave with requests := slaveRequests }

/-- The slave is on line 2 of the master. -/
def Requested (pair : PicPair) (requests : Finset (Fin 8)) : Prop :=
  ∀ line, line ∈ requests ↔
    (line ≠ 2 ∧ line ∈ pair.master.requests) ∨
      (line = 2 ∧ ∃ own, pair.slave.Passes pair.slave.requests own)

/-- The processor gets an interrupt with its vector. -/
inductive Delivers (pair : PicPair) : Fin 16 → Nat → Prop where
  | master
      {requests : Finset (Fin 8)} {line : Fin 8}
      (requested : pair.Requested requests)
      (passes : pair.master.Passes requests line)
      (own : line ≠ 2)
      (mode : pair.master.mode8086 = true) :
      Delivers pair (Fin.ofNat 16 line) (pair.master.base.toNat + line)
  | slave
      {requests : Finset (Fin 8)} {line : Fin 8}
      (requested : pair.Requested requests)
      (passes : pair.master.Passes requests 2)
      (passesSlave : pair.slave.Passes pair.slave.requests line)
      (cascade : pair.master.cascade.toNat.testBit 2 = true)
      (identity : pair.slave.cascade &&& 0x07 = 2)
      (mode : pair.slave.mode8086 = true) :
      Delivers pair (Fin.ofNat 16 (8 + line)) (pair.slave.base.toNat + line)

/-- An interrupt that was delivered is in service. -/
def serve (irq : Fin 16) (pair : PicPair) : PicPair :=
  if irq < 8 then
    { pair with
      master := { pair.master with
        inService := insert (Fin.ofNat 8 irq) pair.master.inService } }
  else
    { master := { pair.master with
        inService := insert 2 pair.master.inService }
      slave := { pair.slave with
        inService := insert (Fin.ofNat 8 (irq - 8)) pair.slave.inService } }

end PicPair

/-- The controllers at their ports. -/
def picDevice : PortDevice UInt16 UInt8 PicPair where
  write := PicPair.write
  Reads port before byte after :=
    after = before ∧ ∀ mask, before.read port = some mask → byte = mask
  Moves before after :=
    ∃ requests slaveRequests, after = before.withRequests requests slaveRequests

/-! ## Runs -/

inductive MaskCall where
  | setMask (irq : Fin 16)
  | clearMask (irq : Fin 16)

namespace MaskCall

def program : MaskCall → PortProgram UInt16 UInt8 Unit
  | setMask irq => picSetMask (UInt8.ofNat irq)
  | clearMask irq => picClearMask (UInt8.ofNat irq)

/-- What a call means for the set of interrupts that are enabled. -/
def apply (enabled : Fin 16 → Bool) : MaskCall → Fin 16 → Bool
  | setMask irq => Function.update enabled irq false
  | clearMask irq => Function.update enabled irq true

end MaskCall

/-- The interrupts that the masks let through. -/
def PicPair.enabled (pair : PicPair) (irq : Fin 16) : Bool :=
  if irq < 8 then !pair.master.mask.toNat.testBit (irq % 8)
  else !pair.slave.mask.toNat.testBit (irq % 8)

/-- The interrupts that were let through, after some calls. -/
def enabledAfter (found : PicPair) (calls : List MaskCall) : Fin 16 → Bool :=
  calls.foldl MaskCall.apply found.enabled

/-- The controllers from `isr_install` on, and the calls that changed the masks. -/
inductive PicsReachable (found : PicPair) : PicPair → List MaskCall → Prop where
  | installed
      {pair : PicPair}
      (runs : Runs picDevice (isrInstall, found) (.done (), pair)) :
      PicsReachable found pair [.clearMask 1]
  | requests
      {pair : PicPair} {calls : List MaskCall}
      (earlier : PicsReachable found pair calls)
      (requests slaveRequests : Finset (Fin 8)) :
      PicsReachable found (pair.withRequests requests slaveRequests) calls
  | mask
      {pair next : PicPair} {calls : List MaskCall}
      (earlier : PicsReachable found pair calls)
      (call : MaskCall)
      (runs : Runs picDevice (call.program, pair) (.done (), next)) :
      PicsReachable found next (calls ++ [call])
  | eoi
      {pair next : PicPair} {calls : List MaskCall}
      (earlier : PicsReachable found pair calls)
      (irq : UInt8)
      (runs : Runs picDevice (picEoi irq, pair) (.done (), next)) :
      PicsReachable found next calls
  | deliver
      {pair : PicPair} {calls : List MaskCall}
      {irq : Fin 16} {vector : Nat}
      (earlier : PicsReachable found pair calls)
      (delivers : pair.Delivers irq vector) :
      PicsReachable found (pair.serve irq) calls

/-! ## What the programs do -/

/-- The same controllers, except for the requests. -/
def Pictures (now seen : PicPair) : Prop :=
  ∃ requests slaveRequests, now = seen.withRequests requests slaveRequests

theorem Pic.writeCommand_requests
    (byte : UInt8) (pic : Pic) (requests : Finset (Fin 8)) :
    ∃ later, { pic with requests := requests }.writeCommand byte =
      { pic.writeCommand byte with requests := later } := by
  simp only [Pic.writeCommand]
  split
  · exact ⟨∅, rfl⟩
  split
  · exact ⟨requests, rfl⟩
  · exact ⟨requests, rfl⟩

theorem Pic.writeData_requests
    (byte : UInt8) (pic : Pic) (requests : Finset (Fin 8)) :
    { pic with requests := requests }.writeData byte =
      { pic.writeData byte with requests := requests } := by
  obtain ⟨stage⟩ := pic
  cases stage <;> rfl

theorem Pic.writeData_ready
    {pic : Pic}
    (ready : pic.stage = .ready)
    (byte : UInt8) :
    pic.writeData byte = { pic with mask := byte } := by
  obtain ⟨stage⟩ := pic
  obtain rfl : stage = .ready := ready
  rfl

theorem pictures_write
    (port : UInt16) (byte : UInt8)
    {now seen : PicPair}
    (pictures : Pictures now seen) :
    Pictures (now.write port byte) (seen.write port byte) := by
  obtain ⟨requests, slaveRequests, rfl⟩ := pictures
  simp only [PicPair.write]
  split
  · obtain ⟨later, written⟩ := seen.master.writeCommand_requests byte requests
    exact ⟨later, slaveRequests, by
      rw [PicPair.withRequests, written]; rfl⟩
  split
  · exact ⟨requests, slaveRequests, by
      rw [PicPair.withRequests, Pic.writeData_requests]; rfl⟩
  split
  · obtain ⟨later, written⟩ :=
      seen.slave.writeCommand_requests byte slaveRequests
    exact ⟨requests, later, by
      rw [PicPair.withRequests, written]; rfl⟩
  split
  · exact ⟨requests, slaveRequests, by
      rw [PicPair.withRequests, Pic.writeData_requests]; rfl⟩
  · exact ⟨requests, slaveRequests, rfl⟩

/-- The programs do what they do to controllers without requests. -/
theorem runs_pictures
    {program : PortProgram UInt16 UInt8 Unit} {before after seen : PicPair}
    (executed : program.exec PicPair.write PicPair.read before =
      some ((), seen))
    (runs : Runs picDevice (program, before) (.done (), after)) :
    Pictures after seen := by
  have moves : ∀ seen, picDevice.Stable fun now => Pictures now seen := by
    rintro seen now later ⟨_, _, rfl⟩ ⟨requests, slaveRequests, rfl⟩
    exact ⟨requests, slaveRequests, rfl⟩
  have reads : ∀ port byte now next seen expected, Pictures now seen →
      picDevice.Reads port now byte next → seen.read port = some expected →
      byte = expected ∧ Pictures next seen := by
    rintro port byte now next seen expected ⟨requests, slaveRequests, rfl⟩
      ⟨rfl, found⟩ known
    exact ⟨found expected known, requests, slaveRequests, rfl⟩
  have guarantees := guarantees_exec moves
    (fun port byte _ _ => pictures_write port byte) reads
    (show Pictures before before from
      ⟨before.master.requests, before.slave.requests, rfl⟩) executed
  exact ((guarantees.runs runs) after .refl).2.2

/-- The controllers behind `pic_remap`, with the masks that it found. -/
def remapped (offset1 offset2 : Int) (found : PicPair) : PicPair where
  master := {
    stage := .ready
    single := false
    wantsIcw4 := true
    base := charOf offset1 &&& 0xF8
    cascade := 0x04
    mode8086 := true
    mask := found.master.mask
    inService := ∅
    requests := ∅ }
  slave := {
    stage := .ready
    single := false
    wantsIcw4 := true
    base := charOf offset2 &&& 0xF8
    cascade := 0x02
    mode8086 := true
    mask := found.slave.mask
    inService := ∅
    requests := ∅ }

/-- The controllers as `isr_install` sets them up. -/
structure SetUp (pair : PicPair) : Prop where
  stage : pair.master.stage = .ready
  base : pair.master.base = 0x20
  cascade : pair.master.cascade = 0x04
  mode : pair.master.mode8086 = true
  slaveStage : pair.slave.stage = .ready
  slaveBase : pair.slave.base = 0x28
  slaveCascade : pair.slave.cascade = 0x02
  slaveMode : pair.slave.mode8086 = true

namespace PicPair

/-- Another mask at the controller of an interrupt. -/
def changeMask (irq : Fin 16) (change : UInt8 → UInt8) (pair : PicPair) :
    PicPair :=
  if irq < 8 then
    { pair with
      master := { pair.master with mask := change pair.master.mask } }
  else
    { pair with
      slave := { pair.slave with mask := change pair.slave.mask } }

end PicPair

section Masks

variable {pair next found : PicPair} {irq : Fin 16}

theorem maskPort_ofNat (irq : Fin 16) :
    maskPort (UInt8.ofNat irq) =
      (if irq < 8 then 0x21 else 0xA1, UInt8.ofNat (irq % 8)) := by
  decide +revert

theorem irqBit_ofNat : ∀ bit < 8,
    irqBit (UInt8.ofNat bit) = 1 <<< UInt8.ofNat bit := by
  decide

theorem SetUp.changeMask
    (setUp : SetUp pair)
    (irq : Fin 16)
    (change : UInt8 → UInt8) :
    SetUp (pair.changeMask irq change) := by
  rw [PicPair.changeMask]
  split
  · exact ⟨setUp.stage, setUp.base, setUp.cascade, setUp.mode,
      setUp.slaveStage, setUp.slaveBase, setUp.slaveCascade, setUp.slaveMode⟩
  · exact ⟨setUp.stage, setUp.base, setUp.cascade, setUp.mode,
      setUp.slaveStage, setUp.slaveBase, setUp.slaveCascade, setUp.slaveMode⟩

theorem SetUp.withRequests
    (setUp : SetUp pair)
    (requests slaveRequests : Finset (Fin 8)) :
    SetUp (pair.withRequests requests slaveRequests) :=
  ⟨setUp.stage, setUp.base, setUp.cascade, setUp.mode, setUp.slaveStage,
    setUp.slaveBase, setUp.slaveCascade, setUp.slaveMode⟩

/-- A change of a mask that reads it and writes it back. -/
theorem SetUp.exec_changeMask
    (setUp : SetUp pair)
    (irq : Fin 16)
    (change : UInt8 → UInt8 → UInt8) :
    (do
      let value ← inb (maskPort (UInt8.ofNat irq)).1
      outb (maskPort (UInt8.ofNat irq)).1
        (change value (irqBit (maskPort (UInt8.ofNat irq)).2)) :
      PortProgram UInt16 UInt8 Unit).exec PicPair.write PicPair.read pair =
      some ((), pair.changeMask irq
        fun mask => change mask (1 <<< UInt8.ofNat (irq % 8))) := by
  have bit := irqBit_ofNat (irq % 8) (Nat.mod_lt _ (by decide))
  rw [maskPort_ofNat, bit, PicPair.changeMask]
  by_cases ofMaster : irq < 8
  · rw [if_pos ofMaster, if_pos ofMaster]
    change some ((), { pair with master := pair.master.writeData _ }) = _
    rw [Pic.writeData_ready setUp.stage]
  · rw [if_neg ofMaster, if_neg ofMaster]
    change some ((), { pair with slave := pair.slave.writeData _ }) = _
    rw [Pic.writeData_ready setUp.slaveStage]

/-- What the masks let through when the bit of an interrupt is changed. -/
theorem PicPair.enabled_changeMask
    {change : UInt8 → UInt8} {letThrough : Bool}
    (bits : ∀ mask : UInt8, ∀ line < 8,
      (!(change mask).toNat.testBit line) =
        if line = irq % 8 then letThrough else !mask.toNat.testBit line) :
    (pair.changeMask irq change).enabled =
      Function.update pair.enabled irq letThrough := by
  funext other
  have line : (other : Nat) % 8 < 8 := Nat.mod_lt _ (by decide)
  rw [Function.update_apply, PicPair.enabled, PicPair.enabled,
    PicPair.changeMask]
  by_cases ofMaster : irq < 8
  · rw [if_pos ofMaster]
    by_cases alsoMaster : other < 8
    · have same : (other : Nat) % 8 = irq % 8 ↔ other = irq := by omega
      simp only [alsoMaster, if_true, bits _ _ line, same]
    · have different : other ≠ irq := fun same => alsoMaster (same ▸ ofMaster)
      simp only [alsoMaster, if_false, different]
  · rw [if_neg ofMaster]
    by_cases alsoMaster : other < 8
    · have different : other ≠ irq := fun same => ofMaster (same ▸ alsoMaster)
      simp only [alsoMaster, if_true, different, if_false]
    · have same : (other : Nat) % 8 = irq % 8 ↔ other = irq := by omega
      simp only [alsoMaster, if_false, bits _ _ line, same]

theorem testBit_setBit (mask : UInt8) (bit : Nat) :
    ∀ line < 8,
      (!(mask ||| 1 <<< UInt8.ofNat (bit % 8)).toNat.testBit line) =
        if line = bit % 8 then false else !mask.toNat.testBit line := by
  intro line _
  rw [UInt8.toNat_or, Nat.testBit_or, Pmm.mask_eq _ (Nat.mod_lt _ (by decide)),
    Nat.testBit_two_pow]
  by_cases same : line = bit % 8
  · simp [same]
  · simp [same, Ne.symm same]

theorem testBit_clearBit (mask : UInt8) (bit : Nat) :
    ∀ line < 8,
      (!(mask &&& ~~~(1 <<< UInt8.ofNat (bit % 8))).toNat.testBit line) =
        if line = bit % 8 then true else !mask.toNat.testBit line := by
  intro line small
  rw [UInt8.toNat_and, Nat.testBit_and,
    Pmm.testBit_not_mask _ (Nat.mod_lt _ (by decide)) _ small]
  by_cases same : line = bit % 8
  · simp [same]
  · simp [same, Ne.symm same]

/-- A call changes what the masks let through as its name says. -/
theorem SetUp.maskCall
    (setUp : SetUp pair)
    (call : MaskCall)
    (runs : Runs picDevice (call.program, pair) (.done (), next)) :
    SetUp next ∧ next.enabled = call.apply pair.enabled := by
  cases call with
  | setMask irq =>
      obtain ⟨requests, slaveRequests, rfl⟩ :=
        runs_pictures (setUp.exec_changeMask irq (· ||| ·)) runs
      exact ⟨(setUp.changeMask irq _).withRequests requests slaveRequests,
        PicPair.enabled_changeMask fun mask => testBit_setBit mask irq⟩
  | clearMask irq =>
      obtain ⟨requests, slaveRequests, rfl⟩ :=
        runs_pictures (setUp.exec_changeMask irq fun mask bit => mask &&& ~~~bit)
          runs
      exact ⟨(setUp.changeMask irq _).withRequests requests slaveRequests,
        PicPair.enabled_changeMask fun mask => testBit_clearBit mask irq⟩

end Masks

/-! ## What every run keeps -/

section Run

variable {pair next found : PicPair} {calls : List MaskCall}

/-- `isr_install` starts the controllers afresh and lets the keyboard through. -/
theorem SetUp.installed
    (runs : Runs picDevice (isrInstall, found) (.done (), pair)) :
    SetUp pair ∧ pair.enabled = (MaskCall.clearMask 1).apply found.enabled := by
  have executed : isrInstall.exec PicPair.write PicPair.read found =
      some ((), (remapped 0x20 0x28 found).changeMask 1
        fun mask => mask &&& ~~~(1 <<< UInt8.ofNat (1 % 8))) := rfl
  have setUp : SetUp (remapped 0x20 0x28 found) :=
    ⟨rfl, rfl, rfl, rfl, rfl, rfl, rfl, rfl⟩
  obtain ⟨requests, slaveRequests, rfl⟩ := runs_pictures executed runs
  exact ⟨(setUp.changeMask 1 _).withRequests requests slaveRequests,
    PicPair.enabled_changeMask fun mask => testBit_clearBit mask 1⟩

/-- The end of an interrupt changes what is in service only. -/
theorem SetUp.eoi
    (setUp : SetUp pair)
    (irq : UInt8)
    (runs : Runs picDevice (picEoi irq, pair) (.done (), next)) :
    SetUp next ∧ next.enabled = pair.enabled := by
  have executed : ∃ slaveInService,
      (picEoi irq).exec PicPair.write PicPair.read pair = some ((), {
        master := { pair.master with inService := pair.master.inService.eoi }
        slave := { pair.slave with inService := slaveInService } }) := by
    by_cases ofSlave : irq ≥ 8
    · refine ⟨pair.slave.inService.eoi, ?_⟩
      rw [picEoi, if_pos ofSlave]
      rfl
    · refine ⟨pair.slave.inService, ?_⟩
      rw [picEoi, if_neg ofSlave]
      rfl
  obtain ⟨_, executed⟩ := executed
  obtain ⟨requests, slaveRequests, rfl⟩ := runs_pictures executed runs
  exact ⟨⟨setUp.stage, setUp.base, setUp.cascade, setUp.mode,
    setUp.slaveStage, setUp.slaveBase, setUp.slaveCascade, setUp.slaveMode⟩,
    rfl⟩

theorem SetUp.serve
    (setUp : SetUp pair)
    (irq : Fin 16) :
    SetUp (pair.serve irq) ∧ (pair.serve irq).enabled = pair.enabled := by
  rw [PicPair.serve]
  split
  · exact ⟨⟨setUp.stage, setUp.base, setUp.cascade, setUp.mode,
      setUp.slaveStage, setUp.slaveBase, setUp.slaveCascade, setUp.slaveMode⟩,
      rfl⟩
  · exact ⟨⟨setUp.stage, setUp.base, setUp.cascade, setUp.mode,
      setUp.slaveStage, setUp.slaveBase, setUp.slaveCascade, setUp.slaveMode⟩,
      rfl⟩

/-- The controllers stay set up, and their masks are what the calls asked for. -/
theorem PicsReachable.setUp
    (reached : PicsReachable found pair calls) :
    SetUp pair ∧ pair.enabled = enabledAfter found calls := by
  induction reached with
  | installed runs => exact SetUp.installed runs
  | requests _ requests slaveRequests inductionHypothesis =>
      obtain ⟨setUp, enabled⟩ := inductionHypothesis
      exact ⟨setUp.withRequests requests slaveRequests, enabled⟩
  | mask _ call runs inductionHypothesis =>
      obtain ⟨setUp, enabled⟩ := inductionHypothesis
      obtain ⟨after, changed⟩ := setUp.maskCall call runs
      refine ⟨after, ?_⟩
      rw [changed, enabled, enabledAfter, enabledAfter, List.foldl_append]
      rfl
  | eoi _ irq runs inductionHypothesis =>
      obtain ⟨setUp, enabled⟩ := inductionHypothesis
      obtain ⟨after, same⟩ := setUp.eoi irq runs
      exact ⟨after, same.trans enabled⟩
  | deliver _ _ inductionHypothesis =>
      obtain ⟨setUp, enabled⟩ := inductionHypothesis
      obtain ⟨after, same⟩ := setUp.serve _
      exact ⟨after, same.trans enabled⟩

theorem ofNat_master (line : Fin 8) :
    Fin.ofNat 16 line < 8 ∧ (Fin.ofNat 16 line : Nat) % 8 = line ∧
      irqVector (Fin.ofNat 16 line) = 0x20 + line := by
  decide +revert

theorem ofNat_slave (line : Fin 8) :
    ¬ Fin.ofNat 16 (8 + line) < 8 ∧
      (Fin.ofNat 16 (8 + line) : Nat) % 8 = line ∧
      irqVector (Fin.ofNat 16 (8 + line)) = 0x28 + line := by
  decide +revert

theorem PicPair.enabled_master (pair : PicPair) (line : Fin 8) :
    pair.enabled (Fin.ofNat 16 line) = true ↔ pair.master.Enabled line := by
  obtain ⟨ofMaster, number, _⟩ := ofNat_master line
  rw [PicPair.enabled, if_pos ofMaster, number, Bool.not_eq_true', Pic.Enabled]

theorem PicPair.enabled_slave (pair : PicPair) (line : Fin 8) :
    pair.enabled (Fin.ofNat 16 (8 + line)) = true ↔ pair.slave.Enabled line := by
  obtain ⟨ofSlave, number, _⟩ := ofNat_slave line
  rw [PicPair.enabled, if_neg ofSlave, number, Bool.not_eq_true', Pic.Enabled]

/-- An interrupt is the only one that is requested, and none is in service. -/
structure Alone (pair : PicPair) (irq : Fin 16) : Prop where
  notCascade : irq ≠ 2
  requests : ∀ line, line ∈ pair.master.requests ↔ irq = Fin.ofNat 16 line
  slaveRequests : ∀ line,
    line ∈ pair.slave.requests ↔ irq = Fin.ofNat 16 (8 + line)
  inService : pair.master.inService = ∅
  slaveInService : pair.slave.inService = ∅

theorem irq_cases : ∀ irq : Fin 16,
    (∃ line : Fin 8, irq = Fin.ofNat 16 line) ∨
      ∃ line : Fin 8, irq = Fin.ofNat 16 (8 + line) := by
  decide

theorem ofNat_master_inj : ∀ line other : Fin 8,
    Fin.ofNat 16 line = Fin.ofNat 16 other ↔ line = other := by
  decide

theorem ofNat_slave_inj : ∀ line other : Fin 8,
    Fin.ofNat 16 (8 + line) = Fin.ofNat 16 (8 + other) ↔ line = other := by
  decide

theorem ofNat_master_ne_slave : ∀ line other : Fin 8,
    Fin.ofNat 16 line ≠ Fin.ofNat 16 (8 + other) := by
  decide

/-- A line that is requested alone is passed on when it is enabled. -/
theorem Pic.passes_alone
    {pic : Pic} {requests : Finset (Fin 8)} {line : Fin 8}
    (ready : pic.stage = .ready)
    (only : ∀ other, other ∈ requests ↔ other = line)
    (enabled : pic.Enabled line)
    (idle : pic.inService = ∅) :
    pic.Passes requests line where
  ready := ready
  requested := (only line).mpr rfl
  enabled := enabled
  first := by
    intro other requested lower
    rw [(only other).mp requested] at lower
    exact absurd lower (lt_irrefl line)
  above := by
    rw [idle]
    exact fun _ member => absurd member (Finset.notMem_empty _)

theorem Alone.delivers
    {irq : Fin 16}
    (alone : Alone pair irq)
    (setUp : SetUp pair)
    (enabled : pair.enabled irq = true)
    (cascade : 8 ≤ irq → pair.enabled 2 = true) :
    pair.Delivers irq (irqVector irq) := by
  rcases irq_cases irq with ⟨line, rfl⟩ | ⟨line, rfl⟩
  · have own : line ≠ 2 := by
      rintro rfl
      exact alone.notCascade rfl
    have silent : ¬ ∃ other, pair.slave.Passes pair.slave.requests other := by
      rintro ⟨other, passes⟩
      exact ofNat_master_ne_slave line other
        ((alone.slaveRequests other).mp passes.requested)
    have requested : pair.Requested {line} := by
      intro other
      rw [Finset.mem_singleton, alone.requests, ofNat_master_inj]
      constructor
      · rintro rfl
        exact Or.inl ⟨own, rfl⟩
      · rintro (⟨_, same⟩ | ⟨_, passes⟩)
        · exact same.symm
        · exact absurd passes silent
    have delivers := PicPair.Delivers.master requested
      (Pic.passes_alone setUp.stage (fun _ => Finset.mem_singleton)
        ((pair.enabled_master line).mp enabled) alone.inService) own setUp.mode
    rw [setUp.base] at delivers
    rw [(ofNat_master line).2.2]
    exact delivers
  · have passes : pair.slave.Passes pair.slave.requests line :=
      Pic.passes_alone setUp.slaveStage
        (fun other => by
          rw [alone.slaveRequests, ofNat_slave_inj]
          exact eq_comm)
        ((pair.enabled_slave line).mp enabled) alone.slaveInService
    have requested : pair.Requested {2} := by
      intro other
      rw [Finset.mem_singleton]
      constructor
      · rintro rfl
        exact Or.inr ⟨rfl, line, passes⟩
      · rintro (⟨_, member⟩ | ⟨same, _⟩)
        · exact absurd ((alone.requests other).mp member).symm
            (ofNat_master_ne_slave other line)
        · exact same
    have isSlave : 8 ≤ Fin.ofNat 16 (8 + (line : Nat)) :=
      not_lt.mp (ofNat_slave line).1
    have delivers := PicPair.Delivers.slave requested
      (Pic.passes_alone setUp.stage (fun _ => Finset.mem_singleton)
        ((pair.enabled_master 2).mp (cascade isSlave)) alone.inService)
      passes (by rw [setUp.cascade]; decide) (by rw [setUp.slaveCascade]; decide)
      setUp.slaveMode
    rw [setUp.slaveBase] at delivers
    rw [(ofNat_slave line).2.2]
    exact delivers

/-- An interrupt that is delivered comes with its vector and was let through. -/
theorem SetUp.delivered
    {irq : Fin 16} {vector : Nat}
    (setUp : SetUp pair)
    (delivers : pair.Delivers irq vector) :
    vector = irqVector irq ∧ pair.enabled irq = true ∧
      (8 ≤ irq → pair.enabled 2 = true) := by
  cases delivers with
  | @master requests line _ passes _ _ =>
      obtain ⟨ofMaster, _, isVector⟩ := ofNat_master line
      refine ⟨?_, (pair.enabled_master line).mpr passes.enabled, fun ofSlave => ?_⟩
      · rw [setUp.base, isVector]
        rfl
      · exact absurd ofMaster (not_lt.mpr ofSlave)
  | @slave requests line _ passes passesSlave _ _ _ =>
      refine ⟨?_, (pair.enabled_slave line).mpr passesSlave.enabled, fun _ => ?_⟩
      · rw [setUp.slaveBase, (ofNat_slave line).2.2]
        rfl
      · exact (pair.enabled_master 2).mpr passes.enabled

end Run

/-- Controllers in the middle of an initialisation, with every line masked. -/
def foundPics : PicPair where
  master := ⟨.icw3, true, true, 0x70, 0, false, 0xFF, {5}, ∅⟩
  slave := ⟨.icw2, true, false, 0, 0, false, 0xFF, ∅, ∅⟩

/-- A key was pressed after `isr_install`. -/
def pressedPics : PicPair :=
  ((remapped 0x20 0x28 foundPics).changeMask 1
    fun mask => mask &&& ~~~(1 <<< UInt8.ofNat (1 % 8))).withRequests {1} ∅

theorem pressedPics_reached :
    PicsReachable foundPics pressedPics [.clearMask 1] := by
  have reads : ∀ port pair mask, PicPair.read port pair = some mask →
      picDevice.Reads port pair mask pair := fun _ _ _ known =>
    ⟨rfl, fun _ alsoKnown => Option.some.inj (known.symm.trans alsoKnown)⟩
  have runs : Runs picDevice (isrInstall, foundPics) (.done (), _) :=
    exec_runs reads rfl
  exact (PicsReachable.installed runs).requests {1} ∅

theorem pressedPics_alone : Alone pressedPics 1 where
  notCascade := by decide
  requests := by decide
  slaveRequests := by decide
  inService := rfl
  slaveInService := rfl

end PicSetup

/-! ## The interrupts of the slave -/

section Slave

variable {irqs : List (Fin 16)} {pics : Pics}

/-- The slave has the lines of its interrupts in service. -/
structure KeepsServing (irqs : List (Fin 16)) (pics : Pics) : Prop where
  master : pics.master = ∅
  slave : ∀ line, line ∈ pics.slave ↔ Fin.ofNat 16 (8 + line) ∈ irqs

/-- Nothing before this interrupt came from the slave with its priority. -/
def Unserved (irqs : List (Fin 16)) (irq : Fin 16) : Prop :=
  ∀ earlier ∈ irqs, 8 ≤ earlier → irq < earlier

theorem slave_line : ∀ line : Fin 8,
    8 ≤ Fin.ofNat 16 (8 + line) ∧
      Fin.ofNat 8 ((Fin.ofNat 16 (8 + line) : Nat) - 8) = line := by
  decide

theorem slave_lt_iff : ∀ line other : Fin 8,
    Fin.ofNat 16 (8 + line) < Fin.ofNat 16 (8 + other) ↔ line < other := by
  decide

theorem exists_slave_line : ∀ irq : Fin 16,
    8 ≤ irq → ∃ line : Fin 8, irq = Fin.ofNat 16 (8 + line) := by
  decide

theorem KeepsServing.deliverable_iff
    (serving : KeepsServing irqs pics)
    (irq : Fin 16) :
    pics.Deliverable irq ↔ irq < 8 ∨ Unserved irqs irq := by
  rw [Pics.Deliverable, serving.master]
  by_cases ofMaster : irq < 8
  · rw [if_pos ofMaster]
    exact iff_of_true (fun _ member => absurd member (Finset.notMem_empty _))
      (Or.inl ofMaster)
  rw [if_neg ofMaster, or_iff_right ofMaster]
  obtain ⟨line, rfl⟩ := exists_slave_line irq (not_lt.mp ofMaster)
  rw [(slave_line line).2]
  constructor
  · rintro ⟨_, above⟩ earlier member ofSlave
    obtain ⟨other, rfl⟩ := exists_slave_line earlier ofSlave
    exact (slave_lt_iff line other).mpr
      (above other ((serving.slave other).mpr member))
  · intro unserved
    refine ⟨fun _ member => absurd member (Finset.notMem_empty _), ?_⟩
    intro other member
    have earlier := (serving.slave other).mp member
    exact (slave_lt_iff line other).mp (unserved _ earlier (slave_line other).1)

theorem PicRun.keepsServing (run : PicRun irqs pics) : KeepsServing irqs pics := by
  induction run with
  | start =>
      exact ⟨rfl, by simp [Pics.idle]⟩
  | @deliver irqs pics irq _ _ _ _ _ _ _ interrupt inductionHypothesis =>
      rw [interrupt.last_written, irqEoi_receive irq inductionHypothesis.master]
      refine ⟨rfl, fun line => ?_⟩
      rw [List.mem_append, List.mem_singleton, ← inductionHypothesis.slave,
        Pics.raise]
      by_cases ofMaster : irq < 8
      · rw [if_pos ofMaster]
        have other : Fin.ofNat 16 (8 + line) ≠ irq := fun same =>
          absurd (same ▸ (slave_line line).1) (not_le.mpr ofMaster)
        exact (or_iff_left other).symm
      · rw [if_neg ofMaster]
        obtain ⟨own, rfl⟩ := exists_slave_line irq (not_lt.mp ofMaster)
        simp only [(slave_line own).2, Finset.mem_insert,
          PicSetup.ofNat_slave_inj]
        exact or_comm

/-- Earlier interrupts of the slave have higher numbers. -/
def StrictlyLower (irqs : List (Fin 16)) : Prop :=
  (irqs.filter (8 ≤ ·)).Pairwise fun earlier later => later < earlier

theorem PicRun.strictlyLower (run : PicRun irqs pics) : StrictlyLower irqs := by
  induction run with
  | start => exact List.Pairwise.nil
  | @deliver irqs pics irq _ _ _ _ _ earlier deliverable _ inductionHypothesis =>
      rw [StrictlyLower, List.filter_append]
      refine List.pairwise_append.mpr ⟨inductionHypothesis, ?_, ?_⟩
      · exact List.Pairwise.filter _ (List.pairwise_singleton _ irq)
      · intro before isEarlier last isLast
        obtain ⟨isIrq, ofSlave⟩ := List.mem_filter.mp isLast
        obtain rfl := List.mem_singleton.mp isIrq
        obtain ⟨member, alsoSlave⟩ := List.mem_filter.mp isEarlier
        rcases (earlier.keepsServing.deliverable_iff last).mp deliverable with
          ofMaster | unserved
        · exact absurd ofMaster (not_lt.mpr (of_decide_eq_true ofSlave))
        · exact unserved before member (of_decide_eq_true alsoSlave)

theorem StrictlyLower.length_le
    (lower : StrictlyLower irqs) :
    (irqs.filter (8 ≤ ·)).length ≤ 8 := by
  have distinct : (irqs.filter (8 ≤ ·)).Nodup :=
    lower.imp fun earlier => (ne_of_lt earlier).symm
  have few : (irqs.filter (8 ≤ ·)).toFinset ⊆
      (Finset.univ.filter fun irq : Fin 16 => 8 ≤ irq) := by
    intro irq member
    have ofSlave := (List.mem_filter.mp (List.mem_toFinset.mp member)).2
    exact Finset.mem_filter.mpr ⟨Finset.mem_univ irq, of_decide_eq_true ofSlave⟩
  rw [← List.toFinset_card_of_nodup distinct]
  exact (Finset.card_le_card few).trans (by decide)

/--
The interrupts of the master are delivered whatever came before.  One of the
slave is delivered only when its number is lower than those of all earlier ones
of the slave, so that no more than eight ever are.
-/
theorem slaveInterrupts_starve
    (run : PicRun irqs pics) :
    (∀ irq, pics.Deliverable irq ↔ irq < 8 ∨ Unserved irqs irq) ∧
      (irqs.filter (8 ≤ ·)).Pairwise (fun earlier later => later < earlier) ∧
      (irqs.filter (8 ≤ ·)).length ≤ 8 :=
  ⟨run.keepsServing.deliverable_iff, run.strictlyLower,
    run.strictlyLower.length_le⟩

/-- The clock on the slave is delivered once, the one of the master again. -/
theorem slaveInterrupts_starve_clock :
    ∃ pics, PicRun [8] pics ∧ ¬ pics.Deliverable 8 ∧ pics.Deliverable 0 := by
  refine ⟨_, picRun_first 8, ?_⟩
  obtain ⟨deliverable, _, _⟩ := slaveInterrupts_starve (picRun_first 8)
  refine ⟨fun again => ?_, (deliverable 0).mpr (Or.inl (by decide))⟩
  rcases (deliverable 8).mp again with ofMaster | unserved
  · exact absurd ofMaster (by decide)
  · exact absurd (unserved 8 (List.mem_singleton.mpr rfl) (by decide)) (by decide)

end Slave

end MatrixOS
