import MatrixOS.Itoa
import MatrixOS.PortPrograms
import Mathlib.Data.List.Infix

namespace MatrixOS

open ByteMemory PortProgram

/-!
# The serial line

The functions of `kernel/drivers/serial.c` that use the ports of a chip, and
the chip.  It sends at its own speed, and the kernel may be interrupted between
any two accesses by a handler that prints, too.
-/

namespace SerialLine

/-! ## The functions -/

/-- `serial_init`. -/
def serialInit (port divisor : UInt16) : PortProgram UInt16 UInt8 Unit := do
  outb (port + 1) 0x00
  outb (port + 3) 0x80
  outb (port + 0) (divisor &&& 0xFF).toUInt8
  outb (port + 1) ((divisor >>> 8) &&& 0xFF).toUInt8
  outb (port + 3) 0x03
  outb (port + 2) 0xC7
  outb (port + 4) 0x03

/-- `serial_transmit_empty`. -/
def serialTransmitEmpty (port : UInt16) : PortProgram UInt16 UInt8 UInt8 := do
  let status ← inb (port + 5)
  return status &&& 0x20

/-- `serial_write_char`. -/
def serialWriteChar (port : UInt16) (c : UInt8) :
    PortProgram UInt16 UInt8 Unit := do
  whileLoop do
    let empty ← serialTransmitEmpty port
    return empty == 0
  outb port c

/-- `serial_write`, with the characters of its string. -/
def serialWrite (port : UInt16) : List UInt8 → PortProgram UInt16 UInt8 Unit
  | [] => return ()
  | c :: str => do
      serialWriteChar port c
      serialWrite port str

/-- A line whose status reads as a sequence says. -/
def scripted (lineStatus : Nat → UInt8) (port : UInt16) :
    PortDevice UInt16 UInt8 SerialPort where
  write address byte line :=
    if address = port then { line with sent := line.sent ++ [byte] } else line
  Reads address before byte after :=
    address = port + 5 ∧ byte = lineStatus before.polls ∧
      after = { before with polls := before.polls + 1 }
  Moves _ _ := False

section Scripted

variable {lineStatus : Nat → UInt8} {port : UInt16}

/-- The two versions of `serial_write_char` do the same. -/
theorem serialWriteChar_runs
    {c : UInt8} {fuel : Nat} {line next : SerialPort}
    (returned : MatrixOS.serialWriteChar lineStatus c fuel line = some next) :
    Runs (scripted lineStatus port) (serialWriteChar port c, line)
      (.done (), next) := by
  induction fuel generalizing line with
  | zero => cases returned
  | succ fuel inductionHypothesis =>
      have looped : Step (scripted lineStatus port)
          (serialWriteChar port c, line) _ := .loop _ _ line
      have read := (Relation.ReflTransGen.single looped).tail
        (.input (port + 5) _ ⟨rfl, rfl, rfl⟩)
      by_cases busy : lineStatus line.polls &&& 0x20 = 0
      · simp only [MatrixOS.serialWriteChar, MatrixOS.serialTransmitEmpty, busy,
          if_true] at returned
        have again : (lineStatus line.polls &&& 0x20 == 0) = true :=
          beq_iff_eq.mpr busy
        refine read.trans ?_
        change Runs _ (if (lineStatus line.polls &&& 0x20 == 0) = true
          then serialWriteChar port c else outb port c, _) _
        rw [if_pos again]
        exact inductionHypothesis returned
      · simp only [MatrixOS.serialWriteChar, MatrixOS.serialTransmitEmpty, busy,
          if_false] at returned
        have leaves : ¬ (lineStatus line.polls &&& 0x20 == 0) = true :=
          fun same => busy (beq_iff_eq.mp same)
        obtain rfl := Option.some.inj returned
        refine read.trans ?_
        change Runs _ (if (lineStatus line.polls &&& 0x20 == 0) = true
          then serialWriteChar port c else outb port c, _) _
        rw [if_neg leaves]
        have written : (scripted lineStatus port).write port c
            { line with polls := line.polls + 1 } =
              { line with polls := line.polls + 1, sent := line.sent ++ [c] } := by
          simp only [scripted, if_true]
        rw [← written]
        exact .single (.output port c _ _)

/-- The two versions of `serial_write` do the same with a string in memory. -/
theorem serialWrite_runs
    {mem : Memory} {str fuel : Nat} {text : List UInt8}
    {line next : SerialPort}
    (holds : StringAt mem str text)
    (inRange : str + text.length < 2 ^ 32)
    (returned : MatrixOS.serialWrite lineStatus mem fuel str line = some next) :
    Runs (scripted lineStatus port) (serialWrite port text, line)
      (.done (), next) := by
  induction text generalizing str fuel line with
  | nil =>
      cases fuel with
      | zero => cases returned
      | succ fuel =>
          have ends : mem str = 0 := holds.ends
          rw [MatrixOS.serialWrite, if_pos ends] at returned
          obtain rfl := Option.some.inj returned
          exact .refl
  | cons c text inductionHypothesis =>
      cases fuel with
      | zero => cases returned
      | succ fuel =>
          rw [List.length_cons] at inRange
          obtain ⟨byte, nonzero, rest⟩ := holds.tail
          rw [MatrixOS.serialWrite, byte, if_neg nonzero,
            wrap32_of_lt (show str + 1 < 2 ^ 32 by omega)] at returned
          obtain ⟨middle, wrote, following⟩ := Option.bind_eq_some_iff.mp returned
          exact ((serialWriteChar_runs wrote).bind _).trans
            (inductionHypothesis rest (by omega) following)

end Scripted

/-! ## The chip -/

/-- A 16550: the registers that are written, and the characters on their way. -/
structure Uart where
  interruptEnable : UInt8
  lineControl : UInt8
  modemControl : UInt8
  divisorLow : UInt8
  divisorHigh : UInt8
  fifoEnabled : Bool
  /-- The characters that wait for the line. -/
  transmitter : List UInt8
  /-- The characters that have left. -/
  line : List UInt8
  deriving Repr, DecidableEq

namespace Uart

/-- The divisor takes the place of the data. -/
def divisorAccess (uart : Uart) : Bool :=
  uart.lineControl &&& 0x80 != 0

def capacity (uart : Uart) : Nat :=
  if uart.fifoEnabled then 16 else 1

/-- A character that finds no room is lost. -/
def transmit (c : UInt8) (uart : Uart) : Uart :=
  if uart.transmitter.length < uart.capacity then
    { uart with transmitter := uart.transmitter ++ [c] }
  else
    uart

/-- What a change of the queue, or its reset, leaves of the characters. -/
def controlFifo (byte : UInt8) (uart : Uart) : Uart :=
  let enable := byte &&& 0x01 != 0
  { uart with
    fifoEnabled := enable
    transmitter :=
      if enable != uart.fifoEnabled || (enable && byte &&& 0x04 != 0) then []
      else uart.transmitter }

/-- A byte for one of the registers. -/
def writeRegister (register : UInt16) (byte : UInt8) (uart : Uart) : Uart :=
  if register = 0 then
    if uart.divisorAccess then { uart with divisorLow := byte }
    else uart.transmit byte
  else if register = 1 then
    if uart.divisorAccess then { uart with divisorHigh := byte }
    else { uart with interruptEnable := byte }
  else if register = 2 then
    uart.controlFifo byte
  else if register = 3 then
    { uart with lineControl := byte }
  else if register = 4 then
    { uart with modemControl := byte }
  else
    uart

/-- The characters that were given to the chip and not lost, in order. -/
def sent (uart : Uart) : List UInt8 :=
  uart.line ++ uart.transmitter

end Uart

/-- The chip at its ports: bit 5 of the line status is for an empty queue. -/
def uartDevice (port : UInt16) : PortDevice UInt16 UInt8 Uart where
  write address byte uart := uart.writeRegister (address - port) byte
  Reads address before byte after :=
    after = before ∧
      (address = port + 5 → (byte &&& 0x20 ≠ 0 ↔ before.transmitter = []))
  Moves before after :=
    ∃ c rest, before.transmitter = c :: rest ∧
      after = { before with transmitter := rest, line := before.line ++ [c] }

/-- The chip as `serial_init` leaves it. -/
structure Configured (divisor : UInt16) (uart : Uart) : Prop where
  lineControl : uart.lineControl = 0x03
  modemControl : uart.modemControl = 0x03
  divisor :
    uart.divisorHigh.toUInt16 <<< 8 ||| uart.divisorLow.toUInt16 = divisor
  fifoEnabled : uart.fifoEnabled = true

section Chip

variable {port divisor : UInt16} {uart later : Uart}

theorem register_offset (port register : UInt16) :
    port + register - port = register := by
  rw [UInt16.add_comm, UInt16.add_sub_cancel]

theorem divisor_bytes (divisor : UInt16) :
    ((divisor >>> 8) &&& 0xFF).toUInt8.toUInt16 <<< 8 |||
        (divisor &&& 0xFF).toUInt8.toUInt16 = divisor := by
  apply UInt16.eq_of_toBitVec_eq
  apply BitVec.eq_of_toNat_eq
  have bound := divisor.toNat_lt
  have low : ∀ n, n &&& 255 = n % 256 := fun n =>
    Nat.and_two_pow_sub_one_eq_mod n 8
  simp only [UInt16.toBitVec_or, BitVec.toNat_or, UInt16.toNat_toBitVec]
  simp only [UInt16.toNat_shiftLeft, UInt8.toNat_toUInt16, UInt16.toNat_toUInt8,
    UInt16.toNat_and, UInt16.toNat_shiftRight]
  simp [low, Nat.shiftRight_eq_div_pow]
  rw [Nat.mod_eq_of_lt (a := _ <<< 8) (by rw [Nat.shiftLeft_eq]; omega),
    ← Nat.shiftLeft_add_eq_or_of_lt (show divisor.toNat % 256 < 2 ^ 8 by omega),
    Nat.shiftLeft_eq]
  omega

/-- The registers are those of a chip that is known, and so is an empty queue. -/
def Pictures (uart known : Uart) : Prop :=
  (∃ transmitter line,
    uart = { known with transmitter := transmitter, line := line }) ∧
  (known.transmitter = [] → uart.transmitter = [])

theorem pictures_moves (known : Uart) :
    (uartDevice port).Stable fun now => Pictures now known := by
  rintro before after ⟨⟨transmitter, line, rfl⟩, empty⟩ ⟨c, rest, first, rfl⟩
  refine ⟨⟨_, _, rfl⟩, fun isEmpty => ?_⟩
  have none := empty isEmpty
  rw [none] at first
  cases first

theorem pictures_transmit
    {known : Uart}
    (c : UInt8)
    (pictures : Pictures uart known) :
    Pictures (uart.transmit c) (known.transmit c) := by
  obtain ⟨⟨transmitter, line, rfl⟩, empty⟩ := pictures
  have room : 0 < known.capacity := by
    rw [Uart.capacity]
    split <;> decide
  have waits : (known.transmit c).transmitter ≠ [] := by
    rw [Uart.transmit]
    split
    · simp
    · rename_i full
      intro isEmpty
      rw [isEmpty] at full
      exact full room
  refine ⟨?_, fun isEmpty => absurd isEmpty waits⟩
  have registers : ∀ chip : Uart, ∃ transmitter line,
      chip.transmit c =
        { chip with transmitter := transmitter, line := line } := by
    intro chip
    rw [Uart.transmit]
    split
    · exact ⟨_, chip.line, rfl⟩
    · exact ⟨chip.transmitter, chip.line, rfl⟩
  obtain ⟨first, passed, same⟩ := registers known
  obtain ⟨second, gone, other⟩ := registers
    { known with transmitter := transmitter, line := line }
  exact ⟨second, gone, by rw [other, same]⟩

theorem pictures_writeRegister
    {known : Uart}
    (register : UInt16) (byte : UInt8)
    (pictures : Pictures uart known) :
    Pictures (uart.writeRegister register byte)
      (known.writeRegister register byte) := by
  obtain ⟨⟨transmitter, line, rfl⟩, empty⟩ := pictures
  simp only [Uart.writeRegister]
  split
  · -- the registers behind the data do not depend on the queue
    change Pictures (if known.divisorAccess then _ else _) _
    split
    · exact ⟨⟨transmitter, line, rfl⟩, empty⟩
    · exact pictures_transmit byte ⟨⟨transmitter, line, rfl⟩, empty⟩
  split
  · change Pictures (if known.divisorAccess then _ else _) _
    split <;> exact ⟨⟨transmitter, line, rfl⟩, empty⟩
  split
  · refine ⟨⟨_, line, rfl⟩, ?_⟩
    simp only [Uart.controlFifo]
    split
    · exact fun _ => rfl
    · exact empty
  split
  · exact ⟨⟨transmitter, line, rfl⟩, empty⟩
  split <;> exact ⟨⟨transmitter, line, rfl⟩, empty⟩

/-- The first write misses its register when the divisor is in its place. -/
theorem exec_serialInit (uart : Uart) :
    (serialInit port divisor).exec (uartDevice port).write (fun _ _ => none)
        uart =
      some ((), {
        interruptEnable :=
          if uart.divisorAccess then uart.interruptEnable else 0
        lineControl := 0x03
        modemControl := 0x03
        divisorLow := (divisor &&& 0xFF).toUInt8
        divisorHigh := ((divisor >>> 8) &&& 0xFF).toUInt8
        fifoEnabled := true
        transmitter := []
        line := uart.line }) := by
  have first : uart.writeRegister 1 0 =
      if uart.divisorAccess then { uart with divisorHigh := 0 }
      else { uart with interruptEnable := 0 } := rfl
  have enable : (0xC7 : UInt8) &&& 0x01 = 0x01 := rfl
  have reset : (0xC7 : UInt8) &&& 0x04 = 0x04 := rfl
  change some ((), (uartDevice port).write (port + 4) 0x03 _) = _
  simp only [uartDevice, register_offset, first]
  cases uart.divisorAccess with
  | true =>
      simp [Uart.writeRegister, Uart.divisorAccess, Uart.controlFifo, enable,
        reset]
  | false =>
      simp [Uart.writeRegister, Uart.divisorAccess, Uart.controlFifo, enable,
        reset]

/-- Whatever state the chip was in, it is set up. -/
theorem serialInit_guarantees (uart : Uart) :
    (serialInit port divisor).Guarantees (uartDevice port) (fun _ => True)
      (fun _ after => Configured divisor after ∧ after.transmitter = [] ∧
        after.interruptEnable =
          if uart.divisorAccess then uart.interruptEnable else 0)
      uart := by
  refine (guarantees_exec pictures_moves
    (fun address byte _ _ => pictures_writeRegister (address - port) byte)
    (fun _ _ _ _ _ _ _ _ unread => by cases unread)
    (show Pictures uart uart from ⟨⟨_, _, rfl⟩, id⟩)
    (exec_serialInit uart)).mono ?_
  rintro _ after ⟨_, ⟨transmitter, line, rfl⟩, empty⟩
  exact ⟨⟨rfl, rfl, divisor_bytes divisor, rfl⟩, empty rfl, rfl⟩

end Chip

/-! ## Sending -/

section Sending

variable {device : PortDevice UInt16 UInt8 Uart} {port : UInt16}
variable {few : Nat} {always : Uart → Prop} {holds : List UInt8 → Uart → Prop}

/--
What holds when a text was sent is kept by the moves of the device and extended
by a character, when no more than a few others wait.
-/
structure Sends
    (device : PortDevice UInt16 UInt8 Uart)
    (port : UInt16)
    (few : Nat)
    (holds : List UInt8 → Uart → Prop) : Prop where
  status : ∀ before byte after, device.Reads (port + 5) before byte after →
    after = before ∧ (byte &&& 0x20 ≠ 0 ↔ before.transmitter = [])
  stable : ∀ text, device.Stable (holds text)
  stableShort : ∀ text, device.Stable fun uart =>
    holds text uart ∧ uart.transmitter.length ≤ few
  write : ∀ text c uart, holds text uart → uart.transmitter.length ≤ few →
    holds (text ++ [c]) (device.write port c uart)

/-- The loop of `serial_write_char` ends with nothing left to wait for. -/
theorem Sends.poll
    (sends : Sends device port few holds)
    {text : List UInt8} {uart : Uart}
    (safe : ∀ now, holds text now → always now)
    (now : holds text uart) :
    (do
      let empty ← serialTransmitEmpty port
      return empty == 0 : PortProgram UInt16 UInt8 Bool).Guarantees device
      always
      (fun again next =>
        if again then holds text next
        else holds text next ∧ next.transmitter.length ≤ few) uart := by
  intro polled settles
  have atPoll := (sends.stable text).settles now settles
  refine ⟨safe polled atPoll, fun byte next reads => ?_⟩
  obtain ⟨rfl, empty⟩ := sends.status _ _ _ reads
  intro last more
  by_cases busy : byte &&& 0x20 = 0
  · have again : (byte &&& 0x20 == 0) = true := beq_iff_eq.mpr busy
    have atLast := (sends.stable text).settles atPoll more
    simp only [again, if_true]
    exact ⟨safe last atLast, atLast⟩
  · have leaves : ¬ (byte &&& 0x20 == 0) = true := fun same =>
      busy (beq_iff_eq.mp same)
    have short : next.transmitter.length ≤ few := by
      rw [empty.mp busy]
      exact Nat.zero_le few
    have atLast := (sends.stableShort text).settles ⟨atPoll, short⟩ more
    simp only [leaves]
    exact ⟨safe last atLast.1, atLast⟩

theorem Sends.serialWriteChar
    (sends : Sends device port few holds)
    {text : List UInt8} {c : UInt8} {uart : Uart}
    (safe : ∀ now, holds text now → always now)
    (safeAfter : ∀ now, holds (text ++ [c]) now → always now)
    (now : holds text uart) :
    (serialWriteChar port c).Guarantees device always
      (fun _ => holds (text ++ [c])) uart := by
  have waits : (whileLoop do
      let empty ← serialTransmitEmpty port
      return empty == 0 : PortProgram UInt16 UInt8 Unit).Guarantees device
      always (fun _ next => holds text next ∧ next.transmitter.length ≤ few)
      uart :=
    guarantees_whileLoop (sends.stable text) (sends.stableShort text) safe
      (fun last short => safe last short.1) (fun _ => sends.poll safe) now
  refine Guarantees.bind (waits.mono ?_)
  intro _ ready short
  exact guarantees_outb (sends.stableShort text) (sends.stable _)
    (fun last atWrite => safe last atWrite.1) safeAfter
    (fun last atWrite => sends.write text c last atWrite.1 atWrite.2) short

/-- A string is sent character by character. -/
theorem Sends.serialWrite
    (sends : Sends device port few holds)
    {text str : List UInt8} {uart : Uart}
    (safe : ∀ part, part <+: str → ∀ now, holds (text ++ part) now → always now)
    (now : holds text uart) :
    (serialWrite port str).Guarantees device always
      (fun _ => holds (text ++ str)) uart := by
  induction str generalizing text uart with
  | nil =>
      have all := safe [] (List.prefix_refl [])
      rw [List.append_nil] at all ⊢
      exact guarantees_done (sends.stable text) all now
  | cons c str inductionHypothesis =>
      have none := safe [] List.nil_prefix
      rw [List.append_nil] at none
      have one := safe [c] (List.prefix_append [c] str)
      refine Guarantees.bind ((sends.serialWriteChar none one now).mono ?_)
      intro _ after written
      rw [List.append_cons]
      refine inductionHypothesis (fun part isPrefix => ?_) written
      have longer := safe (c :: part)
        (List.cons_prefix_cons.mpr ⟨rfl, isPrefix⟩)
      rwa [List.append_cons] at longer

end Sending

/-! ## A line that is not interrupted -/

section Line

variable {port divisor : UInt16} {uart later : Uart}

/-- A character is kept by a chip that has room for sixteen. -/
theorem Configured.write
    (configured : Configured divisor uart)
    (room : uart.transmitter.length < 16)
    (c : UInt8) :
    (uartDevice port).write port c uart =
      { uart with transmitter := uart.transmitter ++ [c] } := by
  have data : uart.divisorAccess = false := by
    rw [Uart.divisorAccess, configured.lineControl]
    rfl
  have space : uart.transmitter.length < uart.capacity := by
    rw [Uart.capacity, configured.fifoEnabled]
    exact room
  change uart.writeRegister (port - port) c = _
  rw [UInt16.sub_self, Uart.writeRegister, if_pos rfl, data,
    if_neg Bool.false_ne_true, Uart.transmit, if_pos space]

/-- A text was put behind what the chip had been given before. -/
structure Sent
    (divisor : UInt16) (waiting : Nat) (start text : List UInt8)
    (uart : Uart) : Prop where
  configured : Configured divisor uart
  waits : uart.transmitter.length ≤ max 1 waiting
  sent : uart.sent = start ++ text

/-- A character that leaves changes nothing else. -/
theorem moves_sent
    (moves : (uartDevice port).Moves uart later) :
    later.sent = uart.sent ∧
      later.transmitter.length < uart.transmitter.length ∧
      (Configured divisor uart → Configured divisor later) := by
  obtain ⟨c, rest, first, rfl⟩ := moves
  refine ⟨?_, ?_, fun configured => ?_⟩
  · rw [Uart.sent, Uart.sent, first, List.append_assoc]
    rfl
  · rw [first]
    exact Nat.lt_succ_self _
  · exact ⟨configured.lineControl, configured.modemControl, configured.divisor,
      configured.fifoEnabled⟩

theorem Configured.queued
    (configured : Configured divisor uart)
    (transmitter : List UInt8) :
    Configured divisor { uart with transmitter := transmitter } :=
  ⟨configured.lineControl, configured.modemControl, configured.divisor,
    configured.fifoEnabled⟩

theorem Sent.moves
    {waiting : Nat} {start text : List UInt8}
    (sent : Sent divisor waiting start text uart)
    (moves : (uartDevice port).Moves uart later) :
    Sent divisor waiting start text later := by
  obtain ⟨same, shorter, configured⟩ := moves_sent moves
  exact ⟨configured sent.configured, shorter.le.trans sent.waits,
    same.trans sent.sent⟩

theorem sends_sent (waiting : Nat) (start : List UInt8) :
    Sends (uartDevice port) port 0 (Sent divisor waiting start) where
  status := fun _ _ _ reads => ⟨reads.1, reads.2 rfl⟩
  stable := fun _ _ _ sent moves => sent.moves moves
  stableShort := by
    rintro text before after ⟨sent, short⟩ moves
    have shorter := (@moves_sent port divisor _ _ moves).2.1
    exact ⟨sent.moves moves, by omega⟩
  write := by
    intro text c uart sent short
    have room : uart.transmitter.length < 16 := by omega
    rw [sent.configured.write room]
    refine ⟨sent.configured.queued _, ?_, ?_⟩
    · simp only [List.length_append, List.length_singleton]
      omega
    · rw [Uart.sent, ← List.append_assoc, ← List.append_assoc, ← sent.sent]
      rfl

end Line

/-! ## Interrupts -/

/-- Texts that are inserted as a whole between the characters of another one. -/
inductive Woven {Char : Type} : List Char → List (List Char) → List Char → Prop where
  | nil : Woven [] [] []
  | own
      {text : List Char} {others : List (List Char)} {sent : List Char}
      (woven : Woven text others sent)
      (c : Char) :
      Woven (text ++ [c]) others (sent ++ [c])
  | other
      {text : List Char} {others : List (List Char)} {sent : List Char}
      (woven : Woven text others sent)
      (inserted : List Char) :
      Woven text (others ++ [inserted]) (sent ++ inserted)

/-- The handlers that print one of some messages. -/
def Prints
    (port : UInt16)
    (messages : List UInt8 → Prop)
    (handler : PortProgram UInt16 UInt8 Unit) : Prop :=
  ∃ message, messages message ∧ handler = serialWrite port message

/-- A text was sent, and messages between its characters. -/
structure SentWoven
    (divisor : UInt16) (start : List UInt8)
    (inserted : List UInt8 → Prop)
    (text : List UInt8)
    (uart : Uart) : Prop where
  configured : Configured divisor uart
  waits : uart.transmitter.length ≤ 2
  sent : ∃ others sent, (∀ other ∈ others, inserted other) ∧
    uart.sent = start ++ sent ∧ Woven text others sent

section Interrupts

variable {port divisor : UInt16} {uart later : Uart}
variable {start text : List UInt8} {inserted messages : List UInt8 → Prop}

/-- A message behind a woven text. -/
theorem SentWoven.insert
    {message : List UInt8}
    (woven : SentWoven divisor start inserted text uart)
    (isInserted : inserted message)
    (sent : Sent divisor uart.transmitter.length uart.sent message later) :
    SentWoven divisor start inserted text later where
  configured := sent.configured
  waits := by
    have before := woven.waits
    have after := sent.waits
    omega
  sent := by
    obtain ⟨others, earlier, allInserted, same, isWoven⟩ := woven.sent
    refine ⟨others ++ [message], earlier ++ message, ?_, ?_, isWoven.other message⟩
    · intro other member
      rcases List.mem_append.mp member with isOld | isNew
      · exact allInserted other isOld
      · rw [List.mem_singleton.mp isNew]
        exact isInserted
    · rw [sent.sent, same, List.append_assoc]

/-- What a handler that has run to its end has sent. -/
theorem Prints.sent
    {handler : PortProgram UInt16 UInt8 Unit}
    (prints : Prints port messages handler)
    (configured : Configured divisor uart)
    (runs : Runs (uartDevice port) (handler, uart) (.done (), later)) :
    ∃ message, messages message ∧
      Sent divisor uart.transmitter.length uart.sent message later := by
  obtain ⟨message, isMessage, rfl⟩ := prints
  have start : Sent divisor uart.transmitter.length uart.sent [] uart :=
    ⟨configured, Nat.le_max_right .., (List.append_nil _).symm⟩
  have guarantees : (serialWrite port message).Guarantees (uartDevice port)
      (fun _ => True)
      (fun _ => Sent divisor uart.transmitter.length uart.sent ([] ++ message))
      uart :=
    (sends_sent _ _).serialWrite (fun _ _ _ _ => trivial) start
  exact ⟨message, isMessage, ((guarantees.runs runs) later .refl).2⟩

theorem SentWoven.moves
    (woven : SentWoven divisor start inserted text uart)
    (moves : (uartDevice port).Moves uart later) :
    SentWoven divisor start inserted text later := by
  obtain ⟨same, shorter, configured⟩ := moves_sent moves
  refine ⟨configured woven.configured, shorter.le.trans woven.waits, ?_⟩
  rw [same]
  exact woven.sent

theorem sends_sentWoven :
    Sends (withHandlers (uartDevice port) (Prints port messages)) port 1
      (SentWoven divisor start messages) where
  status := fun _ _ _ reads => ⟨reads.1, reads.2 rfl⟩
  stable := by
    rintro text before after woven (moves | ⟨handler, prints, runs⟩)
    · exact woven.moves moves
    · obtain ⟨message, isMessage, sent⟩ := prints.sent woven.configured runs
      exact woven.insert isMessage sent
  stableShort := by
    rintro text before after ⟨woven, short⟩ (moves | ⟨handler, prints, runs⟩)
    · have shorter := (@moves_sent port divisor _ _ moves).2.1
      exact ⟨woven.moves moves, by omega⟩
    · obtain ⟨message, isMessage, sent⟩ := prints.sent woven.configured runs
      have waits := sent.waits
      exact ⟨woven.insert isMessage sent, by omega⟩
  write := by
    intro text c uart woven short
    have room : uart.transmitter.length < 16 := by omega
    have written : (uartDevice port).write port c uart =
        { uart with transmitter := uart.transmitter ++ [c] } :=
      woven.configured.write room c
    obtain ⟨others, sent, allInserted, same, isWoven⟩ := woven.sent
    change SentWoven divisor start messages (text ++ [c])
      ((uartDevice port).write port c uart)
    rw [written]
    refine ⟨woven.configured.queued _, ?_, others, sent ++ [c], allInserted, ?_,
      isWoven.own c⟩
    · simp only [List.length_append, List.length_singleton]
      omega
    · rw [Uart.sent, ← List.append_assoc, ← List.append_assoc, ← same]
      rfl

/-- While a message is printed, a part of it was sent. -/
def IsPiece (messages : List UInt8 → Prop) (piece : List UInt8) : Prop :=
  ∃ message, messages message ∧ piece <+: message

/-- A part of a text was sent, and at most a part of the last message. -/
def SendsText
    (divisor : UInt16) (start : List UInt8)
    (messages : List UInt8 → Prop)
    (text : List UInt8)
    (uart : Uart) : Prop :=
  ∃ written, written <+: text ∧
    SentWoven divisor start (IsPiece messages) written uart

theorem SentWoven.pieces
    (woven : SentWoven divisor start messages text uart) :
    SentWoven divisor start (IsPiece messages) text uart := by
  obtain ⟨others, sent, whole, same, isWoven⟩ := woven.sent
  exact ⟨woven.configured, woven.waits, others, sent,
    fun other member => ⟨other, whole other member, List.prefix_refl other⟩,
    same, isWoven⟩

/-- A handler leaves the text as it is, also while it prints. -/
theorem Prints.keeps
    {handler : PortProgram UInt16 UInt8 Unit}
    (prints : Prints port messages handler)
    (before : Uart)
    (sending : SendsText divisor start messages text before) :
    handler.Guarantees (uartDevice port) (SendsText divisor start messages text)
      (fun _ _ => True) before := by
  obtain ⟨message, isMessage, rfl⟩ := prints
  obtain ⟨written, isPrefix, woven⟩ := sending
  have none : Sent divisor before.transmitter.length before.sent [] before :=
    ⟨woven.configured, Nat.le_max_right .., (List.append_nil _).symm⟩
  have sends : Sends (uartDevice port) port 0
      (Sent divisor before.transmitter.length before.sent) := sends_sent _ _
  refine (sends.serialWrite (fun part isPiece now sent => ?_) none).mono
    fun _ _ _ => trivial
  exact ⟨written, isPrefix, woven.insert ⟨message, isMessage, isPiece⟩ sent⟩

end Interrupts

/-- A chip with its divisor in place of the data. -/
def foundUart : Uart where
  interruptEnable := 0x0F
  lineControl := 0x83
  modemControl := 0
  divisorLow := 0
  divisorHigh := 0
  fifoEnabled := false
  transmitter := [0x3F]
  line := []

/-- The same chip behind `serial_init`. -/
def readyUart : Uart where
  interruptEnable := 0x0F
  lineControl := 0x03
  modemControl := 0x03
  divisorLow := 1
  divisorHigh := 0
  fifoEnabled := true
  transmitter := []
  line := []

theorem foundUart_setUp :
    Runs (uartDevice 0x3F8) (serialInit 0x3F8 1, foundUart)
      (.done (), readyUart) := by
  have noReads : ∀ (port : UInt16) (uart : Uart) (byte : UInt8),
      (none : Option UInt8) = some byte →
        (uartDevice 0x3F8).Reads port uart byte uart := by
    intro _ _ _ unread
    cases unread
  exact exec_runs noReads (exec_serialInit foundUart)

/-- A chip that has nothing to send lets a string pass its first poll. -/
theorem polled
    {port : UInt16} {uart : Uart} (c : UInt8) (str : List UInt8)
    (empty : uart.transmitter = []) :
    Runs (uartDevice port) (serialWrite port (c :: str), uart)
      (.output port c (serialWrite port str), uart) := by
  have reads : (uartDevice port).Reads (port + 5) uart 0x20 uart :=
    ⟨rfl, fun _ => iff_of_true (by decide) empty⟩
  have looped : Step (uartDevice port) (serialWrite port (c :: str), uart) _ :=
    .loop _ _ uart
  exact (Relation.ReflTransGen.single looped).tail (.input _ _ reads)

/-- A message is printed between the poll of a character and its write. -/
theorem interrupted_reached :
    Relation.ReflTransGen
      (InterruptedStep (uartDevice 0x3F8) (Prints 0x3F8 (· = [0x21])))
      ⟨serialWrite 0x3F8 [0x41], none, readyUart⟩
      ⟨.done (), none, { readyUart with transmitter := [0x21, 0x41] }⟩ := by
  have idle : readyUart.transmitter = [] := rfl
  have message : Runs (uartDevice 0x3F8) (serialWrite 0x3F8 [0x21], readyUart)
      (.done (), { readyUart with transmitter := [0x21] }) :=
    (polled 0x21 [] idle).tail (.output ..)
  have last : Runs (uartDevice 0x3F8)
      (.output 0x3F8 0x41 (serialWrite 0x3F8 []),
        { readyUart with transmitter := [0x21] })
      (.done (), { readyUart with transmitter := [0x21, 0x41] }) :=
    .single (.output ..)
  exact ((polled 0x41 [] idle).interrupted.trans
    (message.handled ⟨[0x21], rfl, rfl⟩ _)).trans last.interrupted

end SerialLine

end MatrixOS
