import MatrixOS.ByteMemory
import MatrixOS.Word

namespace MatrixOS

open ByteMemory

/-!
# `kernel/drivers/serial.c`

Text is printed into buffers and sent over a serial line.  A `char` pointer is
an address in the memory that holds its array.
-/

/-- The conversion of an `int` to a `char`. -/
def charOf (value : Int) : UInt8 :=
  UInt8.ofNat (toWord value)

/-! ## Numbers -/

/-- A quotient that is still positive is smaller. -/
theorem tdiv_ten_lt
    {num : Int}
    (positive : 0 < num.tdiv 10) :
    (num.tdiv 10).toNat < num.toNat := by
  have nonneg : 0 ≤ num := by
    by_contra negative
    have quotient : 0 ≤ (-num).tdiv 10 := Int.tdiv_nonneg (by omega) (by decide)
    rw [Int.neg_tdiv] at quotient
    omega
  rw [Int.tdiv_eq_ediv_of_nonneg nonneg] at positive ⊢
  omega

/-- The loop of `itoa_dec` that writes the digits, last digit first. -/
def itoaDecDigits (num : Int) (ptr : Nat) (mem : Memory) : Nat × Memory :=
  let mem := Function.update mem ptr (charOf (48 + num.tmod 10))
  let ptr := ptr + 1
  let rest := num.tdiv 10
  if 0 < rest then itoaDecDigits rest ptr mem else (ptr, mem)
termination_by num.toNat
decreasing_by
  rename_i positive
  exact tdiv_ten_lt positive

/-- The loop of `itoa_dec` that turns the text around. -/
def itoaDecReverse (ptr1 ptr : Nat) (mem : Memory) : Memory :=
  if ptr1 < ptr then
    let tmpChar := mem ptr
    let mem := Function.update mem ptr (mem ptr1)
    let mem := Function.update mem ptr1 tmpChar
    itoaDecReverse (ptr1 + 1) (ptr - 1) mem
  else
    mem
termination_by ptr - ptr1

/-- `itoa_dec`. -/
def itoaDec (num : Int) (str : Nat) (mem : Memory) : Memory :=
  if num = 0 then
    let mem := Function.update mem str 48
    Function.update mem (str + 1) 0
  else
    let isNegative := num < 0
    -- the negation of the least `int` wraps to itself
    let num := if isNegative then toInt (toWord (-num)) else num
    let (ptr, mem) := itoaDecDigits num str mem
    let (ptr, mem) :=
      if isNegative then (ptr + 1, Function.update mem ptr 45) else (ptr, mem)
    let mem := Function.update mem ptr 0
    itoaDecReverse str (ptr - 1) mem

/-- The loop of `itoa_hex` that writes the digits, last digit first. -/
def itoaHexDigits (num count ptr : Nat) (mem : Memory) : Nat × Memory :=
  let digit := num &&& 0xF
  let mem := Function.update mem ptr
    (UInt8.ofNat (if digit < 10 then 48 + digit else 97 + digit - 10))
  let ptr := ptr + 1
  let num := num >>> 4
  let count := count + 1
  if num ≠ 0 ∧ count < 8 then itoaHexDigits num count ptr mem else (ptr, mem)
termination_by 8 - count

/-- The loop of `itoa_hex` that turns the text around. -/
def itoaHexReverse (start ptr : Nat) (mem : Memory) : Memory :=
  if start < ptr then
    let tmp := mem start
    let mem := Function.update mem start (mem ptr)
    let mem := Function.update mem ptr tmp
    itoaHexReverse (start + 1) (ptr - 1) mem
  else
    mem
termination_by ptr - start

/-- `itoa_hex`. -/
def itoaHex (num str : Nat) (mem : Memory) : Memory :=
  if num = 0 then
    let mem := Function.update mem str 48
    Function.update mem (str + 1) 0
  else
    let (ptr, mem) := itoaHexDigits num 0 str mem
    let mem := Function.update mem ptr 0
    itoaHexReverse str (ptr - 1) mem

/-! ## The line -/

/-- A serial port: how often its status was read, and what was sent. -/
structure SerialPort where
  polls : Nat
  sent : List UInt8

section Line

-- what the line status register holds when it is read for the n-th time
variable (lineStatus : Nat → UInt8)

/-- `serial_transmit_empty`. -/
def serialTransmitEmpty (port : SerialPort) : UInt8 × SerialPort :=
  (lineStatus port.polls &&& 0x20, { port with polls := port.polls + 1 })

/-- `serial_write_char`: it waits for the transmitter. -/
def serialWriteChar (c : UInt8) : (fuel : Nat) → SerialPort → Option SerialPort
  | 0, _ => none
  | fuel + 1, port =>
      let (empty, port) := serialTransmitEmpty lineStatus port
      if empty = 0 then serialWriteChar c fuel port
      else some { port with sent := port.sent ++ [c] }

/-- `serial_write`. -/
def serialWrite (mem : Memory) :
    (fuel str : Nat) → SerialPort → Option SerialPort
  | 0, _, _ => none
  | fuel + 1, str, port =>
      if mem str = 0 then
        some port
      else do
        let port ← serialWriteChar lineStatus (mem str) fuel port
        serialWrite mem fuel (wrap32 (str + 1)) port

end Line

/-! ## Formatted output -/

/-- The variables of `serial_vprintf`, and where it has read its format. -/
structure Formatter where
  p : Nat
  args : Nat
  buffer : Memory
  reads : List Nat
  port : SerialPort

/-- `va_arg` for arguments of four bytes. -/
def vaArg (mem : Memory) (args : Nat) : Nat × Nat :=
  (load mem 4 args, wrap32 (args + 4))

/-- A read of `*p`. -/
def Formatter.read (state : Formatter) : Formatter :=
  { state with reads := state.reads ++ [state.p] }

/-- `p++`. -/
def Formatter.advance (state : Formatter) : Formatter :=
  { state with p := wrap32 (state.p + 1) }

section Output

variable (mem : Memory) (lineStatus : Nat → UInt8)

/-- The cases of `serial_vprintf`, by the character behind the percent sign. -/
def serialDirective (fuel : Nat) (state : Formatter) : Option Formatter :=
  let c := mem state.p
  let (word, args) := vaArg mem state.args
  if c = 0x64 then do  -- 'd'
    let buffer := itoaDec (toInt word) 0 state.buffer
    let port ← serialWrite lineStatus buffer fuel 0 state.port
    some { state with args, buffer, port }
  else if c = 0x78 then do  -- 'x'
    let buffer := itoaHex word 0 state.buffer
    let port ← serialWrite lineStatus buffer fuel 0 state.port
    some { state with args, buffer, port }
  else if c = 0x73 then do  -- 's'
    let port ← serialWrite lineStatus mem fuel word state.port
    some { state with args, port }
  else if c = 0x63 then do  -- 'c'
    let port ← serialWriteChar lineStatus (UInt8.ofNat word) fuel state.port
    some { state with args, port }
  else if c = 0x70 then do  -- 'p'
    let buffer := Function.update state.buffer 0 0x30
    let buffer := Function.update buffer 1 0x78
    let buffer := itoaHex word 2 buffer
    let port ← serialWrite lineStatus buffer fuel 0 state.port
    some { state with args, buffer, port }
  else if c = 0x25 then do  -- '%'
    let port ← serialWriteChar lineStatus 0x25 fuel state.port
    some { state with port }
  else do
    let port ← serialWriteChar lineStatus 0x25 fuel state.port
    let port ← serialWriteChar lineStatus c fuel port
    some { state with port }

/-- The loop of `serial_vprintf`. -/
def serialVprintfLoop : (fuel : Nat) → Formatter → Option Formatter
  | 0, _ => none
  | fuel + 1, state =>
      let state := state.read
      let c := mem state.p
      if c = 0 then
        some state
      else do
        let state ←
          if c = 0x25 then
            serialDirective mem lineStatus fuel state.advance.read
          else do
            let port ← serialWriteChar lineStatus c fuel state.port
            some { state with port }
        serialVprintfLoop fuel state.advance

/-- `serial_vprintf`, with what its buffers hold before they are written. -/
def serialVprintf (fuel format args : Nat) (buffer : Memory)
    (port : SerialPort) : Option Formatter :=
  serialVprintfLoop mem lineStatus fuel
    { p := format, args, buffer, reads := [], port }

end Output

end MatrixOS
