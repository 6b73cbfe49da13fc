import MatrixOS.Fuel
import MatrixOS.Itoa

namespace MatrixOS

open ByteMemory ByteStrings Fuel

/-!
# Directives

A format is a sequence of literal characters and directives, each of which
takes its argument.  Each case of `serial_vprintf` sends what its directive is
to print.
-/

/-! ## Formats -/

/-- What a format asks for, with the arguments in their places. -/
inductive FormatItem where
  | literal (c : UInt8)
  | decimal (num : Int)
  | hexadecimal (num : Nat)
  | string (str : Nat)
  | character (c : UInt8)
  | pointer (ptr : Nat)
  | percent
  | unknown (c : UInt8)
  deriving DecidableEq

/-- The item of a directive that takes an argument. -/
def takeArgument (item : Nat → FormatItem) :
    List Nat → Option (FormatItem × List Nat)
  | [] => none
  | word :: words => some (item word, words)

/-- The item of a percent sign, by the character behind it. -/
def formatDirective (kind : UInt8) (words : List Nat) :
    Option (FormatItem × List Nat) :=
  if kind = 0x64 then takeArgument (fun word => .decimal (toInt word)) words
  else if kind = 0x78 then takeArgument .hexadecimal words
  else if kind = 0x73 then takeArgument .string words
  else if kind = 0x63 then
    takeArgument (fun word => .character (UInt8.ofNat word)) words
  else if kind = 0x70 then takeArgument .pointer words
  else if kind = 0x25 then some (.percent, words)
  else some (.unknown kind, words)

/-- The items of a format; `none` when there are too few arguments. -/
def formatItems : (format : List UInt8) → (words : List Nat) →
    Option (List FormatItem)
  | [], _ => some []
  | [c], _ => some [.literal c]
  | c :: kind :: rest, words =>
      if c = 0x25 then do
        let (item, words) ← formatDirective kind words
        let items ← formatItems rest words
        some (item :: items)
      else do
        let items ← formatItems (kind :: rest) words
        some (.literal c :: items)

/-- The format ends with a percent sign that has nothing behind it. -/
def endsWithPercent : List UInt8 → Bool
  | [] => false
  | [c] => c = 0x25
  | c :: kind :: rest =>
      if c = 0x25 then endsWithPercent rest else endsWithPercent (kind :: rest)

/-- What an item prints, with the strings that pointers lead to. -/
def FormatItem.render (text : Nat → List UInt8) : FormatItem → List UInt8
  | .literal c => [c]
  | .decimal num => decimalText num
  | .hexadecimal num => hexText num
  | .string str => text str
  | .character c => [c]
  | .pointer ptr => [0x30, 0x78] ++ hexText ptr
  | .percent => [0x25]
  | .unknown c => [0x25, c]

/-- What is sent for an item. -/
def FormatItem.sent (text : Nat → List UInt8) (item : FormatItem) :
    List UInt8 :=
  if item = .decimal (-2 ^ 31) then [45, 40] else item.render text

/-- The words that `va_arg` finds one after another. -/
def ArgumentsAt (mem : Memory) (args : Nat) : List Nat → Prop
  | [] => True
  | word :: words =>
      load mem 4 args = word ∧ ArgumentsAt mem (wrap32 (args + 4)) words

/-! ## The line -/

/-- The transmitter becomes empty again and again. -/
def TransmitterReady (lineStatus : Nat → UInt8) : Prop :=
  ∀ poll, ∃ later, poll ≤ later ∧ lineStatus later &&& 0x20 ≠ 0

section Line

variable {mem : Memory} {lineStatus : Nat → UInt8}

theorem serialWriteChar_returns
    (ready : TransmitterReady lineStatus)
    (c : UInt8)
    (port : SerialPort) :
    ∃ next, Returns (fun fuel => serialWriteChar lineStatus c fuel port) next ∧
      next.sent = port.sent ++ [c] := by
  obtain ⟨later, after, empty⟩ := ready port.polls
  -- by the number of polls until the transmitter is empty
  induction wait : later - port.polls generalizing port with
  | zero =>
      obtain rfl : later = port.polls := by omega
      refine ⟨⟨port.polls + 1, port.sent ++ [c]⟩, returns_succ_iff.mp ?_, rfl⟩
      simp only [serialWriteChar, serialTransmitEmpty, empty, if_false]
      exact returns_some _
  | succ less inductionHypothesis =>
      by_cases busy : lineStatus port.polls &&& 0x20 = 0
      · obtain ⟨next, returns, sent⟩ := inductionHypothesis
          { port with polls := port.polls + 1 } (by simp only; omega)
          (by simp only; omega)
        refine ⟨next, returns_succ_iff.mp ?_, sent⟩
        simpa only [serialWriteChar, serialTransmitEmpty, busy, if_true]
          using returns
      · refine ⟨⟨port.polls + 1, port.sent ++ [c]⟩, returns_succ_iff.mp ?_, rfl⟩
        simp only [serialWriteChar, serialTransmitEmpty, busy, if_false]
        exact returns_some _

theorem serialWrite_returns
    (ready : TransmitterReady lineStatus)
    {str : Nat} {text : List UInt8}
    (holds : StringAt mem str text)
    (inRange : str + text.length < 2 ^ 32)
    (port : SerialPort) :
    ∃ next, Returns (fun fuel => serialWrite lineStatus mem fuel str port) next ∧
      next.sent = port.sent ++ text := by
  induction text generalizing str port with
  | nil =>
      refine ⟨port, returns_succ_iff.mp ?_, (List.append_nil _).symm⟩
      have ends : mem str = 0 := holds.ends
      simp only [serialWrite, ends, if_true]
      exact returns_some _
  | cons c text inductionHypothesis =>
      rw [List.length_cons] at inRange
      obtain ⟨byte, nonzero, rest⟩ := holds.tail
      obtain ⟨middle, wrote, middleSent⟩ :=
        serialWriteChar_returns ready c port
      obtain ⟨next, returns, sent⟩ :=
        inductionHypothesis rest (by omega) middle
      refine ⟨next, returns_succ_iff.mp ?_, ?_⟩
      · simp only [serialWrite, byte, nonzero, if_false,
          wrap32_of_lt (show str + 1 < 2 ^ 32 by omega)]
        exact wrote.bind_iff.mpr returns
      · rw [sent, middleSent, List.append_assoc, List.singleton_append]

end Line

/-! ## Directives -/

section Directives

variable {mem : Memory} {lineStatus : Nat → UInt8} {text : Nat → List UInt8}

theorem word_lt (mem : Memory) (args : Nat) : load mem 4 args < 2 ^ 32 :=
  load_lt mem 4 args

/-- What `itoa_dec` leaves in a buffer is what is sent for a number. -/
theorem itoaDec_place
    (text : Nat → List UInt8)
    {num : Int}
    (lower : -2 ^ 31 ≤ num)
    (upper : num < 2 ^ 31)
    (buffer : Memory) :
    itoaDec num 0 buffer =
        place buffer 0 ((FormatItem.decimal num).sent text ++ [0]) ∧
      0 ∉ (FormatItem.decimal num).sent text ∧
      ((FormatItem.decimal num).sent text).length ≤ 11 := by
  by_cases least : num = -2 ^ 31
  · subst least
    rw [FormatItem.sent, if_pos rfl]
    exact ⟨itoaDec_least 0 buffer, by decide, by decide⟩
  · rw [FormatItem.sent, if_neg (by simpa using least)]
    exact ⟨itoaDec_eq (by omega) upper 0 buffer, decimalText_noNul num,
      decimalText_length_le lower upper⟩

/-- What one directive does. -/
structure Directed (text : Nat → List UInt8) (mem : Memory)
    (state next : Formatter) (item : FormatItem) (rest : List Nat) :
    Prop where
  p : next.p = state.p
  reads : next.reads = state.reads
  arguments : ArgumentsAt mem next.args rest
  sent : next.port.sent = state.port.sent ++ item.sent text

theorem takeArgument_eq_some
    {kind : Nat → FormatItem} {words rest : List Nat} {item : FormatItem}
    (found : takeArgument kind words = some (item, rest)) :
    ∃ word, words = word :: rest ∧ item = kind word := by
  cases words with
  | nil =>
      cases found
  | cons word words =>
      obtain ⟨rfl, rfl⟩ := Prod.mk.inj (Option.some.inj found)
      exact ⟨word, rfl, rfl⟩

/-- Only the least integer is not sent as it is to be printed. -/
theorem FormatItem.sent_eq_render
    {item : FormatItem}
    (notLeast : item ≠ .decimal (-2 ^ 31))
    (text : Nat → List UInt8) :
    item.sent text = item.render text :=
  if_neg notLeast

/-- A directive takes its argument, fills the buffer and sends something. -/
theorem directed_of_returns
    {state : Formatter} {item : FormatItem} {rest : List Nat}
    {send : Nat → Option SerialPort} {port : SerialPort} {args : Nat}
    (buffer : Memory)
    (shape : ∀ fuel, serialDirective mem lineStatus fuel state =
      (send fuel).bind fun port => some { state with args, buffer, port })
    (later : ArgumentsAt mem args rest)
    (returns : Returns send port)
    (sent : port.sent = state.port.sent ++ item.sent text) :
    ∃ next,
      Returns (fun fuel => serialDirective mem lineStatus fuel state) next ∧
      Directed text mem state next item rest := by
  refine ⟨{ state with args, buffer, port }, ?_, rfl, rfl, later, sent⟩
  simp only [shape]
  exact returns.bind_iff.mpr (returns_some _)

/-- A directive fills its buffer with a text and sends it. -/
theorem directed_of_text
    (ready : TransmitterReady lineStatus)
    {state : Formatter} {item : FormatItem} {rest : List Nat}
    {args : Nat} {buffer : Memory}
    (shape : ∀ fuel, serialDirective mem lineStatus fuel state =
      (serialWrite lineStatus buffer fuel 0 state.port).bind fun port =>
        some { state with args, buffer, port })
    (later : ArgumentsAt mem args rest)
    (filled : buffer = place state.buffer 0 (item.sent text ++ [0]))
    (noNul : 0 ∉ item.sent text)
    (short : (item.sent text).length ≤ 15) :
    ∃ next,
      Returns (fun fuel => serialDirective mem lineStatus fuel state) next ∧
      Directed text mem state next item rest := by
  have holds : StringAt buffer 0 (item.sent text) := by
    rw [filled]
    exact stringAt_place noNul state.buffer 0
  obtain ⟨port, returns, sent⟩ :=
    serialWrite_returns ready holds (by omega) state.port
  exact directed_of_returns buffer shape later returns sent

section Kinds

variable {state : Formatter} {rest : List Nat}

theorem decimal_returns
    (ready : TransmitterReady lineStatus)
    (isDecimal : mem state.p = 0x64)
    (later : ArgumentsAt mem (wrap32 (state.args + 4)) rest) :
    ∃ next,
      Returns (fun fuel => serialDirective mem lineStatus fuel state) next ∧
      Directed text mem state next
        (.decimal (toInt (load mem 4 state.args))) rest := by
  obtain ⟨lower, upper⟩ := toInt_range (load mem 4 state.args)
  obtain ⟨filled, noNul, length⟩ := itoaDec_place text lower upper state.buffer
  refine directed_of_text ready (fun fuel => ?_) later filled noNul (by omega)
  simp [serialDirective, vaArg, isDecimal]

theorem hexadecimal_returns
    (ready : TransmitterReady lineStatus)
    (isHexadecimal : mem state.p = 0x78)
    (later : ArgumentsAt mem (wrap32 (state.args + 4)) rest) :
    ∃ next,
      Returns (fun fuel => serialDirective mem lineStatus fuel state) next ∧
      Directed text mem state next
        (.hexadecimal (load mem 4 state.args)) rest := by
  have inRange := word_lt mem state.args
  have length := hexText_length_le inRange
  refine directed_of_text ready (fun fuel => ?_) later
    (itoaHex_eq inRange 0 state.buffer) (hexText_noNul _)
    (length.trans (by decide))
  simp [serialDirective, vaArg, isHexadecimal]

theorem string_returns
    (ready : TransmitterReady lineStatus)
    (isString : mem state.p = 0x73)
    (later : ArgumentsAt mem (wrap32 (state.args + 4)) rest)
    (holds : StringAt mem (load mem 4 state.args) (text (load mem 4 state.args)))
    (inRange : load mem 4 state.args + (text (load mem 4 state.args)).length <
      2 ^ 32) :
    ∃ next,
      Returns (fun fuel => serialDirective mem lineStatus fuel state) next ∧
      Directed text mem state next (.string (load mem 4 state.args)) rest := by
  obtain ⟨port, returns, sent⟩ :=
    serialWrite_returns ready holds inRange state.port
  refine directed_of_returns state.buffer (fun fuel => ?_) later returns sent
  simp [serialDirective, vaArg, isString]

theorem character_returns
    (ready : TransmitterReady lineStatus)
    (isCharacter : mem state.p = 0x63)
    (later : ArgumentsAt mem (wrap32 (state.args + 4)) rest) :
    ∃ next,
      Returns (fun fuel => serialDirective mem lineStatus fuel state) next ∧
      Directed text mem state next
        (.character (UInt8.ofNat (load mem 4 state.args))) rest := by
  obtain ⟨port, returns, sent⟩ := serialWriteChar_returns ready
    (UInt8.ofNat (load mem 4 state.args)) state.port
  refine directed_of_returns state.buffer (fun fuel => ?_) later returns sent
  simp [serialDirective, vaArg, isCharacter]

theorem pointer_returns
    (ready : TransmitterReady lineStatus)
    (isPointer : mem state.p = 0x70)
    (later : ArgumentsAt mem (wrap32 (state.args + 4)) rest) :
    ∃ next,
      Returns (fun fuel => serialDirective mem lineStatus fuel state) next ∧
      Directed text mem state next (.pointer (load mem 4 state.args)) rest := by
  have inRange := word_lt mem state.args
  have length := hexText_length_le inRange
  have noNul : 0 ∉ [0x30, 0x78] ++ hexText (load mem 4 state.args) := by
    simp [hexText_noNul]
  have short :
      ([0x30, 0x78] ++ hexText (load mem 4 state.args)).length ≤ 15 := by
    simp only [List.length_append, List.length_cons, List.length_nil]
    omega
  refine directed_of_text ready (fun fuel => ?_) later
    (itoaHex_pointer inRange 0 state.buffer) noNul short
  simp [serialDirective, vaArg, isPointer]

theorem percent_returns
    (ready : TransmitterReady lineStatus)
    (isPercent : mem state.p = 0x25)
    (arguments : ArgumentsAt mem state.args rest) :
    ∃ next,
      Returns (fun fuel => serialDirective mem lineStatus fuel state) next ∧
      Directed text mem state next .percent rest := by
  obtain ⟨port, returns, sent⟩ := serialWriteChar_returns ready 0x25 state.port
  refine directed_of_returns state.buffer (fun fuel => ?_) arguments returns sent
  simp [serialDirective, isPercent]

/-- A character that is no directive is sent behind its percent sign. -/
theorem unknown_returns
    (ready : TransmitterReady lineStatus)
    (noDirective : ∀ c ∈ [0x64, 0x78, 0x73, 0x63, 0x70, 0x25], mem state.p ≠ c)
    (arguments : ArgumentsAt mem state.args rest) :
    ∃ next,
      Returns (fun fuel => serialDirective mem lineStatus fuel state) next ∧
      Directed text mem state next (.unknown (mem state.p)) rest := by
  obtain ⟨middle, sign, signSent⟩ :=
    serialWriteChar_returns ready 0x25 state.port
  obtain ⟨port, returns, sent⟩ :=
    serialWriteChar_returns ready (mem state.p) middle
  have both : Returns (fun fuel =>
      (serialWriteChar lineStatus 0x25 fuel state.port).bind fun port =>
        serialWriteChar lineStatus (mem state.p) fuel port) port :=
    (Returns.bind_iff sign).mpr returns
  rw [signSent, List.append_assoc] at sent
  refine directed_of_returns state.buffer (fun fuel => ?_) arguments both sent
  simp only [List.forall_mem_cons] at noDirective
  obtain ⟨notD, notX, notS, notC, notP, notPercent, _⟩ := noDirective
  simp [serialDirective, notD, notX, notS, notC, notP, notPercent,
    Option.bind_assoc]

end Kinds

/-- Every directive prints its item and moves on to the arguments behind. -/
theorem serialDirective_returns
    (ready : TransmitterReady lineStatus)
    {state : Formatter} {words rest : List Nat} {item : FormatItem}
    (found : formatDirective (mem state.p) words = some (item, rest))
    (arguments : ArgumentsAt mem state.args words)
    (strings : ∀ str, item = .string str →
      StringAt mem str (text str) ∧ str + (text str).length < 2 ^ 32) :
    ∃ next,
      Returns (fun fuel => serialDirective mem lineStatus fuel state) next ∧
      Directed text mem state next item rest := by
  rw [formatDirective] at found
  split_ifs at found with isDecimal isHexadecimal isString isCharacter
    isPointer isPercent
  · obtain ⟨word, rfl, rfl⟩ := takeArgument_eq_some found
    obtain ⟨rfl, later⟩ := arguments
    exact decimal_returns ready isDecimal later
  · obtain ⟨word, rfl, rfl⟩ := takeArgument_eq_some found
    obtain ⟨rfl, later⟩ := arguments
    exact hexadecimal_returns ready isHexadecimal later
  · obtain ⟨word, rfl, rfl⟩ := takeArgument_eq_some found
    obtain ⟨rfl, later⟩ := arguments
    obtain ⟨holds, inRange⟩ := strings _ rfl
    exact string_returns ready isString later holds inRange
  · obtain ⟨word, rfl, rfl⟩ := takeArgument_eq_some found
    obtain ⟨rfl, later⟩ := arguments
    exact character_returns ready isCharacter later
  · obtain ⟨word, rfl, rfl⟩ := takeArgument_eq_some found
    obtain ⟨rfl, later⟩ := arguments
    exact pointer_returns ready isPointer later
  · obtain ⟨rfl, rfl⟩ := Prod.mk.inj (Option.some.inj found)
    exact percent_returns ready isPercent arguments
  · obtain ⟨rfl, rfl⟩ := Prod.mk.inj (Option.some.inj found)
    exact unknown_returns ready (by simp [isDecimal, isHexadecimal, isString,
      isCharacter, isPointer, isPercent]) arguments

end Directives

end MatrixOS
