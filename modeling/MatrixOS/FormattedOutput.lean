import Mathlib.Algebra.Order.BigOperators.Group.List
import MatrixOS.FormatDirectives

namespace MatrixOS

open ByteStrings Fuel

/-!
# Formatted output

`serial_vprintf` is compared with what the items of its format are to print.
-/

/-! ## The loop -/

section Loop

variable {mem : Memory} {lineStatus : Nat → UInt8} {text : Nat → List UInt8}

/-- The rest of the run is the run from another state. -/
def Continues (mem : Memory) (lineStatus : Nat → UInt8)
    (state next : Formatter) : Prop :=
  ∀ final,
    Returns (fun fuel => serialVprintfLoop mem lineStatus fuel state) final ↔
      Returns (fun fuel => serialVprintfLoop mem lineStatus fuel next) final

theorem Continues.trans
    {state middle next : Formatter}
    (first : Continues mem lineStatus state middle)
    (rest : Continues mem lineStatus middle next) :
    Continues mem lineStatus state next :=
  fun final => (first final).trans (rest final)

/-- The loop ends at the end of the format. -/
theorem serialVprintfLoop_ends
    {state : Formatter}
    (ends : mem state.p = 0) :
    Returns (fun fuel => serialVprintfLoop mem lineStatus fuel state)
      state.read := by
  refine returns_succ_iff.mp ?_
  simp only [serialVprintfLoop, Formatter.read, ends, if_true]
  exact returns_some _

/-- What one round of the loop does to the state, for the characters it takes. -/
structure Stepped (text : Nat → List UInt8) (state next : Formatter)
    (front : List UInt8) (item : FormatItem) : Prop where
  p : next.p = state.p + front.length
  reads : ∀ address ∈ next.reads, address ∈ state.reads ∨
    state.p ≤ address ∧ address ≤ state.p + front.length
  sent : next.port.sent = state.port.sent ++ item.sent text

/-- A literal character is sent. -/
theorem literal_continues
    (text : Nat → List UInt8)
    (ready : TransmitterReady lineStatus)
    {state : Formatter} {c : UInt8} {format : List UInt8}
    (holds : StringAt mem state.p (c :: format))
    (inRange : state.p + 1 < 2 ^ 32)
    (notPercent : c ≠ 0x25) :
    ∃ next, Continues mem lineStatus state next ∧
      Stepped text state next [c] (.literal c) ∧ next.args = state.args := by
  obtain ⟨here, notEnd, _⟩ := holds.tail
  obtain ⟨port, returns, sent⟩ := serialWriteChar_returns ready c state.port
  refine ⟨Formatter.advance { state.read with port }, fun final => ?_,
    ⟨wrap32_of_lt inRange, fun address inside => ?_, sent⟩, rfl⟩
  · rw [← returns_succ_iff]
    simp only [serialVprintfLoop, Formatter.read, here, notEnd, notPercent,
      if_false, Option.bind_eq_bind, Option.bind_some]
    exact returns.bind_iff
  · simp only [Formatter.advance, Formatter.read, List.mem_append,
      List.mem_singleton] at inside
    exact inside.imp_right fun read => by omega

/-- A directive does what it is to do. -/
theorem directive_continues
    (ready : TransmitterReady lineStatus)
    {state : Formatter} {words rest : List Nat} {item : FormatItem}
    (isPercent : mem state.p = 0x25)
    (found : formatDirective (mem (wrap32 (state.p + 1))) words =
      some (item, rest))
    (arguments : ArgumentsAt mem state.args words)
    (strings : ∀ str, item = .string str →
      StringAt mem str (text str) ∧ str + (text str).length < 2 ^ 32) :
    ∃ next, Continues mem lineStatus state next ∧
      next.p = wrap32 (wrap32 (state.p + 1) + 1) ∧
      ArgumentsAt mem next.args rest ∧
      next.reads = state.reads ++ [state.p, wrap32 (state.p + 1)] ∧
      next.port.sent = state.port.sent ++ item.sent text := by
  obtain ⟨next, returns, directed⟩ :=
    @serialDirective_returns mem lineStatus text ready state.read.advance.read
      words rest item found arguments strings
  refine ⟨next.advance, fun final => ?_, ?_, directed.arguments, ?_,
    directed.sent⟩
  · rw [← returns_succ_iff]
    have notEnd : ¬ (0x25 : UInt8) = 0 := by decide
    have here : mem state.read.p = 0x25 := isPercent
    simp only [serialVprintfLoop, here, notEnd, if_true, if_false,
      Option.bind_eq_bind]
    exact returns.bind_iff
  · rw [Formatter.advance, directed.p]
    rfl
  · rw [Formatter.advance, directed.reads]
    simp [Formatter.read, Formatter.advance]

/-- The words and strings that a format uses are there. -/
structure Supplied (text : Nat → List UInt8) (mem : Memory) (args : Nat)
    (words : List Nat) (items : List FormatItem) : Prop where
  arguments : ArgumentsAt mem args words
  strings : ∀ str, .string str ∈ items →
    StringAt mem str (text str) ∧ str + (text str).length < 2 ^ 32

theorem Supplied.rest
    {args : Nat} {words rest : List Nat} {item : FormatItem}
    {items : List FormatItem} {later : Nat}
    (supplied : Supplied text mem args words (item :: items))
    (arguments : ArgumentsAt mem later rest) :
    Supplied text mem later rest items :=
  ⟨arguments, fun str member =>
    supplied.strings str (List.mem_cons_of_mem item member)⟩

/-- A directive inside the format is one step of the loop. -/
theorem directive_steps
    (ready : TransmitterReady lineStatus)
    {state : Formatter} {kind : UInt8} {format : List UInt8}
    {words rest : List Nat} {item : FormatItem} {items : List FormatItem}
    (holds : StringAt mem state.p (0x25 :: kind :: format))
    (inRange : state.p + 2 < 2 ^ 32)
    (found : formatDirective kind words = some (item, rest))
    (supplied : Supplied text mem state.args words (item :: items)) :
    ∃ next, Continues mem lineStatus state next ∧
      Stepped text state next [0x25, kind] item ∧
      ArgumentsAt mem next.args rest := by
  obtain ⟨here, _, behind⟩ := holds.tail
  have bound : wrap32 (state.p + 1) = state.p + 1 := wrap32_of_lt (by omega)
  have kindFound : formatDirective (mem (wrap32 (state.p + 1))) words =
      some (item, rest) := by
    rw [bound, behind.tail.1, found]
  obtain ⟨next, continues, p, arguments, reads, sent⟩ :=
    directive_continues ready here kindFound supplied.arguments
      fun str isString => supplied.strings str (by simp [isString])
  rw [bound, wrap32_of_lt (by omega)] at p
  refine ⟨next, continues, ⟨p, fun address inside => ?_, sent⟩, arguments⟩
  simp only [reads, bound, List.mem_append, List.mem_cons, List.not_mem_nil,
    or_false] at inside
  exact inside.imp_right fun read => by
    simp only [List.length_cons, List.length_nil]
    omega

/-- The loop goes through the whole format, and sometimes too far. -/
structure Passed (text : Nat → List UInt8) (state next : Formatter)
    (format : List UInt8) (items : List FormatItem) : Prop where
  p : next.p =
    if endsWithPercent format then wrap32 (state.p + format.length + 1)
    else state.p + format.length
  reads : ∀ address ∈ next.reads, address ∈ state.reads ∨
    state.p ≤ address ∧ address ≤ state.p + format.length
  sent : endsWithPercent format = false →
    next.port.sent = state.port.sent ++ items.flatMap (FormatItem.sent text)

theorem passed_nil (text : Nat → List UInt8) (state : Formatter) :
    Passed text state state [] [] :=
  ⟨by simp [endsWithPercent], fun _ inside => Or.inl inside, by simp⟩

/-- A step in front of what the loop has passed. -/
theorem Passed.step
    {state next final : Formatter} {front rest : List UInt8}
    {item : FormatItem} {items : List FormatItem}
    (passed : Passed text next final rest items)
    (stepped : Stepped text state next front item)
    (ending : endsWithPercent (front ++ rest) = endsWithPercent rest) :
    Passed text state final (front ++ rest) (item :: items) := by
  have p := stepped.p
  refine ⟨?_, fun address inside => ?_, fun complete => ?_⟩
  · rw [passed.p, ending, p, List.length_append]
    simp only [Nat.add_assoc]
  · rw [List.length_append]
    rcases passed.reads address inside with earlier | later
    · exact (stepped.reads address earlier).imp_right fun range => by omega
    · exact Or.inr (by omega)
  · rw [passed.sent (ending ▸ complete), stepped.sent, List.flatMap_cons,
      List.append_assoc]

/--
A percent sign at the end takes the end of the format for its character, and
the loop goes on behind it.
-/
theorem lonePercent_passes
    (ready : TransmitterReady lineStatus)
    {state : Formatter} {words : List Nat}
    (holds : StringAt mem state.p [0x25])
    (inRange : state.p + 1 < 2 ^ 32)
    (arguments : ArgumentsAt mem state.args words) :
    ∃ next, Continues mem lineStatus state next ∧
      Passed text state next [0x25] [.literal 0x25] := by
  obtain ⟨here, _, behind⟩ := holds.tail
  have bound : wrap32 (state.p + 1) = state.p + 1 := wrap32_of_lt inRange
  have found : formatDirective (mem (wrap32 (state.p + 1))) words =
      some (.unknown 0, words) := by
    have ends : mem (state.p + 1) = 0 := behind.ends
    rw [bound, ends]
    rfl
  obtain ⟨next, continues, p, _, reads, _⟩ :=
    @directive_continues mem lineStatus text ready state words words _ here
      found arguments (by simp)
  rw [wrap32_wrap32_add] at p
  refine ⟨next, continues, by simpa [endsWithPercent] using p,
    fun address inside => ?_, by simp [endsWithPercent]⟩
  simp only [reads, bound, List.mem_append, List.mem_cons, List.not_mem_nil,
    or_false] at inside
  exact inside.imp_right fun read => by
    simp only [List.length_singleton]
    omega

theorem serialVprintfLoop_passes
    (ready : TransmitterReady lineStatus)
    {state : Formatter} {format : List UInt8} {words : List Nat}
    {items : List FormatItem}
    (holds : StringAt mem state.p format)
    (inRange : state.p + format.length < 2 ^ 32)
    (parsed : formatItems format words = some items)
    (supplied : Supplied text mem state.args words items) :
    ∃ next, Continues mem lineStatus state next ∧
      Passed text state next format items := by
  fun_induction formatItems format words generalizing state items with
  | case1 words =>
      obtain rfl := Option.some.inj parsed
      exact ⟨state, fun _ => Iff.rfl, passed_nil text state⟩
  | case2 words c =>
      obtain rfl := Option.some.inj parsed
      by_cases isPercent : c = 0x25
      · subst isPercent
        exact lonePercent_passes ready holds inRange supplied.arguments
      · obtain ⟨next, continues, stepped, _⟩ :=
          literal_continues text ready holds inRange isPercent
        exact ⟨next, continues, (passed_nil text next).step stepped
          (by simp [endsWithPercent, isPercent])⟩
  | case3 kind rest words inductionHypothesis =>
      obtain ⟨⟨item, left⟩, found, remaining⟩ := Option.bind_eq_some_iff.mp parsed
      obtain ⟨later, laterParsed, listed⟩ :=
        Option.bind_eq_some_iff.mp remaining
      obtain rfl := Option.some.inj listed
      simp only [List.length_cons] at inRange
      obtain ⟨next, continues, stepped, arguments⟩ :=
        directive_steps ready holds (by omega) found supplied
      have p : next.p = state.p + 2 := stepped.p
      have holdsRest : StringAt mem next.p rest := by
        rw [p]
        exact holds.tail.2.2.tail.2.2
      obtain ⟨final, onward, passed⟩ := inductionHypothesis left holdsRest
        (by omega) laterParsed (supplied.rest arguments)
      exact ⟨final, continues.trans onward,
        passed.step stepped (by simp [endsWithPercent])⟩
  | case4 c kind rest words notPercent inductionHypothesis =>
      obtain ⟨later, laterParsed, listed⟩ := Option.bind_eq_some_iff.mp parsed
      obtain rfl := Option.some.inj listed
      rw [List.length_cons] at inRange
      obtain ⟨next, continues, stepped, args⟩ :=
        literal_continues text ready holds (by omega) notPercent
      have p : next.p = state.p + 1 := stepped.p
      have holdsRest : StringAt mem next.p (kind :: rest) := by
        rw [p]
        exact holds.tail.2.2
      obtain ⟨final, onward, passed⟩ := inductionHypothesis holdsRest
        (by omega) laterParsed (supplied.rest (args ▸ supplied.arguments))
      exact ⟨final, continues.trans onward,
        passed.step stepped (by simp [endsWithPercent, notPercent])⟩

theorem serialDirective_reads
    {fuel : Nat} {state next : Formatter}
    (result : serialDirective mem lineStatus fuel state = some next) :
    next.reads = state.reads := by
  simp only [serialDirective, Option.bind_eq_bind] at result
  split_ifs at result
  all_goals simp only [Option.bind_eq_some_iff, Option.some.injEq] at result
  case neg =>
    obtain ⟨_, _, _, _, rfl⟩ := result
    rfl
  all_goals
    obtain ⟨_, _, rfl⟩ := result
    rfl

/-- The loop reads the format where it starts, and forgets no read. -/
theorem serialVprintfLoop_reads
    {fuel : Nat} {state final : Formatter}
    (result : serialVprintfLoop mem lineStatus fuel state = some final) :
    ∀ address ∈ state.read.reads, address ∈ final.reads := by
  induction fuel generalizing state with
  | zero =>
      cases result
  | succ fuel inductionHypothesis =>
      simp only [serialVprintfLoop, Option.bind_eq_bind] at result
      split_ifs at result with ends isPercent
      · obtain rfl := Option.some.inj result
        exact fun _ inside => inside
      · obtain ⟨middle, step, rest⟩ := Option.bind_eq_some_iff.mp result
        intro address inside
        refine inductionHypothesis rest address (List.mem_append_left _ ?_)
        rw [Formatter.advance, serialDirective_reads step]
        exact List.mem_append_left _ inside
      · obtain ⟨port, _, rest⟩ := Option.bind_eq_some_iff.mp result
        exact fun address inside => inductionHypothesis rest address
          (List.mem_append_left _ inside)

theorem least_length : 2 < (decimalText (-2 ^ 31)).length := by
  decide

/-- The text of the least integer is longer than what is sent for it. -/
theorem sent_length_lt
    {items : List FormatItem}
    (least : .decimal (-2 ^ 31) ∈ items)
    (text : Nat → List UInt8) :
    (items.flatMap (FormatItem.sent text)).length <
      (items.flatMap (FormatItem.render text)).length := by
  rw [List.length_flatMap, List.length_flatMap]
  have shorter : ((FormatItem.decimal (-2 ^ 31)).sent text).length <
      ((FormatItem.decimal (-2 ^ 31)).render text).length := by
    rw [FormatItem.sent, if_pos rfl]
    exact least_length
  refine List.sum_lt_sum _ _ (fun item _ => ?_) ⟨_, least, shorter⟩
  by_cases isLeast : item = .decimal (-2 ^ 31)
  · subst isLeast
    exact shorter.le
  · rw [FormatItem.sent_eq_render isLeast]

end Loop

/-! ## Whole formats -/

/--
`serial_vprintf` returns, has read its format up to the end at most and has
sent the text.
-/
def PrintsFormat (mem : Memory) (lineStatus : Nat → UInt8)
    (format args length : Nat) (output : List UInt8) : Prop :=
  ∀ (buffer : Memory) (port : SerialPort), ∃ final,
    Returns (fun fuel =>
      serialVprintf mem lineStatus fuel format args buffer port) final ∧
    final.port.sent = port.sent ++ output ∧
    ∀ address ∈ final.reads, format ≤ address ∧ address ≤ format + length

section Formats

variable {mem : Memory} {lineStatus : Nat → UInt8} {text : Nat → List UInt8}
variable {format args : Nat} {chars : List UInt8} {words : List Nat}
variable {items : List FormatItem}

/-- A complete format is passed up to its end. -/
theorem serialVprintf_returns
    (ready : TransmitterReady lineStatus)
    (holds : StringAt mem format chars)
    (inRange : format + chars.length < 2 ^ 32)
    (parsed : formatItems chars words = some items)
    (supplied : Supplied text mem args words items)
    (complete : endsWithPercent chars = false)
    (buffer : Memory)
    (port : SerialPort) :
    ∃ final,
      Returns (fun fuel =>
        serialVprintf mem lineStatus fuel format args buffer port) final ∧
      final.port.sent =
        port.sent ++ items.flatMap (FormatItem.sent text) ∧
      ∀ address ∈ final.reads,
        format ≤ address ∧ address ≤ format + chars.length := by
  obtain ⟨next, continues, passed⟩ := @serialVprintfLoop_passes mem lineStatus
    text ready ⟨format, args, buffer, [], port⟩ chars words items holds inRange
    parsed supplied
  have atEnd : next.p = format + chars.length := by
    simpa [complete] using passed.p
  have ends : mem next.p = 0 := atEnd ▸ holds.ends
  refine ⟨next.read, (continues _).mpr (serialVprintfLoop_ends ends),
    passed.sent complete, fun address inside => ?_⟩
  rcases List.mem_append.mp inside with earlier | last
  · exact (passed.reads address earlier).resolve_left (List.not_mem_nil)
  · rw [List.mem_singleton.mp last, atEnd]
    omega

theorem printsFormat_of_complete
    (ready : TransmitterReady lineStatus)
    (holds : StringAt mem format chars)
    (inRange : format + chars.length < 2 ^ 32)
    (parsed : formatItems chars words = some items)
    (supplied : Supplied text mem args words items)
    (complete : endsWithPercent chars = false)
    (notLeast : .decimal (-2 ^ 31) ∉ items) :
    PrintsFormat mem lineStatus format args chars.length
      (items.flatMap (FormatItem.render text)) := by
  intro buffer port
  obtain ⟨final, returns, sent, reads⟩ := serialVprintf_returns ready holds
    inRange parsed supplied complete buffer port
  refine ⟨final, returns, ?_, reads⟩
  have same : ∀ item ∈ items, item.sent text = item.render text := by
    rintro item member
    refine FormatItem.sent_eq_render ?_ text
    rintro rfl
    exact notLeast member
  rw [sent, List.flatMap_congr same]

/-- Behind a percent sign at its end the format is read too far. -/
theorem not_printsFormat_of_percent
    (ready : TransmitterReady lineStatus)
    (holds : StringAt mem format chars)
    (notNull : 0 < format)
    (inRange : format + chars.length < 2 ^ 32)
    (parsed : formatItems chars words = some items)
    (supplied : Supplied text mem args words items)
    (incomplete : endsWithPercent chars = true)
    (output : List UInt8) :
    ¬ PrintsFormat mem lineStatus format args chars.length output := by
  intro prints
  obtain ⟨final, returns, _, reads⟩ := prints (fun _ => 0) ⟨0, []⟩
  obtain ⟨next, continues, passed⟩ := @serialVprintfLoop_passes mem lineStatus
    text ready ⟨format, args, fun _ => 0, [], ⟨0, []⟩⟩ chars words items holds
    inRange parsed supplied
  have behind : next.p = wrap32 (format + chars.length + 1) := by
    simpa [incomplete] using passed.p
  obtain ⟨enough, result⟩ := (continues final).mp returns
  have read : next.p ∈ final.reads :=
    serialVprintfLoop_reads (result enough le_rfl) next.p
      (List.mem_append_right _ (List.mem_singleton_self _))
  have inside := reads _ read
  rw [behind, wrap32] at inside
  omega

/-- The least integer is not printed in full. -/
theorem not_printsFormat_of_least
    (ready : TransmitterReady lineStatus)
    (holds : StringAt mem format chars)
    (inRange : format + chars.length < 2 ^ 32)
    (parsed : formatItems chars words = some items)
    (supplied : Supplied text mem args words items)
    (complete : endsWithPercent chars = false)
    (least : .decimal (-2 ^ 31) ∈ items) :
    ¬ PrintsFormat mem lineStatus format args chars.length
      (items.flatMap (FormatItem.render text)) := by
  intro prints
  obtain ⟨final, returns, sent, _⟩ := prints (fun _ => 0) ⟨0, []⟩
  obtain ⟨same, alsoReturns, sameSent, _⟩ := serialVprintf_returns ready holds
    inRange parsed supplied complete (fun _ => 0) ⟨0, []⟩
  obtain rfl := returns.unique alsoReturns
  have shorter := sent_length_lt least text
  rw [List.append_cancel_left (sameSent.symm.trans sent)] at shorter
  exact lt_irrefl _ shorter

/--
`serial_vprintf` prints a format as it is to, and reads nothing behind it,
when the format does not end with a percent sign and no `%d` has the least
integer.
-/
theorem printsFormat_iff
    (ready : TransmitterReady lineStatus)
    (holds : StringAt mem format chars)
    (notNull : 0 < format)
    (inRange : format + chars.length < 2 ^ 32)
    (parsed : formatItems chars words = some items)
    (supplied : Supplied text mem args words items) :
    PrintsFormat mem lineStatus format args chars.length
        (items.flatMap (FormatItem.render text)) ↔
      endsWithPercent chars = false ∧ .decimal (-2 ^ 31) ∉ items := by
  constructor
  · intro prints
    have complete : endsWithPercent chars = false := by
      by_contra incomplete
      exact not_printsFormat_of_percent ready holds notNull inRange parsed
        supplied (Bool.eq_true_of_not_eq_false incomplete) _ prints
    exact ⟨complete, fun least => not_printsFormat_of_least ready holds inRange
      parsed supplied complete least prints⟩
  · rintro ⟨complete, notLeast⟩
    exact printsFormat_of_complete ready holds inRange parsed supplied complete
      notLeast

end Formats

/-- A line that is never busy. -/
theorem transmitterReady_idle : TransmitterReady fun _ => 0x20 :=
  fun poll => ⟨poll, le_rfl, (by decide : (0x20 : UInt8) &&& 0x20 ≠ 0)⟩

/-- The format `%d %s` at 100, its arguments at 200 and a string at 300. -/
def demoFormat : Memory :=
  place (place (place (fun _ => 0) 200 [7, 0, 0, 0, 0x2C, 1, 0, 0])
    300 ([0x6F, 0x6B] ++ [0])) 100 ([0x25, 0x64, 0x20, 0x25, 0x73] ++ [0])

/-- `7 ok` is printed. -/
theorem printsFormat_demo :
    PrintsFormat demoFormat (fun _ => 0x20) 100 200 5 [0x37, 0x20, 0x6F, 0x6B] := by
  have noNul : (0 : UInt8) ∉ [0x25, 0x64, 0x20, 0x25, 0x73] := by decide
  have holds := stringAt_place noNul
    (place (place (fun _ => 0) 200 [7, 0, 0, 0, 0x2C, 1, 0, 0])
      300 ([0x6F, 0x6B] ++ [0])) 100
  have string : StringAt demoFormat 300 [0x6F, 0x6B] :=
    ⟨by decide, by decide, by decide⟩
  have supplied : Supplied (fun _ => [0x6F, 0x6B]) demoFormat 200 [7, 300]
      [.decimal 7, .literal 0x20, .string 300] := by
    refine ⟨⟨by decide, by decide, trivial⟩, fun str member => ?_⟩
    obtain rfl : str = 300 := by simpa using member
    exact ⟨string, by decide⟩
  have iff := @printsFormat_iff demoFormat (fun _ => 0x20) (fun _ => [0x6F, 0x6B])
    100 200 [0x25, 0x64, 0x20, 0x25, 0x73] [7, 300]
    [.decimal 7, .literal 0x20, .string 300]
    transmitterReady_idle holds (by decide) (by decide) (by decide) supplied
  exact iff.mpr ⟨by decide, by decide⟩

/-- The format `%` at 100. -/
def lonePercent : Memory :=
  place (fun _ => 0) 100 ([0x25] ++ [0])

/--
The end of the format `%` is sent as well, and the byte behind it is read.
-/
theorem not_printsFormat :
    (serialVprintf lonePercent (fun _ => 0x20) 9 100 200 (fun _ => 0)
        ⟨0, []⟩).map (fun final => (final.reads, final.port.sent)) =
      some ([100, 101, 102], [0x25, 0]) ∧
    ¬ PrintsFormat lonePercent (fun _ => 0x20) 100 200 1 [0x25] := by
  refine ⟨by decide, ?_⟩
  have noNul : (0 : UInt8) ∉ [0x25] := by decide
  exact @not_printsFormat_of_percent lonePercent (fun _ => 0x20) (fun _ => [])
    100 200 [0x25] [] [.literal 0x25] transmitterReady_idle
    (stringAt_place noNul (fun _ => 0) 100) (by decide) (by decide) rfl
    ⟨trivial, by simp⟩ rfl [0x25]

end MatrixOS
