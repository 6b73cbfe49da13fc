import Mathlib.Tactic.IntervalCases
import MatrixOS.ByteStrings
import MatrixOS.Numerals
import MatrixOS.Serial

namespace MatrixOS

open ByteStrings Numerals

/-!
# Printing numbers

`itoa_dec` and `itoa_hex` write the digits from the last to the first and turn
them around.
-/

/-! ## Texts of numbers -/

/-- The symbol of a digit. -/
def digitChar (digit : Nat) : UInt8 :=
  UInt8.ofNat (if digit < 10 then 48 + digit else 87 + digit)

/-- The digit of a symbol. -/
def digitOf? (c : UInt8) : Option Nat :=
  if 48 ≤ c ∧ c ≤ 57 then some (c.toNat - 48)
  else if 97 ≤ c ∧ c ≤ 102 then some (c.toNat - 87)
  else none

/-- The sign of a negative number and the decimal digits. -/
def decimalText (num : Int) : List UInt8 :=
  (if num < 0 then [45] else []) ++ (numeral 10 num.natAbs).map digitChar

/-- The hexadecimal digits of a word. -/
def hexText (num : Nat) : List UInt8 :=
  (numeral 16 num).map digitChar

/-- The integer that a decimal text stands for. -/
def parseInteger (text : List UInt8) : Option Int :=
  if text.head? = some 45 then
    (parse digitOf? 10 text.tail).map fun number : Nat => -(number : Int)
  else
    (parse digitOf? 10 text).map fun number : Nat => (number : Int)

/-- A string lies in memory, with its end. -/
structure StringAt (mem : Memory) (address : Nat) (text : List UInt8) :
    Prop where
  noNul : 0 ∉ text
  bytes : ∀ offset, (inside : offset < text.length) →
    mem (address + offset) = text[offset]
  ends : mem (address + text.length) = 0

theorem StringAt.tail
    {mem : Memory} {address : Nat} {c : UInt8} {text : List UInt8}
    (holds : StringAt mem address (c :: text)) :
    mem address = c ∧ c ≠ 0 ∧ StringAt mem (address + 1) text := by
  obtain ⟨noNul, bytes, ends⟩ := holds
  rw [List.mem_cons, not_or] at noNul
  refine ⟨bytes 0 (by simp), Ne.symm noNul.1, noNul.2, fun offset inside => ?_, ?_⟩
  · rw [show address + 1 + offset = address + (offset + 1) by omega]
    exact bytes (offset + 1) (by simpa using inside)
  · rwa [List.length_cons, Nat.add_comm text.length, ← Nat.add_assoc] at ends

theorem digitOf?_digitChar : ∀ digit < 16, digitOf? (digitChar digit) = some digit := by
  decide

theorem digitChar_range
    {digit : Nat}
    (small : digit < 16) :
    48 ≤ (digitChar digit).toNat ∧ (digitChar digit).toNat ≤ 102 := by
  interval_cases digit <;> decide

theorem digitChars_noNul
    {digits : List Nat}
    (small : ∀ digit ∈ digits, digit < 16) :
    0 ∉ digits.map digitChar := by
  intro member
  obtain ⟨digit, inDigits, isZero⟩ := List.mem_map.mp member
  have range := (digitChar_range (small digit inDigits)).1
  rw [isZero] at range
  exact absurd range (by decide)

/-- A numeral does not start with a sign. -/
theorem head?_numeral_ne
    {base : Nat}
    (large : 1 < base)
    (most : base ≤ 16)
    (number : Nat) :
    ((numeral base number).map digitChar).head? ≠ some 45 := by
  intro starts
  rw [List.head?_map, Option.map_eq_some_iff] at starts
  obtain ⟨digit, first, sign⟩ := starts
  have small := numeral_lt large (List.mem_of_mem_head? first)
  have range := (digitChar_range (show digit < 16 by omega)).1
  rw [sign] at range
  exact absurd range (by decide)

theorem parseInteger_decimalText (num : Int) :
    parseInteger (decimalText num) = some num := by
  have decoded : ∀ digit < 10, digitOf? (digitChar digit) = some digit :=
    fun digit small => digitOf?_digitChar digit (by omega)
  have parsed := parse_map_symbol (by decide) decoded num.natAbs
  by_cases negative : num < 0
  · rw [decimalText, if_pos negative, List.singleton_append, parseInteger,
      if_pos List.head?_cons, List.tail_cons, parsed, Option.map_some]
    congr 1
    omega
  · rw [decimalText, if_neg negative, List.nil_append, parseInteger,
      if_neg (head?_numeral_ne (by decide) (by decide) _), parsed,
      Option.map_some]
    congr 1
    omega

theorem decimalText_noNul (num : Int) : 0 ∉ decimalText num := by
  have digits : 0 ∉ (numeral 10 num.natAbs).map digitChar :=
    digitChars_noNul fun digit member =>
      (numeral_lt (by decide) member).trans (by decide)
  rw [decimalText, List.mem_append, not_or]
  refine ⟨?_, digits⟩
  split <;> decide

theorem decimalText_length_le
    {num : Int}
    (lower : -2 ^ 31 ≤ num)
    (upper : num < 2 ^ 31) :
    (decimalText num).length ≤ 11 := by
  have digits : (numeral 10 num.natAbs).length ≤ 10 :=
    numeral_length_le (by decide) (by decide) (by omega)
  rw [decimalText, List.length_append, List.length_map]
  split <;> simp only [List.length_singleton, List.length_nil] <;> omega

theorem hexText_noNul (num : Nat) : 0 ∉ hexText num :=
  digitChars_noNul fun _ => numeral_lt (by decide)

theorem hexText_length_le
    {num : Nat}
    (inRange : num < 2 ^ 32) :
    (hexText num).length ≤ 8 := by
  rw [hexText, List.length_map]
  exact numeral_length_le (by decide) (by decide)
    (inRange.trans_eq (by norm_num))

/-- What `itoa_dec` is to write for an integer. -/
structure IsDecimal (text : List UInt8) (num : Int) : Prop where
  digits : ∃ digits : List Nat,
    text = (if num < 0 then [45] else []) ++ digits.map digitChar ∧
    digits ≠ [] ∧ (∀ digit ∈ digits, digit < 10) ∧
    (digits.head? = some 0 → digits = [0]) ∧
    value 10 digits = num.natAbs
  parsed : parseInteger text = some num

theorem decimalText_isDecimal (num : Int) : IsDecimal (decimalText num) num := by
  refine ⟨⟨numeral 10 num.natAbs, rfl, numeral_ne_nil _ _,
    fun _ => numeral_lt (by decide), fun leading => ?_, value_numeral _ _⟩,
    parseInteger_decimalText num⟩
  rw [numeral_head leading]
  rfl

/-! ## The digit loop -/

section Digits

variable {mem : Memory} {ptr : Nat}

theorem charOf_digit
    {digit : Nat}
    (small : digit < 10) :
    charOf (48 + (digit : Int)) = digitChar digit := by
  interval_cases digit <;> decide

/-- The digits of a positive number, the last one first. -/
theorem itoaDecDigits_eq
    {number : Nat}
    (positive : 0 < number)
    (ptr : Nat)
    (mem : Memory) :
    itoaDecDigits number ptr mem =
      (ptr + (Nat.digits 10 number).length,
        place mem ptr ((Nat.digits 10 number).map digitChar)) := by
  induction number using Nat.strongRecOn generalizing ptr mem with
  | ind number inductionHypothesis =>
      have last : charOf (48 + (number : Int).tmod 10) =
          digitChar (number % 10) :=
        charOf_digit (Nat.mod_lt _ (by decide))
      have rest : (number : Int).tdiv 10 = ((number / 10 : Nat) : Int) := rfl
      rw [itoaDecDigits, Nat.digits_def' (by decide) positive, last, rest]
      by_cases more : 0 < number / 10
      · rw [if_pos (by exact_mod_cast more),
          inductionHypothesis _ (by omega) more, List.length_cons,
          List.map_cons, place]
        congr 1
        omega
      · have none : number / 10 = 0 := by omega
        rw [if_neg (by omega), none, Nat.digits_zero]
        rfl

theorem hexSymbol_eq (digit : Nat) :
    UInt8.ofNat (if digit < 10 then 48 + digit else 97 + digit - 10) =
      digitChar digit := by
  rw [digitChar]
  congr 2
  omega

/--
The hexadecimal digits of a positive number, the last one first.  The count is
no limit for a word.
-/
theorem itoaHexDigits_eq
    {number count : Nat}
    (positive : 0 < number)
    (bound : number < 16 ^ (8 - count))
    (ptr : Nat)
    (mem : Memory) :
    itoaHexDigits number count ptr mem =
      (ptr + (Nat.digits 16 number).length,
        place mem ptr ((Nat.digits 16 number).map digitChar)) := by
  induction number using Nat.strongRecOn generalizing count ptr mem with
  | ind number inductionHypothesis =>
      have last : number &&& 0xF = number % 16 :=
        Nat.and_two_pow_sub_one_eq_mod number 4
      have rest : number >>> 4 = number / 16 := Nat.shiftRight_eq_div_pow number 4
      rw [itoaHexDigits, Nat.digits_def' (by decide) positive, last, rest,
        hexSymbol_eq]
      by_cases more : number / 16 = 0
      · rw [if_neg (by omega), more, Nat.digits_zero]
        rfl
      · have counted : count + 1 < 8 := by
          by_contra atEnd
          have least : 16 ^ (8 - count) ≤ 16 ^ 1 :=
            Nat.pow_le_pow_right (by decide) (by omega)
          omega
        have smaller : number / 16 < 16 ^ (8 - (count + 1)) := by
          rw [Nat.div_lt_iff_lt_mul (by decide), ← Nat.pow_succ]
          convert bound using 2
          omega
        rw [if_pos ⟨more, counted⟩,
          inductionHypothesis _ (by omega) (by omega) smaller,
          List.length_cons, List.map_cons, place]
        congr 1
        omega

theorem itoaDecReverse_eq (first last : Nat) (mem : Memory) :
    itoaDecReverse first last mem = mirror mem first last := by
  fun_induction itoaDecReverse first last mem with
  | case1 first last mem apart tmpChar mem' mem'' inductionHypothesis =>
      rw [inductionHypothesis]
      exact mirror_exchange apart
  | case2 first last mem met =>
      exact (mirror_of_le (Nat.le_of_not_lt met)).symm

theorem itoaHexReverse_eq (first last : Nat) (mem : Memory) :
    itoaHexReverse first last mem = mirror mem first last := by
  fun_induction itoaHexReverse first last mem with
  | case1 first last mem apart tmp mem' mem'' inductionHypothesis =>
      have exchanged := @mirror_exchange _ mem _ _ apart
      rw [Function.update_comm (Nat.ne_of_gt apart)] at exchanged
      rw [inductionHypothesis]
      exact exchanged
  | case2 first last mem met =>
      exact (mirror_of_le (Nat.le_of_not_lt met)).symm

end Digits

/-! ## Whole texts -/

/-- Writing a string with its end. -/
theorem stringAt_place
    {text : List UInt8}
    (noNul : 0 ∉ text)
    (mem : Memory)
    (address : Nat) :
    StringAt (place mem address (text ++ [0])) address text := by
  have length : (text ++ [0]).length = text.length + 1 := by simp
  refine ⟨noNul, fun offset inside => ?_, ?_⟩
  · rw [place_of_inside (by omega), List.getElem_append_left inside]
  · rw [place_of_inside (by omega)]
    simp

/-- The end of the text is written, and the text in front of it turned. -/
theorem itoaDecReverse_place (text : List UInt8) (str : Nat) (mem : Memory) :
    itoaDecReverse str (str + text.length - 1)
        (Function.update (place mem str text) (str + text.length) 0) =
      place mem str (text.reverse ++ [0]) := by
  rw [itoaDecReverse_eq, ← place_snoc, mirror_place]

/-- Except for the least integer, `itoa_dec` writes the decimal text. -/
theorem itoaDec_eq
    {num : Int}
    (lower : -2 ^ 31 < num)
    (upper : num < 2 ^ 31)
    (str : Nat)
    (mem : Memory) :
    itoaDec num str mem = place mem str (decimalText num ++ [0]) := by
  by_cases zero : num = 0
  · subst zero
    rfl
  obtain ⟨number, positive, magnitude⟩ :
      ∃ number : Nat, 0 < number ∧ num.natAbs = number :=
    ⟨num.natAbs, Int.natAbs_pos.mpr zero, rfl⟩
  have digits : numeral 10 number = (Nat.digits 10 number).reverse :=
    if_neg (by omega)
  rw [itoaDec, if_neg zero, decimalText, magnitude, digits, List.map_reverse]
  by_cases negative : num < 0
  · have negated : toInt (toWord (-num)) = (number : Int) := by
      rw [toInt_toWord (by omega) (by omega)]
      omega
    have turned := itoaDecReverse_place
      ((Nat.digits 10 number).map digitChar ++ [45]) str mem
    rw [place_snoc] at turned
    simpa [negative, negated, itoaDecDigits_eq positive, Nat.add_assoc]
      using turned
  · have same : num = (number : Int) := by omega
    have turned := itoaDecReverse_place
      ((Nat.digits 10 number).map digitChar) str mem
    rw [same] at negative ⊢
    simpa [negative, itoaDecDigits_eq positive] using turned

/-- The remainder of the least integer is negative, and so is its quotient. -/
theorem itoaDec_least (str : Nat) (mem : Memory) :
    itoaDec (-2 ^ 31) str mem = place mem str [45, 40, 0] := by
  have negated : toInt (toWord (- -2 ^ 31)) = -2 ^ 31 := by decide
  have first : itoaDecDigits (-2 ^ 31) str mem = (str + 1, place mem str [40]) := by
    rw [itoaDecDigits]
    rfl
  have negative : (-2 ^ 31 : Int) < 0 := by decide
  rw [itoaDec, if_neg (by decide)]
  simp only [negative, ↓reduceIte, negated, first]
  exact itoaDecReverse_place [40, 45] str mem

/-- `itoa_hex` writes the hexadecimal text. -/
theorem itoaHex_eq
    {num : Nat}
    (inRange : num < 2 ^ 32)
    (str : Nat)
    (mem : Memory) :
    itoaHex num str mem = place mem str (hexText num ++ [0]) := by
  by_cases zero : num = 0
  · subst zero
    rfl
  have bound : num < 16 ^ (8 - 0) := by
    norm_num
    omega
  rw [itoaHex, if_neg zero, itoaHexDigits_eq (by omega) bound, hexText, numeral,
    if_neg zero, List.map_reverse]
  simp only [itoaHexReverse_eq]
  rw [← mirror_place, place_snoc, List.length_map]

/-- What `%p` leaves in the buffer. -/
theorem itoaHex_pointer
    {ptr : Nat}
    (inRange : ptr < 2 ^ 32)
    (buffer : Nat)
    (mem : Memory) :
    itoaHex ptr (buffer + 2)
        (Function.update (Function.update mem buffer 0x30) (buffer + 1) 0x78) =
      place mem buffer (([0x30, 0x78] ++ hexText ptr) ++ [0]) := by
  rw [itoaHex_eq inRange, List.append_assoc, place_append mem buffer]
  rfl

/-! ## Decimal printing -/

/--
`itoa_dec` writes the decimal numeral of the integer and its end, at most 12
bytes, and nothing else.
-/
def PrintsDecimal (num : Int) : Prop :=
  ∀ (str : Nat) (mem : Memory), ∃ text,
    IsDecimal text num ∧ text.length + 1 ≤ 12 ∧
    StringAt (itoaDec num str mem) str text ∧
    ∀ address, address < str ∨ str + (text.length + 1) ≤ address →
      itoaDec num str mem address = mem address

/-- Behind the sign of the least integer there is a parenthesis. -/
theorem least_not_printed : ¬ PrintsDecimal (-2 ^ 31) := by
  intro prints
  obtain ⟨text, isDecimal, _, written, _⟩ := prints 0 fun _ => 0
  obtain ⟨digits, rfl, nonempty, small, _⟩ := isDecimal.digits
  obtain ⟨digit, rest, rfl⟩ := List.exists_cons_of_ne_nil nonempty
  have least := small digit (List.mem_cons_self ..)
  have range := (digitChar_range (show digit < 16 by omega)).1
  have behind : (40 : UInt8) = digitChar digit := by
    have byte := written.bytes 1 (by simp)
    rwa [itoaDec_least] at byte
  rw [← behind] at range
  exact absurd range (by decide)

/-- An integer is printed as it is to be, unless it is the least one. -/
theorem printsDecimal_iff
    {num : Int}
    (lower : -2 ^ 31 ≤ num)
    (upper : num < 2 ^ 31) :
    PrintsDecimal num ↔ num ≠ -2 ^ 31 := by
  constructor
  · rintro prints rfl
    exact least_not_printed prints
  · intro notLeast str mem
    rw [itoaDec_eq (by omega) upper]
    have length := decimalText_length_le lower upper
    refine ⟨decimalText num, decimalText_isDecimal num, by omega,
      stringAt_place (decimalText_noNul num) mem str, fun address outside => ?_⟩
    exact place_of_outside (by simpa using outside)

/-- The greatest integer and the least but one. -/
theorem printsDecimal_extremes :
    PrintsDecimal 2147483647 ∧ PrintsDecimal (-2147483647) :=
  ⟨(printsDecimal_iff (by decide) (by decide)).mpr (by decide),
    (printsDecimal_iff (by decide) (by decide)).mpr (by decide)⟩

/-- The least integer is printed as a sign and a parenthesis. -/
theorem not_printsDecimal :
    StringAt (itoaDec (-2147483648) 0 fun _ => 0) 0 [45, 40] ∧
      ¬ PrintsDecimal (-2147483648) := by
  refine ⟨?_, least_not_printed⟩
  have written := itoaDec_least 0 fun _ => 0
  rw [show (-2147483648 : Int) = -2 ^ 31 by decide, written]
  have noNul : (0 : UInt8) ∉ [45, 40] := by decide
  exact stringAt_place noNul (fun _ => 0) 0

/-! ## Hexadecimal printing -/

/-- What `itoa_hex` is to write for a word. -/
structure IsHexadecimal (text : List UInt8) (num : Nat) : Prop where
  digits : ∃ digits : List Nat,
    text = digits.map digitChar ∧
    digits ≠ [] ∧ (∀ digit ∈ digits, digit < 16) ∧
    (digits.head? = some 0 → digits = [0]) ∧
    value 16 digits = num
  zero : num = 0 → text = [48]
  length : 1 ≤ text.length ∧ text.length ≤ 8
  parsed : parse digitOf? 16 text = some num

theorem hexText_isHexadecimal
    {num : Nat}
    (inRange : num < 2 ^ 32) :
    IsHexadecimal (hexText num) num := by
  have nonempty := numeral_ne_nil 16 num
  refine ⟨⟨numeral 16 num, rfl, nonempty, fun _ => numeral_lt (by decide),
    fun leading => ?_, value_numeral _ _⟩, ?_,
    ⟨?_, hexText_length_le inRange⟩,
    parse_map_symbol (by decide) digitOf?_digitChar num⟩
  · rw [numeral_head leading]
    rfl
  · rintro rfl
    rfl
  · rw [hexText, List.length_map]
    exact List.length_pos_of_ne_nil nonempty

/--
`itoa_hex` writes the hexadecimal numeral of the word and its end, and nothing
else; with the two characters of `%p` in front, the text and its end stay in
the 16 bytes of the buffer.
-/
def PrintsHexadecimal (num : Nat) : Prop :=
  ∀ (str : Nat) (mem : Memory), ∃ text,
    IsHexadecimal text num ∧
    StringAt (itoaHex num str mem) str text ∧
    (∀ address, address < str ∨ str + (text.length + 1) ≤ address →
      itoaHex num str mem address = mem address) ∧
    ∀ buffer,
      let pointer := itoaHex num (buffer + 2)
        (Function.update (Function.update mem buffer 0x30) (buffer + 1) 0x78)
      StringAt pointer buffer ([0x30, 0x78] ++ text) ∧
      ∀ address, address < buffer ∨ buffer + 16 ≤ address →
        pointer address = mem address

theorem printsHexadecimal
    {num : Nat}
    (inRange : num < 2 ^ 32) :
    PrintsHexadecimal num := by
  intro str mem
  have noNul := hexText_noNul num
  have length := hexText_length_le inRange
  refine ⟨hexText num, hexText_isHexadecimal inRange, ?_,
    fun address outside => ?_, fun buffer => ?_⟩
  · rw [itoaHex_eq inRange]
    exact stringAt_place noNul mem str
  · rw [itoaHex_eq inRange]
    exact place_of_outside (by simpa using outside)
  · simp only [itoaHex_pointer inRange]
    refine ⟨stringAt_place (by simp [noNul]) mem buffer,
      fun address outside => place_of_outside ?_⟩
    simp only [List.length_append, List.length_cons, List.length_nil]
    omega

/-- The least word and the greatest. -/
theorem printsHexadecimal_extremes :
    PrintsHexadecimal 0 ∧ PrintsHexadecimal 0xFFFFFFFF :=
  ⟨printsHexadecimal (by decide), printsHexadecimal (by decide)⟩

end MatrixOS
