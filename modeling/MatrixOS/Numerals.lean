import Mathlib.Data.Nat.Digits.Lemmas

namespace MatrixOS.Numerals

/-!
# Numerals

A number is written with its digits in a base, most significant first and
without leading zeros, each digit as a symbol.  Reading the symbols gives the
number back.
-/

variable {α : Type*}

/-- The digits of a number; zero has one. -/
def numeral (base number : Nat) : List Nat :=
  if number = 0 then [0] else (Nat.digits base number).reverse

/-- The number that digits stand for. -/
def value (base : Nat) (digits : List Nat) : Nat :=
  digits.foldl (fun number digit => number * base + digit) 0

/-- The number that a text stands for, if all its symbols are digits. -/
def parse (digit? : α → Option Nat) (base : Nat) (text : List α) :
    Option Nat :=
  (text.mapM digit?).bind fun digits =>
    if digits ≠ [] ∧ ∀ digit ∈ digits, digit < base then
      some (value base digits)
    else
      none

theorem value_eq_ofDigits (base : Nat) (digits : List Nat) :
    value base digits = Nat.ofDigits base digits.reverse := by
  rw [Nat.ofDigits_eq_foldr, List.foldr_reverse, value]
  congr 1
  funext number digit
  rw [Nat.cast_id, Nat.mul_comm, Nat.add_comm]

theorem numeral_ne_nil (base number : Nat) : numeral base number ≠ [] := by
  rw [numeral]
  split
  · exact List.cons_ne_nil 0 []
  · rename_i nonzero
    exact List.reverse_ne_nil_iff.mpr (Nat.digits_ne_nil_iff_ne_zero.mpr nonzero)

theorem value_numeral (base number : Nat) :
    value base (numeral base number) = number := by
  rw [numeral]
  split
  · rename_i zero
    simp [value, zero]
  · rw [value_eq_ofDigits, List.reverse_reverse, Nat.ofDigits_digits]

section Digits

variable {base number : Nat}

theorem numeral_lt
    (large : 1 < base)
    {digit : Nat}
    (member : digit ∈ numeral base number) :
    digit < base := by
  rw [numeral] at member
  split at member
  · rw [List.mem_singleton.mp member]
    omega
  · exact Nat.digits_lt_base large (List.mem_reverse.mp member)

/-- Only zero starts with the digit zero. -/
theorem numeral_head
    (leading : (numeral base number).head? = some 0) :
    number = 0 := by
  by_contra nonzero
  have nonempty : Nat.digits base number ≠ [] :=
    Nat.digits_ne_nil_iff_ne_zero.mpr nonzero
  rw [numeral, if_neg nonzero, List.head?_reverse,
    List.getLast?_eq_some_getLast nonempty] at leading
  exact Nat.getLast_digit_ne_zero base nonzero (Option.some.inj leading)

theorem numeral_length_le
    (large : 1 < base)
    {count : Nat}
    (positive : 0 < count)
    (small : number < base ^ count) :
    (numeral base number).length ≤ count := by
  rw [numeral]
  split
  · exact positive
  · rw [List.length_reverse]
    exact (Nat.digits_length_le_iff large number).mpr small

theorem parse_map_symbol
    {symbol : Nat → α} {digit? : α → Option Nat}
    (large : 1 < base)
    (decoded : ∀ digit < base, digit? (symbol digit) = some digit)
    (number : Nat) :
    parse digit? base ((numeral base number).map symbol) = some number := by
  have below : ∀ digit ∈ numeral base number, digit < base :=
    fun _ => numeral_lt large
  have read : ∀ digits : List Nat, (∀ digit ∈ digits, digit < base) →
      (digits.map symbol).mapM digit? = some digits := by
    intro digits inRange
    induction digits with
    | nil =>
        rfl
    | cons digit rest inductionHypothesis =>
        rw [List.forall_mem_cons] at inRange
        simp [decoded digit inRange.1, inductionHypothesis inRange.2]
  rw [parse, read _ below, Option.bind_some,
    if_pos ⟨numeral_ne_nil base number, below⟩, value_numeral]

end Digits

end MatrixOS.Numerals
