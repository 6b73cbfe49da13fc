import Mathlib.Data.Nat.Bitwise

namespace MatrixOS

/-!
# Machine words

The kernel is compiled for a 32-bit machine.  Addresses and `uint32_t` values
are natural numbers below `2 ^ 32`; every C operation whose result may leave
that range goes through `wrap32`.
-/

/-- `PAGE_SIZE` of `types.h`. -/
def pageSize : Nat := 4096

/-- Reduce a result to 32 bits. -/
def wrap32 (value : Nat) : Nat :=
  value % 2 ^ 32

/-- Unsigned 32-bit subtraction. -/
def sub32 (left right : Nat) : Nat :=
  wrap32 (left + (2 ^ 32 - right % 2 ^ 32))

/-- Bitwise complement of a 32-bit value. -/
def not32 (value : Nat) : Nat :=
  2 ^ 32 - 1 - value

theorem wrap32_of_lt
    {value : Nat}
    (inRange : value < 2 ^ 32) :
    wrap32 value = value :=
  Nat.mod_eq_of_lt inRange

theorem wrap32_lt (value : Nat) : wrap32 value < 2 ^ 32 :=
  Nat.mod_lt _ (by decide)

theorem sub32_of_le
    {left right : Nat}
    (leftRange : left < 2 ^ 32)
    (ordered : right ≤ left) :
    sub32 left right = left - right := by
  simp only [sub32, wrap32]
  omega

theorem wrap32_wrap32_add (left right : Nat) :
    wrap32 (wrap32 left + right) = wrap32 (left + right) := by
  simp only [wrap32]
  omega

theorem sub32_wrap32 (left right : Nat) :
    sub32 left (wrap32 right) = sub32 left right := by
  simp only [sub32, wrap32]
  omega

/-! ## Signed words -/

/-- The conversion of a word to `int`. -/
def toInt (word : Nat) : Int :=
  if wrap32 word < 2 ^ 31 then wrap32 word else (wrap32 word : Int) - 2 ^ 32

/-- The conversion of an `int` to a word. -/
def toWord (value : Int) : Nat :=
  (value % 2 ^ 32).toNat

theorem toInt_of_lt
    {word : Nat}
    (small : word < 2 ^ 31) :
    toInt word = word := by
  rw [toInt, wrap32_of_lt (by omega), if_pos small]

theorem toInt_nonneg
    {word : Nat}
    (small : word < 2 ^ 31) :
    0 ≤ toInt word := by
  rw [toInt_of_lt small]
  exact Int.natCast_nonneg word

/-- From `2 ^ 31` on a word is negative as an `int`. -/
theorem toInt_neg
    {word : Nat}
    (inRange : word < 2 ^ 32)
    (large : 2 ^ 31 ≤ word) :
    toInt word < 0 := by
  rw [toInt, wrap32_of_lt inRange, if_neg (by omega)]
  omega

theorem toInt_range (word : Nat) :
    -2 ^ 31 ≤ toInt word ∧ toInt word < 2 ^ 31 := by
  have inRange := wrap32_lt word
  rw [toInt]
  split <;> omega

/-- An `int` is read back from its word. -/
theorem toInt_toWord
    {value : Int}
    (low : -2 ^ 31 ≤ value)
    (high : value < 2 ^ 31) :
    toInt (toWord value) = value := by
  have inRange : toWord value < 2 ^ 32 := by
    rw [toWord]
    omega
  rw [toInt, wrap32_of_lt inRange, toWord]
  by_cases negative : value < 0
  · rw [if_neg (by omega)]
    omega
  · rw [if_pos (by omega)]
    omega

/-! ## Masks -/

/-- Masking off the low `bits` bits rounds down to a multiple of `2 ^ bits`. -/
theorem and_not32_mask
    {value bits : Nat}
    (inRange : value < 2 ^ 32)
    (narrow : bits ≤ 32) :
    value &&& not32 (2 ^ bits - 1) = value / 2 ^ bits * 2 ^ bits := by
  have maskRange : 2 ^ bits - 1 < 2 ^ 32 := by
    have bound : 2 ^ bits ≤ 2 ^ 32 :=
      Nat.pow_le_pow_right (by omega) narrow
    omega
  have complement :
      not32 (2 ^ bits - 1) = 2 ^ 32 - (2 ^ bits - 1 + 1) := by
    rw [not32]
    omega
  apply Nat.eq_of_testBit_eq
  intro bit
  rw [Nat.testBit_and, complement,
    Nat.testBit_two_pow_sub_succ maskRange, Nat.testBit_two_pow_sub_one,
    Nat.testBit_mul_two_pow, Nat.testBit_div_two_pow]
  by_cases high : bits ≤ bit
  · rw [Nat.sub_add_cancel high]
    by_cases inWord : bit < 32
    · simp [high, inWord]
    · have clear : value.testBit bit = false :=
        Nat.testBit_lt_two_pow
          (Nat.lt_of_lt_of_le inRange
            (Nat.pow_le_pow_right (by omega) (by omega)))
      simp [clear]
  · have low : bit < bits := Nat.lt_of_not_le high
    simp [high, low]

end MatrixOS
