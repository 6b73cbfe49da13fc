import Mathlib.Data.Int.Order.Basic
import MatrixOS.Fuel
import MatrixOS.Itoa
import MatrixOS.StringLib

namespace MatrixOS

open ByteMemory Fuel

/-!
# Moves and comparisons

`memmove` copies whatever the overlap.  `strcmp` compares bytes as unsigned
characters and `strncmp` as signed ones, so their orders differ.
-/

/-! ## Moves -/

section Moves

variable {mem : Memory} {dest src num : Nat}

theorem memmoveDown_flat
    (destRange : dest + num ≤ 2 ^ 32)
    (srcRange : src + num ≤ 2 ^ 32)
    (ordered : src ≤ dest) :
    (memmoveDown flatAccess dest src num mem).2 = transfer mem dest src num := by
  induction num generalizing mem with
  | zero =>
      exact transfer_zero.symm
  | succ i inductionHypothesis =>
      have step :
          (memmoveDown flatAccess dest src (i + 1) mem).2 =
            (memmoveDown flatAccess dest src i
              (Function.update mem (wrap32 (dest + i))
                (mem (wrap32 (src + i))))).2 :=
        rfl
      rw [step, inductionHypothesis (by omega) (by omega),
        wrap32_of_lt (by omega), wrap32_of_lt (by omega),
        transfer_update_last ordered]

/-- `memmove` copies as if all bytes were read before any is written. -/
theorem memmoveFlat_eq
    (destRange : dest + num ≤ 2 ^ 32)
    (srcRange : src + num ≤ 2 ^ 32) :
    memmoveFlat mem dest src num = transfer mem dest src num := by
  rw [memmoveFlat, memmove]
  split
  · rename_i below
    exact memcpyFlat_eq destRange srcRange (Or.inr (Nat.le_of_lt below))
  · rename_i notBelow
    exact memmoveDown_flat destRange srcRange (Nat.le_of_not_lt notBelow)

/--
`memmove` is safe for any overlap, and `memcpy` does the same when the ranges
are disjoint or the destination does not start behind the source.
-/
theorem memmove_overlapSafe
    (destRange : dest + num ≤ 2 ^ 32)
    (srcRange : src + num ≤ 2 ^ 32) :
    (∀ i < num, memmoveFlat mem dest src num (dest + i) = mem (src + i)) ∧
    (∀ address, ¬ InRange dest num address →
      memmoveFlat mem dest src num address = mem address) ∧
    ((∀ address, InRange dest num address → ¬ InRange src num address) ∨
        dest ≤ src →
      memcpyFlat mem dest src num = memmoveFlat mem dest src num) := by
  rw [memmoveFlat_eq destRange srcRange]
  refine ⟨fun i bound => ?_, fun address => transfer_of_not_inRange,
    fun apart => memcpyFlat_eq destRange srcRange ?_⟩
  · rw [transfer_of_inRange ⟨by omega, by omega⟩, Nat.add_sub_cancel_left]
  · rcases apart with disjoint | ordered
    · by_contra overlap
      exact disjoint dest ⟨by omega, by omega⟩ ⟨by omega, by omega⟩
    · exact Or.inr ordered

end Moves

/-- Four bytes moved up by one, and down again. -/
theorem memmove_overlapSafe_four :
    (∀ i < 4, memmoveFlat (fun address => UInt8.ofNat address) 101 100 4
      (101 + i) = UInt8.ofNat (100 + i)) ∧
    ∀ i < 4, memmoveFlat (fun address => UInt8.ofNat address) 100 101 4
      (100 + i) = UInt8.ofNat (101 + i) :=
  ⟨(memmove_overlapSafe (by decide) (by decide)).1,
    (memmove_overlapSafe (by decide) (by decide)).1⟩

/-! ## Comparisons -/

/-- A string that lies in memory and does not reach its last byte. -/
structure CString (mem : Memory) (str : Nat) (text : List UInt8) : Prop where
  holds : StringAt mem str text
  inRange : str + text.length < 2 ^ 32

/-- The first two bytes that differ; a string has a zero at its end. -/
def firstDifference : (str1 str2 : List UInt8) → Option (UInt8 × UInt8)
  | [], [] => none
  | [], second :: _ => some (0, second)
  | first :: _, [] => some (first, 0)
  | first :: str1, second :: str2 =>
      if first = second then firstDifference str1 str2 else some (first, second)

section Comparisons

variable {mem : Memory} {first second : Nat} {str1 str2 : List UInt8}

theorem CString.head
    {c : UInt8}
    (string : CString mem first (c :: str1)) :
    mem first = c ∧ c ≠ 0 ∧ wrap32 (first + 1) = first + 1 ∧
      CString mem (first + 1) str1 := by
  obtain ⟨byte, nonzero, tail⟩ := string.holds.tail
  have inRange := string.inRange
  rw [List.length_cons] at inRange
  exact ⟨byte, nonzero, wrap32_of_lt (by omega), tail, by omega⟩

theorem CString.ends (string : CString mem first []) : mem first = 0 :=
  string.holds.ends

/-- On strings in memory, `strcmp` returns what it does on their characters. -/
theorem strcmpFlat_returns
    (string1 : CString mem first str1)
    (string2 : CString mem second str2) :
    Returns (fun fuel => strcmpFlat mem fuel first second)
      (strcmp str1 str2) := by
  induction str1 generalizing str2 first second with
  | nil =>
      have stops : ∀ fuel, strcmpFlat mem (fuel + 1) first second =
          some (0 - (mem second).toNat : Int) := by
        intro fuel
        simp [strcmpFlat, string1.ends]
      refine returns_succ_iff.mp ?_
      simp only [stops]
      cases str2 with
      | nil =>
          rw [string2.ends]
          exact returns_some _
      | cons c rest =>
          rw [string2.head.1, Int.zero_sub]
          exact returns_some _
  | cons c rest inductionHypothesis =>
      obtain ⟨byte, nonzero, advanced, tail⟩ := string1.head
      refine returns_succ_iff.mp ?_
      cases str2 with
      | nil =>
          have stops : ∀ fuel, strcmpFlat mem (fuel + 1) first second =
              some (c.toNat : Int) := by
            intro fuel
            simp [strcmpFlat, string2.ends, byte, nonzero]
          simp only [stops]
          exact returns_some _
      | cons d others =>
          obtain ⟨otherByte, _, otherAdvanced, otherTail⟩ := string2.head
          simp only [strcmpFlat, byte, otherByte, advanced, otherAdvanced,
            strcmp]
          by_cases same : c = d
          · simp only [if_pos same, if_pos (And.intro nonzero same)]
            exact inductionHypothesis tail otherTail
          · simp only [if_neg same, if_neg fun both => same (And.right both)]
            exact returns_some _

theorem strncmpFlatFrom_eq
    {left i : Nat}
    (string1 : CString mem (first + i) str1)
    (string2 : CString mem (second + i) str2) :
    strncmpFlatFrom mem first second left i = strncmp str1 str2 left := by
  induction left generalizing i str1 str2 with
  | zero =>
      rw [strncmpFlatFrom, strncmp]
  | succ left inductionHypothesis =>
      have inRange := string1.inRange
      have otherInRange := string2.inRange
      simp only [strncmpFlatFrom]
      rw [wrap32_of_lt (by omega), wrap32_of_lt (by omega)]
      cases str1 with
      | nil =>
          rw [string1.ends]
          cases str2 with
          | nil =>
              rw [string2.ends]
              rfl
          | cons d others =>
              obtain ⟨otherByte, otherNonzero, _⟩ := string2.head
              rw [otherByte, if_pos otherNonzero.symm, strncmp]
              exact Int.zero_sub _
      | cons c rest =>
          obtain ⟨byte, nonzero, _, tail⟩ := string1.head
          rw [byte]
          cases str2 with
          | nil =>
              rw [string2.ends, if_pos nonzero, strncmp]
              exact Int.sub_zero _
          | cons d others =>
              obtain ⟨otherByte, _, _, otherTail⟩ := string2.head
              rw [otherByte, strncmp]
              by_cases same : c = d
              · rw [if_neg (not_not.mpr same), if_neg nonzero, if_pos same]
                exact inductionHypothesis tail otherTail
              · rw [if_pos same, if_neg same]

theorem strncmpFlat_eq
    (string1 : CString mem first str1)
    (string2 : CString mem second str2)
    (num : Nat) :
    strncmpFlat mem first second num = strncmp str1 str2 num :=
  strncmpFlatFrom_eq string1 string2

/-! ### Orders -/

theorem strcmp_eq_firstDifference (str1 str2 : List UInt8) :
    strcmp str1 str2 =
      (firstDifference str1 str2).elim 0 fun (a, b) =>
        (a.toNat : Int) - b.toNat := by
  fun_induction firstDifference str1 str2 with
  | case1 =>
      rfl
  | case2 second rest =>
      exact (Int.zero_sub _).symm
  | case3 first rest =>
      exact (Int.sub_zero _).symm
  | case4 second str1 str2 inductionHypothesis =>
      rw [strcmp, if_pos rfl]
      exact inductionHypothesis
  | case5 first str1 second str2 different =>
      rw [strcmp, if_neg different]
      rfl

/-- With all characters compared, a zero at an end is one of them. -/
theorem strncmp_eq_firstDifference
    {num : Nat}
    (long1 : str1.length < num)
    (long2 : str2.length < num) :
    strncmp str1 str2 num =
      (firstDifference str1 str2).elim 0 fun (a, b) =>
        charValue a - charValue b := by
  obtain ⟨left, rfl⟩ : ∃ left, num = left + 1 := ⟨num - 1, by omega⟩
  fun_induction firstDifference str1 str2 generalizing left with
  | case1 =>
      rfl
  | case2 second rest =>
      exact (Int.zero_sub _).symm
  | case3 first rest =>
      exact (Int.sub_zero _).symm
  | case4 second str1 str2 inductionHypothesis =>
      rw [List.length_cons] at long1 long2
      obtain ⟨less, rfl⟩ : ∃ less, left = less + 1 := ⟨left - 1, by omega⟩
      rw [strncmp, if_pos rfl]
      exact inductionHypothesis less (by omega) (by omega)
  | case5 first str1 second str2 different =>
      rw [strncmp, if_neg different]
      rfl

/-- The first difference is one of bytes that differ. -/
theorem firstDifference_ne
    {a b : UInt8}
    (ends1 : 0 ∉ str1)
    (ends2 : 0 ∉ str2)
    (differ : firstDifference str1 str2 = some (a, b)) :
    a ≠ b := by
  fun_induction firstDifference str1 str2 with
  | case1 =>
      exact absurd differ (by simp)
  | case2 second rest =>
      cases differ
      exact fun same => ends2 (same ▸ List.mem_cons_self ..)
  | case3 first rest =>
      cases differ
      exact fun same => ends1 (same ▸ List.mem_cons_self ..)
  | case4 second str1 str2 inductionHypothesis =>
      rw [List.mem_cons, not_or] at ends1 ends2
      exact inductionHypothesis ends1.2 ends2.2 differ
  | case5 first str1 second str2 different =>
      cases differ
      exact different

/-- Two bytes are ordered alike as signed and as unsigned characters. -/
theorem sign_eq_iff
    {a b : UInt8}
    (different : a ≠ b) :
    (charValue a - charValue b).sign = ((a.toNat : Int) - b.toNat).sign ↔
      (a < 128 ↔ b < 128) := by
  have apart : a.toNat ≠ b.toNat := fun same =>
    different (UInt8.toNat_inj.mp same)
  have range := a.toNat_lt
  have otherRange := b.toNat_lt
  have half : (128 : UInt8).toNat = 128 := rfl
  simp only [charValue, UInt8.lt_iff_toNat_lt, half]
  rcases Nat.lt_or_gt_of_ne apart with less | greater
  · rw [Int.sign_eq_neg_one_of_neg (show (a.toNat : Int) - b.toNat < 0 by omega),
      Int.sign_eq_neg_one_iff_neg]
    split <;> split <;> omega
  · rw [Int.sign_eq_one_of_pos (show (0 : Int) < a.toNat - b.toNat by omega),
      Int.sign_eq_one_iff_pos]
    split <;> split <;> omega

/-- `strncmp` returns zero when the characters it compares are the same. -/
theorem strncmp_eq_zero_iff
    (ends1 : 0 ∉ str1)
    (ends2 : 0 ∉ str2)
    (num : Nat) :
    strncmp str1 str2 num = 0 ↔ str1.take num = str2.take num := by
  have charValue_ne : ∀ c : UInt8, c ≠ 0 → charValue c ≠ 0 :=
    fun c nonzero isZero => nonzero (charValue_inj isZero)
  fun_induction strncmp str1 str2 num with
  | case1 =>
      simp
  | case2 =>
      simp
  | case3 second rest num =>
      have nonzero : second ≠ 0 := fun same => ends2 (by simp [same])
      simpa using charValue_ne second nonzero
  | case4 first rest num =>
      have nonzero : first ≠ 0 := fun same => ends1 (by simp [same])
      simpa using charValue_ne first nonzero
  | case5 str1 second str2 num inductionHypothesis =>
      rw [List.mem_cons, not_or] at ends1 ends2
      rw [List.take_succ_cons, List.take_succ_cons, List.cons_inj_right]
      exact inductionHypothesis ends1.2 ends2.2
  | case6 first str1 second str2 num different =>
      have apart : charValue first - charValue second ≠ 0 := fun isZero =>
        different (charValue_inj (Int.sub_eq_zero.mp isZero))
      simp [apart, different]

end Comparisons

/-! ### Agreement -/

/--
The comparisons of two strings agree: `strncmp` of more characters than either
has returns a value of the sign that `strcmp` returns, and `strncmp` of any
number of characters returns zero when `strcmp` does for the strings cut to
that many characters, wherever these lie.
-/
structure ComparisonsAgree (mem : Memory) (first second : Nat)
    (str1 str2 : List UInt8) : Prop where
  sameSign : ∀ num, str1.length < num → str2.length < num →
    ∃ order, Returns (fun fuel => strcmpFlat mem fuel first second) order ∧
      (strncmpFlat mem first second num).sign = order.sign
  sameZero : ∀ (num : Nat) (other : Memory) (short1 short2 : Nat),
    CString other short1 (str1.take num) → CString other short2 (str2.take num) →
      (strncmpFlat mem first second num = 0 ↔
        Returns (fun fuel => strcmpFlat other fuel short1 short2) 0)

/--
The comparisons of two strings agree when the first bytes that differ, if any,
are both below 128 or both not.
-/
theorem comparisonsAgree_iff
    {mem : Memory} {first second : Nat} {str1 str2 : List UInt8}
    (string1 : CString mem first str1)
    (string2 : CString mem second str2) :
    ComparisonsAgree mem first second str1 str2 ↔
      ∀ a b, firstDifference str1 str2 = some (a, b) → (a < 128 ↔ b < 128) := by
  have ends1 := string1.holds.noNul
  have ends2 := string2.holds.noNul
  have returns := strcmpFlat_returns string1 string2
  constructor
  · intro agree a b differ
    obtain ⟨order, alsoReturns, sameSign⟩ :=
      agree.sameSign (str1.length + str2.length + 1) (by omega) (by omega)
    rw [← returns.unique alsoReturns, strncmpFlat_eq string1 string2,
      strncmp_eq_firstDifference (by omega) (by omega),
      strcmp_eq_firstDifference, differ] at sameSign
    exact (sign_eq_iff (firstDifference_ne ends1 ends2 differ)).mp sameSign
  · intro sameHalf
    refine ⟨fun num long1 long2 => ⟨_, returns, ?_⟩,
      fun num other short1 short2 cut1 cut2 => ?_⟩
    · rw [strncmpFlat_eq string1 string2, strncmp_eq_firstDifference long1 long2,
        strcmp_eq_firstDifference]
      cases differ : firstDifference str1 str2 with
      | none =>
          rfl
      | some bytes =>
          obtain ⟨a, b⟩ := bytes
          exact (sign_eq_iff (firstDifference_ne ends1 ends2 differ)).mpr
            (sameHalf a b differ)
    · have cutReturns := strcmpFlat_returns cut1 cut2
      rw [strncmpFlat_eq string1 string2, strncmp_eq_zero_iff ends1 ends2,
        ← strcmp_eq_zero_iff cut1.holds.noNul cut2.holds.noNul]
      constructor
      · intro isZero
        rwa [isZero] at cutReturns
      · exact fun returnsZero => cutReturns.unique returnsZero

/-- Memory with a string at 16 and one at 32. -/
def twoStrings (str1 str2 : List UInt8) : Memory :=
  ByteStrings.place (ByteStrings.place (fun _ => 0) 16 (str1 ++ [0])) 32
    (str2 ++ [0])

theorem twoStrings_cString
    {str1 str2 : List UInt8}
    (ends1 : 0 ∉ str1)
    (ends2 : 0 ∉ str2)
    (short1 : str1.length < 16)
    (short2 : str2.length < 16) :
    CString (twoStrings str1 str2) 16 str1 ∧
      CString (twoStrings str1 str2) 32 str2 := by
  have written := stringAt_place ends1 (fun _ => 0) 16
  refine ⟨⟨⟨ends1, fun offset inside => ?_, ?_⟩, by omega⟩,
    stringAt_place ends2 _ 32, by omega⟩
  · rw [twoStrings, ByteStrings.place_of_outside (by omega)]
    exact written.bytes offset inside
  · rw [twoStrings, ByteStrings.place_of_outside (by omega)]
    exact written.ends

/-- "ab" and "a". -/
theorem comparisonsAgree_ascii :
    ComparisonsAgree (twoStrings [0x61, 0x62] [0x61]) 16 32 [0x61, 0x62] [0x61] := by
  have strings := twoStrings_cString (show 0 ∉ [0x61, 0x62] by decide)
    (show 0 ∉ [0x61] by decide) (by decide) (by decide)
  refine (comparisonsAgree_iff strings.1 strings.2).mpr fun a b differ => ?_
  cases differ
  decide

/-- The character 0x80 comes behind "a" for `strcmp`, before it for `strncmp`. -/
theorem not_comparisonsAgree :
    strcmpFlat (twoStrings [0x80] [0x61]) 1 16 32 = some 31 ∧
      strncmpFlat (twoStrings [0x80] [0x61]) 16 32 2 = -225 ∧
      ¬ ComparisonsAgree (twoStrings [0x80] [0x61]) 16 32 [0x80] [0x61] := by
  have compared : strcmpFlat (twoStrings [0x80] [0x61]) 1 16 32 = some 31 := by
    decide
  have bounded : strncmpFlat (twoStrings [0x80] [0x61]) 16 32 2 = -225 := by
    decide
  refine ⟨compared, bounded, fun agree => ?_⟩
  obtain ⟨order, returns, sameSign⟩ := agree.sameSign 2 (by decide) (by decide)
  have strings := twoStrings_cString (show 0 ∉ [0x80] by decide)
    (show 0 ∉ [0x61] by decide) (by decide) (by decide)
  rw [returns.unique (strcmpFlat_returns strings.1 strings.2), bounded]
    at sameSign
  exact absurd sameSign (by decide)

end MatrixOS
