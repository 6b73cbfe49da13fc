import MatrixOS.ByteMemory
import MatrixOS.Word

namespace MatrixOS

open ByteMemory

/-!
# `lib/string.c`

The byte loops are written once, over any way of reading and writing memory:
the kernel heap runs them on flat memory, the memory manager through the page
tables.
-/

/-- How the running code reads and writes a byte at a pointer. -/
structure ByteAccess (m : Type → Type) where
  load8 : Nat → m UInt8
  store8 : Nat → UInt8 → m Unit

section Loops

variable {m : Type → Type} [Monad m]

/-- `memset`, by the number of bytes written so far. -/
def memset (access : ByteAccess m) (ptr value : Nat) : (num : Nat) → m Unit
  | 0 => pure ()
  | i + 1 => do
      memset access ptr value i
      access.store8 (wrap32 (ptr + i)) (UInt8.ofNat value)

/-- `memcpy`, by the number of bytes copied so far. -/
def memcpy (access : ByteAccess m) (dest src : Nat) : (num : Nat) → m Unit
  | 0 => pure ()
  | i + 1 => do
      memcpy access dest src i
      let byte ← access.load8 (wrap32 (src + i))
      access.store8 (wrap32 (dest + i)) byte

/-- The loop of `memmove` that copies the last byte first. -/
def memmoveDown (access : ByteAccess m) (dest src : Nat) : (i : Nat) → m Unit
  | 0 => pure ()
  | i + 1 => do
      let byte ← access.load8 (wrap32 (src + i))
      access.store8 (wrap32 (dest + i)) byte
      memmoveDown access dest src i

/-- `memmove`; its loop upwards is the loop of `memcpy`. -/
def memmove (access : ByteAccess m) (dest src num : Nat) : m Unit :=
  if dest < src then memcpy access dest src num
  else memmoveDown access dest src num

end Loops

/-! ## Strings

A string is its bytes before the terminator. -/

/-- A string constant. -/
def cstr (text : String) : List UInt8 :=
  text.toList.map fun c => UInt8.ofNat c.toNat

/-- The value of a `char`, which is signed. -/
def charValue (c : UInt8) : Int :=
  if c < 128 then c.toNat else c.toNat - 256

def strcmp : List UInt8 → List UInt8 → Int
  | [], [] => 0
  | [], second :: _ => -(second.toNat : Int)
  | first :: _, [] => first.toNat
  | first :: str1, second :: str2 =>
      if first = second then
        strcmp str1 str2
      else
        (first.toNat : Int) - second.toNat

def strncmp : List UInt8 → List UInt8 → (num : Nat) → Int
  | _, _, 0 => 0
  | [], [], _ + 1 => 0
  | [], second :: _, _ + 1 => -charValue second
  | first :: _, [], _ + 1 => charValue first
  | first :: str1, second :: str2, num + 1 =>
      if first = second then
        strncmp str1 str2 num
      else
        charValue first - charValue second

/-- The string that `strncpy` leaves in a buffer with a terminator behind. -/
def strncpy (src : List UInt8) (num : Nat) : List UInt8 :=
  src.take num

theorem charValue_inj
    {first second : UInt8}
    (same : charValue first = charValue second) :
    first = second := by
  have firstRange := first.toNat_lt
  have secondRange := second.toNat_lt
  simp only [charValue, UInt8.lt_iff_toNat_lt] at same
  apply UInt8.toNat_inj.mp
  split at same <;> split at same <;> simp_all <;> omega

/-- Strings that compare as equal are the same. -/
theorem strcmp_eq_zero_iff
    {str1 str2 : List UInt8}
    (firstEnds : 0 ∉ str1)
    (secondEnds : 0 ∉ str2) :
    strcmp str1 str2 = 0 ↔ str1 = str2 := by
  induction str1 generalizing str2 with
  | nil =>
      cases str2 with
      | nil =>
          exact iff_of_true rfl rfl
      | cons second rest =>
          have nonzero : 0 ≠ second := fun same => secondEnds (by simp [same])
          have positive : second.toNat ≠ 0 := fun isZero =>
            nonzero (UInt8.toNat_inj.mp isZero).symm
          refine iff_of_false ?_ (List.cons_ne_nil second rest).symm
          simp only [strcmp]
          omega
  | cons first others inductionHypothesis =>
      have nonzero : 0 ≠ first := fun same => firstEnds (by simp [same])
      have positive : first.toNat ≠ 0 := fun isZero =>
        nonzero (UInt8.toNat_inj.mp isZero).symm
      cases str2 with
      | nil =>
          refine iff_of_false ?_ (List.cons_ne_nil first others)
          simp only [strcmp]
          omega
      | cons second rest =>
          simp only [List.mem_cons, not_or] at firstEnds secondEnds
          rw [strcmp]
          split
          · rename_i same
            rw [inductionHypothesis firstEnds.2 secondEnds.2, same,
              List.cons_inj_right]
          · rename_i different
            have apart : first.toNat ≠ second.toNat := fun same =>
              different (UInt8.toNat_inj.mp same)
            refine iff_of_false (by omega) fun same => ?_
            exact different (List.cons.inj same).1

/-- Comparing as many characters as a string has finds its prefixes. -/
theorem strncmp_length_eq_zero_iff
    {str1 str2 : List UInt8}
    (noTerminator : 0 ∉ str2) :
    strncmp str1 str2 str2.length = 0 ↔ str2 <+: str1 := by
  induction str2 generalizing str1 with
  | nil =>
      simp [strncmp]
  | cons second rest inductionHypothesis =>
      have nonzero : 0 ≠ second := fun same => noTerminator (by simp [same])
      have restNonzero : 0 ∉ rest := fun member =>
        noTerminator (List.mem_cons_of_mem _ member)
      cases str1 with
      | nil =>
          have different : charValue second ≠ 0 := fun isZero =>
            nonzero (charValue_inj (isZero.trans rfl)).symm
          simpa [strncmp] using different
      | cons first others =>
          by_cases same : first = second
          · subst same
            simpa [strncmp] using inductionHypothesis restNonzero
          · have different : charValue first - charValue second ≠ 0 :=
              fun isZero => same (charValue_inj (Int.sub_eq_zero.mp isZero))
            simp [strncmp, same, Ne.symm same, different, List.cons_prefix_cons]

/-! ## Flat memory -/

/-- Pointers are addresses. -/
def flatAccess : ByteAccess (StateM Memory) where
  load8 ptr := fun mem => (mem ptr, mem)
  store8 ptr byte := fun mem => ((), Function.update mem ptr byte)

/-- The memory after `memset` on flat memory. -/
def memsetFlat (mem : Memory) (ptr value num : Nat) : Memory :=
  (memset flatAccess ptr value num mem).2

/-- The memory after `memcpy` on flat memory. -/
def memcpyFlat (mem : Memory) (dest src num : Nat) : Memory :=
  (memcpy flatAccess dest src num mem).2

/-- The memory after `memmove` on flat memory. -/
def memmoveFlat (mem : Memory) (dest src num : Nat) : Memory :=
  (memmove flatAccess dest src num mem).2

/-- `strcmp` on flat memory. -/
def strcmpFlat (mem : Memory) : (fuel str1 str2 : Nat) → Option Int
  | 0, _, _ => none
  | fuel + 1, str1, str2 =>
      if mem str1 ≠ 0 ∧ mem str1 = mem str2 then
        strcmpFlat mem fuel (wrap32 (str1 + 1)) (wrap32 (str2 + 1))
      else
        some ((mem str1).toNat - (mem str2).toNat : Int)

/-- The loop of `strncmp` on flat memory, by the number of rounds left. -/
def strncmpFlatFrom (mem : Memory) (str1 str2 : Nat) : (left i : Nat) → Int
  | 0, _ => 0
  | left + 1, i =>
      let first := mem (wrap32 (str1 + i))
      let second := mem (wrap32 (str2 + i))
      if first ≠ second then charValue first - charValue second
      else if first = 0 then 0
      else strncmpFlatFrom mem str1 str2 left (i + 1)

/-- `strncmp` on flat memory. -/
def strncmpFlat (mem : Memory) (str1 str2 num : Nat) : Int :=
  strncmpFlatFrom mem str1 str2 num 0

theorem memsetFlat_eq
    {mem : Memory}
    {ptr value num : Nat}
    (inRange : ptr + num ≤ 2 ^ 32) :
    memsetFlat mem ptr value num = fill mem ptr num (UInt8.ofNat value) := by
  induction num with
  | zero =>
      exact fill_zero.symm
  | succ i inductionHypothesis =>
      have step :
          memsetFlat mem ptr value (i + 1) =
            Function.update (memsetFlat mem ptr value i) (wrap32 (ptr + i))
              (UInt8.ofNat value) :=
        rfl
      rw [step, inductionHypothesis (by omega), wrap32_of_lt (by omega),
        fill_succ]

/-- Copying upwards keeps the source when it does not start below `dest`. -/
theorem memcpyFlat_eq
    {mem : Memory}
    {dest src num : Nat}
    (destRange : dest + num ≤ 2 ^ 32)
    (srcRange : src + num ≤ 2 ^ 32)
    (apart : src + num ≤ dest ∨ dest ≤ src) :
    memcpyFlat mem dest src num = transfer mem dest src num := by
  induction num with
  | zero =>
      exact transfer_zero.symm
  | succ i inductionHypothesis =>
      have step :
          memcpyFlat mem dest src (i + 1) =
            Function.update (memcpyFlat mem dest src i) (wrap32 (dest + i))
              (memcpyFlat mem dest src i (wrap32 (src + i))) :=
        rfl
      have kept : ¬ InRange dest i (src + i) := by
        simp only [InRange]
        omega
      rw [step, inductionHypothesis (by omega) (by omega) (by omega),
        wrap32_of_lt (by omega), wrap32_of_lt (by omega), transfer_succ kept]

theorem memsetFlat_outside
    {mem : Memory}
    {ptr value num target : Nat}
    (outside : ∀ i < num, target ≠ wrap32 (ptr + i)) :
    memsetFlat mem ptr value num target = mem target := by
  induction num with
  | zero =>
      rfl
  | succ num inductionHypothesis =>
      have step :
          memsetFlat mem ptr value (num + 1) =
            Function.update (memsetFlat mem ptr value num) (wrap32 (ptr + num))
              (UInt8.ofNat value) :=
        rfl
      rw [step, Function.update_of_ne (outside num (by omega))]
      exact inductionHypothesis fun i bound => outside i (by omega)

/-! ### Copies onto themselves -/

section Overlap

variable {mem : Memory} {dest src num : Nat}

theorem memcpyFlat_succ :
    memcpyFlat mem dest src (num + 1) =
      Function.update (memcpyFlat mem dest src num) (wrap32 (dest + num))
        (memcpyFlat mem dest src num (wrap32 (src + num))) :=
  rfl

/-- Nothing is written outside the destination. -/
theorem memcpyFlat_outside
    {target : Nat}
    (outside : ∀ i < num, target ≠ wrap32 (dest + i)) :
    memcpyFlat mem dest src num target = mem target := by
  induction num with
  | zero =>
      rfl
  | succ num inductionHypothesis =>
      rw [memcpyFlat_succ, Function.update_of_ne (outside num (by omega))]
      exact inductionHypothesis fun i bound => outside i (by omega)

/-- A byte of the destination is written once. -/
theorem memcpyFlat_written
    {i : Nat}
    (bound : i < num)
    (size : num ≤ 2 ^ 32) :
    memcpyFlat mem dest src num (wrap32 (dest + i)) =
      memcpyFlat mem dest src i (wrap32 (src + i)) := by
  induction num with
  | zero =>
      omega
  | succ num inductionHypothesis =>
      rw [memcpyFlat_succ]
      by_cases last : i = num
      · rw [last, Function.update_self]
      · have different : wrap32 (dest + i) ≠ wrap32 (dest + num) := by
          simp only [wrap32]
          omega
        rw [Function.update_of_ne different]
        exact inductionHypothesis (by omega) (by omega)

/-- What is copied is a byte of the source or one that the copy has written. -/
theorem memcpyFlat_copied
    {i : Nat}
    (bound : i < num)
    (size : num ≤ 2 ^ 32) :
    memcpyFlat mem dest src num (wrap32 (dest + i)) =
      if 0 < sub32 dest src ∧ sub32 dest src ≤ i then
        memcpyFlat mem dest src num (wrap32 (dest + (i - sub32 dest src)))
      else
        mem (wrap32 (src + i)) := by
  rw [memcpyFlat_written bound size]
  split
  · rename_i behind
    have same : wrap32 (src + i) =
        wrap32 (dest + (i - sub32 dest src)) := by
      simp only [sub32, wrap32] at behind ⊢
      omega
    rw [same, memcpyFlat_written (by omega) (by omega),
      memcpyFlat_written (by omega) size]
  · rename_i ahead
    apply memcpyFlat_outside
    intro j before
    simp only [sub32, wrap32] at ahead ⊢
    omega

/--
A copy is right unless it overwrites bytes of the source, other than by what
they are, before they are copied.
-/
theorem memcpyFlat_copied_iff
    (size : num ≤ 2 ^ 32) :
    (∀ i < num, memcpyFlat mem dest src num (wrap32 (dest + i)) =
        mem (wrap32 (src + i))) ↔
      ∀ i, sub32 dest src + i < num →
        mem (wrap32 (dest + i)) = mem (wrap32 (src + i)) := by
  have shift : ∀ i, wrap32 (src + (sub32 dest src + i)) =
      wrap32 (dest + i) := by
    intro i
    simp only [sub32, wrap32]
    omega
  constructor
  · intro copied i bound
    rw [← shift i, ← copied _ bound, memcpyFlat_copied bound size]
    split
    · rw [Nat.add_sub_cancel_left]
      exact copied i (by omega)
    · have none : sub32 dest src = 0 := by omega
      rw [none, Nat.zero_add]
  · intro same i
    induction i using Nat.strong_induction_on with
    | _ i inductionHypothesis =>
      intro bound
      rw [memcpyFlat_copied bound size]
      split
      · rename_i behind
        have earlier := inductionHypothesis (i - sub32 dest src) (by omega)
          (by omega)
        rw [earlier, ← same _ (by omega), ← shift, Nat.add_sub_cancel' behind.2]
      · rfl

end Overlap

end MatrixOS
