import MatrixOS.VfsRuns

namespace MatrixOS

open ByteMemory

/-!
# Reading a file of ramfs

`ramfs_read` adds the position and the count as words.  It is right when the
sum is one, when the result is an `int`, and when the buffer does not take the
place of bytes that are still to be copied.
-/

/-- The number of bytes there are to read. -/
def readLength (pos size count : Nat) : Nat :=
  min count (size - pos)

/-- What `ramfs_read` takes for it. -/
def toRead (pos size count : Nat) : Nat :=
  if size < wrap32 (pos + count) then size - pos else count

namespace VfsState

variable (state : VfsState) (handle index count : Nat)

/-- The number of bytes that a read of a file has to copy. -/
def readLength : Nat :=
  MatrixOS.readLength (state.ramfsHandles handle).pos
    (state.fileAt index).size count

/-- Where these bytes begin. -/
def readSource : Nat :=
  (state.fileAt index).data + (state.ramfsHandles handle).pos

end VfsState

/-- What a read of a file does. -/
structure ReadsFile
    (state : VfsState) (handle index buf count : Nat) : Prop where
  returns : (ramfsRead handle buf count state).1 =
    state.readLength handle index count
  others : (ramfsRead handle buf count state).2 =
    (state.withMem (ramfsRead handle buf count state).2.mem).withRamfsHandle
      handle ⟨some index, (state.ramfsHandles handle).pos +
        state.readLength handle index count⟩
  copied : ∀ i < state.readLength handle index count,
    (ramfsRead handle buf count state).2.mem (wrap32 (buf + i)) =
      state.mem (wrap32 (state.readSource handle index + i))
  outside : ∀ target,
    (∀ i < state.readLength handle index count,
      target ≠ wrap32 (buf + i)) →
    (ramfsRead handle buf count state).2.mem target = state.mem target
  onlyFile : ∀ mem,
    (∀ i < (state.fileAt index).size,
      mem (wrap32 ((state.fileAt index).data + i)) =
        state.mem (wrap32 ((state.fileAt index).data + i))) →
    (ramfsRead handle buf count (state.withMem mem)).1 =
        (ramfsRead handle buf count state).1 ∧
      ∀ i < state.readLength handle index count,
        (ramfsRead handle buf count (state.withMem mem)).2.mem
            (wrap32 (buf + i)) =
          (ramfsRead handle buf count state).2.mem (wrap32 (buf + i))

/-- The sum and the result are in range. -/
def CountFits (pos size count : Nat) : Prop :=
  size ≤ pos ∨ pos + count < 2 ^ 32 ∧ readLength pos size count < 2 ^ 31

/-- The buffer does not change bytes before they are copied. -/
def BufferFits (mem : Memory) (src buf length : Nat) : Prop :=
  ∀ i, sub32 buf src + i < length →
    mem (wrap32 (buf + i)) = mem (wrap32 (src + i))

/-- The handle is open, and the numbers are words. -/
structure OpenRamfs (state : VfsState) (handle index : Nat) : Prop where
  inTable : handle < maxOpenFiles
  file : (state.ramfsHandles handle).file = some index
  pos : (state.ramfsHandles handle).pos < 2 ^ 32
  size : (state.fileAt index).size < 2 ^ 32

section Read

variable {state : VfsState} {handle index buf count : Nat}

theorem OpenRamfs.ramfsFileOf
    (isOpen : OpenRamfs state handle index) :
    ramfsFileOf handle state = some index := by
  have inside : ¬ ((handle : Int) < 0 ∨ (maxOpenFiles : Int) ≤ handle) := by
    have := isOpen.inTable
    omega
  rw [MatrixOS.ramfsFileOf, if_neg inside]
  exact isOpen.file

theorem OpenRamfs.withMem
    (isOpen : OpenRamfs state handle index)
    (mem : Memory) :
    OpenRamfs (state.withMem mem) handle index :=
  ⟨isOpen.inTable, isOpen.file, isOpen.pos, isOpen.size⟩

/-- At the end of the file nothing happens. -/
theorem OpenRamfs.ramfsRead_end
    (isOpen : OpenRamfs state handle index)
    (atEnd : (state.fileAt index).size ≤ (state.ramfsHandles handle).pos) :
    ramfsRead handle buf count state = (0, state) := by
  simp only [ramfsRead, isOpen.ramfsFileOf, Int.toNat_natCast, if_pos atEnd]

theorem OpenRamfs.ramfsRead_inside
    (isOpen : OpenRamfs state handle index)
    (inside : (state.ramfsHandles handle).pos < (state.fileAt index).size)
    {length : Nat}
    (isLength : toRead (state.ramfsHandles handle).pos
      (state.fileAt index).size count = length) :
    ramfsRead handle buf count state =
      (toInt length,
        (state.withMem (memcpyFlat state.mem buf
          (wrap32 (state.readSource handle index)) length)).withRamfsHandle
            handle
            ⟨some index, wrap32 ((state.ramfsHandles handle).pos + length)⟩) := by
  subst isLength
  simp only [ramfsRead, isOpen.ramfsFileOf, Int.toNat_natCast, isOpen.file,
    if_neg (Nat.not_le.mpr inside)]
  rfl

theorem toRead_of_lt
    {pos size : Nat}
    (inside : pos < size)
    (fits : pos + count < 2 ^ 32) :
    toRead pos size count = readLength pos size count := by
  rw [toRead, readLength, wrap32_of_lt fits]
  split <;> omega

theorem toRead_le (pos size count : Nat) : toRead pos size count ≤ count :=
  copyLength_le pos size count

/-- The wrapped sum is below the position. -/
theorem toRead_of_wrap
    {pos size : Nat}
    (inside : pos < size)
    (size_lt : size < 2 ^ 32)
    (count_lt : count < 2 ^ 32)
    (wraps : 2 ^ 32 ≤ pos + count) :
    toRead pos size count = count ∧ readLength pos size count < count := by
  have small : ¬ size < wrap32 (pos + count) := by
    rw [wrap32]
    omega
  rw [toRead, if_neg small, readLength]
  omega

theorem toInt_eq_natCast_iff
    {value length : Nat}
    (inRange : value < 2 ^ 32) :
    toInt value = length ↔ value = length ∧ value < 2 ^ 31 := by
  rw [toInt, wrap32_of_lt inRange]
  split <;> omega

/-- `ramfs_read` returns the number of bytes there are to read. -/
theorem OpenRamfs.returns_iff
    (isOpen : OpenRamfs state handle index)
    (count_lt : count < 2 ^ 32) :
    (ramfsRead handle buf count state).1 =
        state.readLength handle index count ↔
      CountFits (state.ramfsHandles handle).pos (state.fileAt index).size
        count := by
  rw [VfsState.readLength]
  by_cases atEnd : (state.fileAt index).size ≤ (state.ramfsHandles handle).pos
  · rw [isOpen.ramfsRead_end atEnd, readLength, Nat.sub_eq_zero_of_le atEnd,
      Nat.min_zero]
    exact iff_of_true rfl (Or.inl atEnd)
  · have inside := Nat.lt_of_not_le atEnd
    rw [CountFits, or_iff_right atEnd]
    by_cases fits : (state.ramfsHandles handle).pos + count < 2 ^ 32
    · rw [isOpen.ramfsRead_inside inside (toRead_of_lt inside fits),
        toInt_eq_natCast_iff, and_iff_right rfl, and_iff_right fits]
      exact Nat.lt_of_le_of_lt (Nat.min_le_left _ _) count_lt
    · obtain ⟨whole, more⟩ := toRead_of_wrap inside isOpen.size count_lt
        (Nat.le_of_not_lt fits)
      rw [isOpen.ramfsRead_inside inside whole, toInt_eq_natCast_iff count_lt]
      exact iff_of_false (fun same => more.ne' same.1) fun both => fits both.1

/-- Where a read begins to go on. -/
theorem OpenRamfs.ramfsRead_fits
    (isOpen : OpenRamfs state handle index)
    (buf : Nat)
    (fits : CountFits (state.ramfsHandles handle).pos
      (state.fileAt index).size count) :
    ramfsRead handle buf count state =
      ((state.readLength handle index count : Int),
        (state.withMem (memcpyFlat state.mem buf
          (wrap32 (state.readSource handle index))
          (state.readLength handle index count))).withRamfsHandle handle
            ⟨some index, (state.ramfsHandles handle).pos +
              state.readLength handle index count⟩) := by
  by_cases atEnd : (state.fileAt index).size ≤ (state.ramfsHandles handle).pos
  · have none : state.readLength handle index count = 0 := by
      rw [VfsState.readLength, readLength, Nat.sub_eq_zero_of_le atEnd,
        Nat.min_zero]
    have same : (⟨some index, (state.ramfsHandles handle).pos⟩ : RamfsPrivate) =
        state.ramfsHandles handle := by
      rw [← isOpen.file]
    rw [isOpen.ramfsRead_end atEnd, none, Nat.add_zero, same]
    simp only [VfsState.withRamfsHandle, VfsState.withMem,
      Function.update_eq_self]
    rfl
  · obtain ⟨sum, result⟩ := fits.resolve_left atEnd
    have inside := Nat.lt_of_not_le atEnd
    have bound : (state.ramfsHandles handle).pos +
        state.readLength handle index count < 2 ^ 32 := by
      have := Nat.min_le_left count
        ((state.fileAt index).size - (state.ramfsHandles handle).pos)
      rw [VfsState.readLength, readLength]
      omega
    rw [isOpen.ramfsRead_inside inside (toRead_of_lt inside sum),
      (toInt_eq_natCast_iff (Nat.lt_of_lt_of_le result (by decide))).mpr
        ⟨rfl, result⟩]
    change (_, _) = (_, (state.withMem _).withRamfsHandle handle ⟨some index, _⟩)
    rw [← VfsState.readLength, wrap32_of_lt bound]

/-- Memories that agree on the file agree on what is read. -/
theorem readLength_agree
    (handle count : Nat)
    {mem : Memory}
    (same : ∀ i < (state.fileAt index).size,
      mem (wrap32 ((state.fileAt index).data + i)) =
        state.mem (wrap32 ((state.fileAt index).data + i))) :
    ∀ i < state.readLength handle index count,
      mem (wrap32 (state.readSource handle index + i)) =
        state.mem (wrap32 (state.readSource handle index + i)) := by
  intro i bound
  have room := Nat.lt_of_lt_of_le bound (Nat.min_le_right _ _)
  rw [VfsState.readSource, Nat.add_assoc]
  exact same _ (by omega)

theorem BufferFits.of_agree
    {mem other : Memory}
    {src length : Nat}
    (fits : BufferFits mem src buf length)
    (same : ∀ i < length, other (wrap32 (src + i)) = mem (wrap32 (src + i))) :
    BufferFits other src buf length := by
  intro i bound
  have inSource : wrap32 (buf + i) = wrap32 (src + (sub32 buf src + i)) := by
    simp only [sub32, wrap32]
    omega
  rw [same i (by omega), ← fits i bound, inSource]
  exact same _ bound

/-- The bytes are those of the file when the buffer does not change them. -/
theorem OpenRamfs.copied_iff
    (isOpen : OpenRamfs state handle index)
    (count_lt : count < 2 ^ 32)
    (fits : CountFits (state.ramfsHandles handle).pos
      (state.fileAt index).size count) :
    (∀ i < state.readLength handle index count,
        (ramfsRead handle buf count state).2.mem (wrap32 (buf + i)) =
          state.mem (wrap32 (state.readSource handle index + i))) ↔
      BufferFits state.mem (state.readSource handle index) buf
        (state.readLength handle index count) := by
  have size : state.readLength handle index count ≤ 2 ^ 32 :=
    (Nat.min_le_left _ _).trans (Nat.le_of_lt count_lt)
  rw [isOpen.ramfsRead_fits buf fits]
  change (∀ i < _, memcpyFlat _ _ _ _ _ = _) ↔ _
  simp only [← wrap32_wrap32_add (state.readSource handle index)]
  rw [memcpyFlat_copied_iff size]
  simp only [BufferFits, sub32_wrap32, wrap32_wrap32_add]

/--
A read of a file is as it should be exactly when the sum of the position and
the count does not wrap around, the result fits, and the buffer does not change
bytes before they are copied.
-/
theorem readsFile_iff
    (isOpen : OpenRamfs state handle index)
    (count_lt : count < 2 ^ 32) :
    ReadsFile state handle index buf count ↔
      CountFits (state.ramfsHandles handle).pos (state.fileAt index).size
          count ∧
        BufferFits state.mem (state.readSource handle index) buf
          (state.readLength handle index count) := by
  constructor
  · intro reads
    have fits := (isOpen.returns_iff count_lt).mp reads.returns
    exact ⟨fits, (isOpen.copied_iff count_lt fits).mp reads.copied⟩
  · rintro ⟨fits, buffer⟩
    have read := isOpen.ramfsRead_fits buf fits
    have copied := (isOpen.copied_iff count_lt fits).mpr buffer
    refine ⟨(isOpen.returns_iff count_lt).mpr fits, ?_, copied, ?_, ?_⟩
    · rw [read]
      rfl
    · intro target outside
      rw [read]
      exact memcpyFlat_outside outside
    · intro mem same
      have bytes := readLength_agree handle count same
      have otherRead := (isOpen.withMem mem).ramfsRead_fits buf fits
      have otherCopied := ((isOpen.withMem mem).copied_iff count_lt fits).mpr
        (buffer.of_agree bytes)
      refine ⟨?_, fun i bound => ?_⟩
      · rw [read, otherRead]
        rfl
      · rw [copied i bound, ← bytes i bound]
        exact otherCopied i bound

end Read

/-- A file of 16 bytes, open at position 4. -/
def demoReader : VfsState :=
  (vfsSeek 3 4 0 (vfsOpen (some (cstr "a")) oRdonly
    (bootVfsInit [⟨cstr "a", 0x1000, 16⟩] 16 32 .cleared)).2).2

theorem demoReader_openRamfs : OpenRamfs demoReader 0 0 :=
  ⟨by decide, rfl, by decide, by decide⟩

/-- Eight bytes are read. -/
theorem readsFile_demoReader : ReadsFile demoReader 0 0 0x2000 8 := by
  refine (readsFile_iff demoReader_openRamfs (by decide)).mpr
    ⟨Or.inr ⟨by decide, by decide⟩, fun i _ => rfl⟩

/-- With a count of `2 ^ 32 - 1` the sum wraps around. -/
theorem not_readsFile_demoReader :
    ¬ ReadsFile demoReader 0 0 0x2000 0xFFFFFFFF := by
  intro reads
  have fits := (demoReader_openRamfs.returns_iff (by decide)).mp reads.returns
  rcases fits with atEnd | ⟨sum, _⟩
  · exact absurd atEnd (by decide)
  · exact absurd sum (by decide)

end MatrixOS
