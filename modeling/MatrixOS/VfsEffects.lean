import MatrixOS.Vfs

namespace MatrixOS

open ByteMemory

/-!
# What a file system writes

For each operation of a file system, the parts of the state that it can
change.  That a call leaves something alone follows from these statements,
without another look at the operation.
-/

/-! ## Buffers -/

/-- In the address space only the bytes of one buffer have been written. -/
def WritesBuffer (before after : Memory) (buf count : Nat) : Prop :=
  ∀ address < 2 ^ 32, (∀ i < count, address ≠ wrap32 (buf + i)) →
    after address = before address

namespace WritesBuffer

variable {before after last : Memory} {buf count : Nat}

theorem refl (mem : Memory) (buf count : Nat) :
    WritesBuffer mem mem buf count :=
  fun _ _ _ => rfl

theorem trans
    (first : WritesBuffer before after buf count)
    (second : WritesBuffer after last buf count) :
    WritesBuffer before last buf count :=
  fun address inSpace outside =>
    (second address inSpace outside).trans (first address inSpace outside)

/-- What is written in the front of a buffer is written in the buffer. -/
theorem widen
    {width : Nat}
    (writes : WritesBuffer before after buf width)
    (within : width ≤ count) :
    WritesBuffer before after buf count :=
  fun address inSpace outside =>
    writes address inSpace fun i below => outside i (below.trans_le within)

/-- What is written in a part of a buffer is written in the buffer. -/
theorem part
    {offset width : Nat}
    (writes : WritesBuffer before after (buf + offset) width)
    (within : offset + width ≤ count) :
    WritesBuffer before after buf count := by
  intro address inSpace outside
  refine writes address inSpace fun i below => ?_
  rw [Nat.add_assoc]
  exact outside (offset + i) (by omega)

theorem update (mem : Memory) (buf : Nat) (byte : UInt8) :
    WritesBuffer mem (Function.update mem (wrap32 buf) byte) buf 1 :=
  fun _ _ outside => Function.update_of_ne (outside 0 (by decide)) _ _

theorem memcpyFlat (mem : Memory) (buf source count : Nat) :
    WritesBuffer mem (MatrixOS.memcpyFlat mem buf source count) buf count :=
  fun _ _ outside => memcpyFlat_outside outside

theorem memsetFlat (mem : Memory) (buf value count : Nat) :
    WritesBuffer mem (MatrixOS.memsetFlat mem buf value count) buf count :=
  fun _ _ outside => memsetFlat_outside outside

theorem store (mem : Memory) (width address value : Nat) :
    WritesBuffer mem (ByteMemory.store mem width address value)
      address width := by
  intro target inSpace outside
  refine store_of_not_inRange fun ⟨lower, upper⟩ => ?_
  refine outside (target - address) (by omega) ?_
  rw [Nat.add_sub_cancel' lower, wrap32_of_lt inSpace]

theorem storeStat (mem : Memory) (stat size mode type inode : Nat) :
    WritesBuffer mem (MatrixOS.storeStat mem stat size mode type inode)
      stat 16 := by
  have first := (store mem 4 stat size).widen (show 4 ≤ 16 by decide)
  refine first.trans ((part (store _ 4 (stat + 4) mode) (by decide)).trans ?_)
  exact (part (store _ 4 (stat + 8) type) (by decide)).trans
    (part (store _ 4 (stat + 12) inode) (by decide))

end WritesBuffer

/-- The loop of the console takes keys and fills its buffer. -/
theorem consoleRead_effect (buf room readCount : Nat) (state : VfsState) :
    ∃ keyboard mem,
      WritesBuffer state.mem mem (buf + readCount) room ∧
      (consoleRead buf room readCount state).2 =
        (state.withKeyboard keyboard).withMem mem := by
  induction room generalizing readCount state with
  | zero =>
      exact ⟨state.keyboard, state.mem, .refl _ _ _, rfl⟩
  | succ room inductionHypothesis =>
      simp only [consoleRead]
      split
      · have stored := (WritesBuffer.update state.mem (buf + readCount)
          (keyboardGetChar state.keyboard).1).widen (Nat.succ_pos room)
        split
        · exact ⟨_, _, stored, rfl⟩
        · obtain ⟨keyboard, mem, writes, result⟩ :=
            inductionHypothesis (readCount + 1)
              ((state.withKeyboard (keyboardGetChar state.keyboard).2).withMem
                (Function.update state.mem (wrap32 (buf + readCount))
                  (keyboardGetChar state.keyboard).1))
          have rest : WritesBuffer _ mem (buf + readCount) (room + 1) :=
            @WritesBuffer.part _ mem _ _ 1 room writes (Nat.add_comm 1 room).le
          exact ⟨keyboard, mem, stored.trans rest, result⟩
      · exact ⟨_, state.mem, .refl _ _ _, rfl⟩

/-- A handle that leads to a file is an index of the table. -/
theorem ramfsFileOf_nonneg
    {state : VfsState} {handle : Int} {index : Nat}
    (isFile : ramfsFileOf handle state = some index) :
    0 ≤ handle := by
  by_contra negative
  rw [ramfsFileOf, if_pos (Or.inl (Int.lt_of_not_ge negative))] at isFile
  cases isFile

/-- No more is copied than was asked for. -/
theorem copyLength_le (pos size count : Nat) :
    (if size < wrap32 (pos + count) then size - pos else count) ≤ count := by
  have wrapped : wrap32 (pos + count) ≤ pos + count := Nat.mod_le _ _
  split <;> omega

/-! ## The operations -/

namespace FileOperations

variable (ops : FileOperations) (state : VfsState)

/-- Opening takes a free handle. -/
theorem open_effect (path : List UInt8) (flags : Nat) :
    (ops.open path flags state).2 = state ∨
    (ops = .ramfsOps ∧ ∃ handle file, findRamfsHandle state = some handle ∧
      (ops.open path flags state).2 =
        state.withRamfsHandle handle ⟨some file, 0⟩) ∨
    (ops = .devfsOps ∧ ∃ handle device, findDevfsHandle state = some handle ∧
      (ops.open path flags state).2 =
        state.withDevfsHandle handle ⟨device, 0⟩) := by
  cases ops with
  | ramfsOps =>
      simp only [FileOperations.open, ramfsOpen]
      split
      · exact Or.inl rfl
      · split
        · exact Or.inl rfl
        · split
          · exact Or.inl rfl
          · rename_i found
            exact Or.inr (Or.inl ⟨trivial, _, _, found, rfl⟩)
  | devfsOps =>
      simp only [FileOperations.open, devfsOpen]
      split
      · exact Or.inl rfl
      · split
        · exact Or.inl rfl
        · rename_i found
          exact Or.inr (Or.inr ⟨trivial, _, _, found, rfl⟩)

/-- Closing clears the handle. -/
theorem close_effect (handle : Int) :
    (ops.close handle state).2 = state ∨
    (ops = .ramfsOps ∧ 0 ≤ handle ∧
      (ops.close handle state).2 =
        state.withRamfsHandle handle.toNat ⟨none, 0⟩) ∨
    (ops = .devfsOps ∧
      (ops.close handle state).2 =
        state.withDevfsHandle handle.toNat ⟨0, 0⟩) := by
  cases ops with
  | ramfsOps =>
      simp only [FileOperations.close, ramfsClose]
      split
      · exact Or.inl rfl
      · rename_i isFile
        exact Or.inr (Or.inl ⟨trivial, ramfsFileOf_nonneg isFile, rfl⟩)
  | devfsOps =>
      simp only [FileOperations.close, devfsClose]
      split
      · exact Or.inl rfl
      · exact Or.inr (Or.inr ⟨trivial, rfl⟩)

/-- Reading fills the buffer; ramfs moves the handle, devfs takes keys. -/
theorem read_effect (handle : Int) (buf count : Nat) :
    ∃ mem, WritesBuffer state.mem mem buf count ∧
      ((∃ keyboard, (ops.read handle buf count state).2 =
          (state.withKeyboard keyboard).withMem mem) ∨
        ops = .ramfsOps ∧ 0 ≤ handle ∧
          ∃ pos, (ops.read handle buf count state).2 =
            (state.withMem mem).withRamfsHandle handle.toNat
              { state.ramfsHandles handle.toNat with pos := pos }) := by
  have unchanged : WritesBuffer state.mem state.mem buf count := .refl _ _ _
  cases ops with
  | ramfsOps =>
      simp only [FileOperations.read, ramfsRead]
      split
      · exact ⟨state.mem, unchanged, Or.inl ⟨state.keyboard, rfl⟩⟩
      · rename_i isFile
        split
        · exact ⟨state.mem, unchanged, Or.inl ⟨state.keyboard, rfl⟩⟩
        · exact ⟨_, (WritesBuffer.memcpyFlat _ _ _ _).widen (copyLength_le _ _ _),
            Or.inr ⟨trivial, ramfsFileOf_nonneg isFile, _, rfl⟩⟩
  | devfsOps =>
      simp only [FileOperations.read, devfsRead]
      split
      · exact ⟨state.mem, unchanged, Or.inl ⟨state.keyboard, rfl⟩⟩
      · split
        · obtain ⟨keyboard, mem, writes, result⟩ :=
            consoleRead_effect buf count 0 state
          exact ⟨mem, writes, Or.inl ⟨keyboard, result⟩⟩
        · split
          · exact ⟨state.mem, unchanged, Or.inl ⟨state.keyboard, rfl⟩⟩
          · split
            · exact ⟨_, .memsetFlat _ _ _ _, Or.inl ⟨state.keyboard, rfl⟩⟩
            · exact ⟨state.mem, unchanged, Or.inl ⟨state.keyboard, rfl⟩⟩

/-- Writing changes the screen. -/
theorem write_effect (handle : Int) (buf count : Nat) :
    ∃ screen, (ops.write handle buf count state).2 =
      state.withScreen screen := by
  cases ops with
  | ramfsOps =>
      exact ⟨state.screen, rfl⟩
  | devfsOps =>
      simp only [FileOperations.write, devfsWrite]
      split
      · exact ⟨state.screen, rfl⟩
      · split
        · exact ⟨_, rfl⟩
        · split
          · exact ⟨state.screen, rfl⟩
          · split <;> exact ⟨state.screen, rfl⟩

/-- Seeking moves a handle of ramfs. -/
theorem seek_effect (handle offset whence : Int) :
    (ops.seek handle offset whence state).2 = state ∨
    (ops = .ramfsOps ∧ 0 ≤ handle ∧
      ∃ pos, (ops.seek handle offset whence state).2 =
        state.withRamfsHandle handle.toNat
          { state.ramfsHandles handle.toNat with pos := pos }) := by
  cases ops with
  | ramfsOps =>
      simp only [FileOperations.seek, ramfsSeek]
      split
      · exact Or.inl rfl
      · rename_i isFile
        split
        · exact Or.inl rfl
        · exact Or.inr ⟨trivial, ramfsFileOf_nonneg isFile, _, rfl⟩
  | devfsOps =>
      exact Or.inl rfl

/-- A request changes the screen or a word at its pointer. -/
theorem ioctl_effect (handle request : Int) (argp : Nat) :
    ∃ screen mem, WritesBuffer state.mem mem argp 4 ∧
      (ops.ioctl handle request argp state).2 =
        (state.withScreen screen).withMem mem := by
  have unchanged : WritesBuffer state.mem state.mem argp 4 := .refl _ _ _
  cases ops with
  | ramfsOps =>
      exact ⟨state.screen, state.mem, unchanged, rfl⟩
  | devfsOps =>
      simp only [FileOperations.ioctl, devfsIoctl]
      split
      · exact ⟨state.screen, state.mem, unchanged, rfl⟩
      · split
        · exact ⟨fbClear state.screen, state.mem, unchanged, rfl⟩
        · split
          · exact ⟨state.screen, _, .store _ _ _ _, rfl⟩
          · exact ⟨state.screen, state.mem, unchanged, rfl⟩

/-- A query fills the structure at its pointer. -/
theorem stat_effect (path : List UInt8) (stat : Nat) :
    ∃ mem, WritesBuffer state.mem mem stat 16 ∧
      (ops.stat path stat state).2 = state.withMem mem := by
  cases ops with
  | ramfsOps =>
      simp only [FileOperations.stat, ramfsStat]
      split
      · exact ⟨state.mem, .refl _ _ _, rfl⟩
      · exact ⟨_, .storeStat _ _ _ _ _ _, rfl⟩
  | devfsOps =>
      simp only [FileOperations.stat, devfsStat]
      split
      · exact ⟨state.mem, .refl _ _ _, rfl⟩
      · exact ⟨_, .storeStat _ _ _ _ _ _, rfl⟩

end FileOperations

end MatrixOS
