import MatrixOS.RamfsRead
import MatrixOS.VfsFailures

namespace MatrixOS

open ByteMemory

/-!
# Results of transfers

A transfer returns an error, which is negative, or the number of bytes as an
`int`.  From `2 ^ 31` bytes on the number is negative as well.
-/

/-- What a transfer does. -/
inductive Transfer where
  | rejected
  | copied (src length : Nat)
  | cleared (length : Nat)
  | typed (length : Nat)
  | shown (length : Nat)
  | discarded (length : Nat)
  deriving Repr, DecidableEq

/-- Characters are moved from the keyboard to a buffer. -/
def takeKeys (buf : Nat) : (count : Nat) → (offset : Nat) → VfsState → VfsState
  | 0, _, state => state
  | count + 1, offset, state =>
      let (c, keyboard) := keyboardGetChar state.keyboard
      takeKeys buf count (offset + 1) ((state.withKeyboard keyboard).withMem
        (Function.update state.mem (wrap32 (buf + offset)) c))

namespace Transfer

/-- The number of bytes that are transferred or discarded. -/
def length : Transfer → Nat
  | rejected => 0
  | copied _ length => length
  | cleared length => length
  | typed length => length
  | shown length => length
  | discarded length => length

def perform (buf : Nat) : Transfer → VfsState → VfsState
  | rejected, state => state
  | copied src length, state =>
      state.withMem (memcpyFlat state.mem buf src length)
  | cleared length, state => state.withMem (memsetFlat state.mem buf 0 length)
  | typed length, state => takeKeys buf length 0 state
  | shown length, state => putBuffer buf length state
  | discarded _, state => state

end Transfer

/-! ## What the calls transfer -/

namespace FileOperations

def readTransfer
    (handle : Int) (buf count : Nat) (state : VfsState) :
    FileOperations → Transfer
  | ramfsOps =>
      match ramfsFileOf handle state with
      | none => .rejected
      | some index =>
          let pos := (state.ramfsHandles handle.toNat).pos
          let file := state.fileAt index
          if file.size ≤ pos then
            .discarded 0
          else
            .copied (wrap32 (file.data + pos)) (toRead pos file.size count)
  | devfsOps =>
      let device := devfsDeviceOf handle state
      if device = deviceConsole then
        .typed (consoleRead buf count 0 state).1
      else if device = deviceNull then
        .discarded 0
      else if device = deviceZero then
        .cleared count
      else
        .rejected

def writeTransfer
    (handle : Int) (count : Nat) (state : VfsState) :
    FileOperations → Transfer
  | ramfsOps => .rejected
  | devfsOps =>
      let device := devfsDeviceOf handle state
      if device = deviceConsole then
        .shown count
      else if device = deviceNull ∨ device = deviceZero then
        .discarded count
      else
        .rejected

end FileOperations

/-- Where a read of the descriptor goes to. -/
def readsFrom (fd : Int) (state : VfsState) : Option Filesystem :=
  let fh := state.openFiles fd.toNat
  if BadFd fd state then
    none
  else if fh.flags &&& oRdonly = 0 ∧ fh.flags &&& oRdwr = 0 then
    none
  else
    fh.fs

def readTransfer (fd : Int) (buf count : Nat) (state : VfsState) : Transfer :=
  match readsFrom fd state with
  | none => .rejected
  | some fs =>
      fs.ops.readTransfer (state.openFiles fd.toNat).privateData buf count state

/-- The descriptor may be written. -/
def Writable (fd : Int) (state : VfsState) : Prop :=
  let fh := state.openFiles fd.toNat
  ¬ BadFd fd state ∧ ¬ (fh.flags &&& oWronly = 0 ∧ fh.flags &&& oRdwr = 0)

instance (fd : Int) (state : VfsState) : Decidable (Writable fd state) :=
  inferInstanceAs (Decidable (_ ∧ _))

def writeTransfer (fd : Int) (count : Nat) (state : VfsState) : Transfer :=
  let fh := state.openFiles fd.toNat
  if Writable fd state then
    if fd = 1 ∨ fd = 2 then
      .shown count
    else
      match fh.fs with
      | none => .rejected
      | some fs => fs.ops.writeTransfer fh.privateData count state
  else
    .rejected

/-! ## Results -/

/-- A result that is an error exactly for a transfer that has been rejected. -/
structure SignRight (transfer : Transfer) (result : Int) : Prop where
  negative : result < 0 ↔ transfer = .rejected
  counted : transfer ≠ .rejected → result = transfer.length

/-- A transfer has been carried out; positions may have moved. -/
structure Performed
    (transfer : Transfer) (buf : Nat) (before after : VfsState) : Prop where
  mem : after.mem = (transfer.perform buf before).mem
  keyboard : after.keyboard = (transfer.perform buf before).keyboard
  screen : after.screen = (transfer.perform buf before).screen

/-- An error, or the number of bytes as an `int`. -/
inductive ResultOf : Transfer → Int → Prop
  | error {error : Int} (low : enomem ≤ error) (negative : error < 0) :
      ResultOf .rejected error
  | done {transfer : Transfer} (notRejected : transfer ≠ .rejected)
      (inRange : transfer.length < 2 ^ 32) :
      ResultOf transfer (toInt transfer.length)

section Results

variable {transfer : Transfer} {result : Int}

theorem ResultOf.toInt_toWord (isResult : ResultOf transfer result) :
    toInt (toWord result) = result := by
  cases isResult with
  | error low negative =>
      simp only [enomem] at low
      exact MatrixOS.toInt_toWord (by omega) (by omega)
  | done =>
      obtain ⟨low, high⟩ := toInt_range transfer.length
      exact MatrixOS.toInt_toWord low high

theorem ResultOf.signRight_iff (isResult : ResultOf transfer result) :
    SignRight transfer result ↔ transfer.length < 2 ^ 31 := by
  cases isResult with
  | error low negative =>
      refine iff_of_true ⟨iff_of_true negative rfl, ?_⟩ (by decide)
      exact fun notRejected => absurd rfl notRejected
  | done notRejected inRange =>
      constructor
      · intro right
        by_contra large
        have negative := toInt_neg inRange (Nat.le_of_not_lt large)
        exact notRejected (right.negative.mp negative)
      · intro small
        have nonneg := toInt_nonneg small
        exact ⟨iff_of_false (Int.not_lt.mpr nonneg) notRejected,
          fun _ => toInt_of_lt small⟩

end Results

/-! ## The console -/

section Console

variable {state : VfsState}

/-- What is read from the console is what was waiting. -/
theorem consoleRead_eq
    (sound : state.keyboard.Sound)
    (buf room readCount : Nat) :
    ∃ length ≤ state.keyboard.waiting,
      consoleRead buf room readCount state =
        (readCount + length, takeKeys buf length readCount state) := by
  induction room generalizing readCount state with
  | zero =>
      exact ⟨0, Nat.zero_le _, rfl⟩
  | succ room inductionHypothesis =>
      rcases sound.getChar_cases with empty | ⟨c, next, taken, isChar, rest, one⟩
      · refine ⟨0, Nat.zero_le _, ?_⟩
        simp only [consoleRead, empty]
        rfl
      · by_cases newline : c = 10
        · refine ⟨1, by omega, ?_⟩
          simp only [consoleRead, taken, if_pos isChar, if_pos newline,
            takeKeys]
          rfl
        · obtain ⟨length, bound, reads⟩ := @inductionHypothesis
            ((state.withKeyboard next).withMem
              (Function.update state.mem (wrap32 (buf + readCount)) c))
            rest (readCount + 1)
          have fits : length ≤ next.waiting := bound
          refine ⟨length + 1, by omega, ?_⟩
          simp only [consoleRead, taken, if_pos isChar, if_neg newline,
            takeKeys]
          rw [Nat.add_assoc, Nat.add_comm 1] at reads
          exact reads

theorem takeKeys_sound
    (sound : state.keyboard.Sound)
    (buf count offset : Nat) :
    (takeKeys buf count offset state).keyboard.Sound := by
  induction count generalizing offset state with
  | zero =>
      exact sound
  | succ count inductionHypothesis =>
      simp only [takeKeys]
      rcases sound.getChar_cases with empty | ⟨c, next, taken, _, rest, _⟩
      · rw [empty]
        refine inductionHypothesis ?_ _
        exact sound
      · rw [taken]
        refine inductionHypothesis ?_ _
        exact rest

end Console

/-! ## The calls do what is said -/

section Calls

variable {state after : VfsState} {transfer : Transfer} {result : Int}
variable {buf count : Nat}

theorem Performed.refl (buf : Nat) (state : VfsState) :
    Performed .rejected buf state state :=
  ⟨rfl, rfl, rfl⟩

theorem Performed.discarded (buf length : Nat) (state : VfsState) :
    Performed (.discarded length) buf state state :=
  ⟨rfl, rfl, rfl⟩

/-- A transfer that has been carried out, with its result. -/
structure Outcome
    (transfer : Transfer) (buf : Nat) (before : VfsState)
    (outcome : Int × VfsState) : Prop where
  performed : Performed transfer buf before outcome.2
  result : ResultOf transfer outcome.1

theorem outcome_error
    {error : Int}
    (low : enomem ≤ error)
    (negative : error < 0) :
    Outcome .rejected buf state (error, state) :=
  ⟨.refl buf state, .error low negative⟩

theorem Outcome.advance
    (outcome : Outcome transfer buf state (result, after))
    (fd : Nat) :
    Outcome transfer buf state (result, advance fd result after) := by
  refine ⟨?_, outcome.result⟩
  obtain ⟨mem, keyboard, screen⟩ := outcome.performed
  simp only [MatrixOS.advance]
  split <;> exact ⟨mem, keyboard, screen⟩

/-- The sizes of the files are words. -/
def VfsState.FilesInRange (state : VfsState) : Prop :=
  ∀ file ∈ state.files, file.size < 2 ^ 32

theorem VfsState.FilesInRange.fileAt
    (inRange : state.FilesInRange)
    (index : Nat) :
    (state.fileAt index).size < 2 ^ 32 := by
  rw [VfsState.fileAt, List.getD_eq_getElem?_getD]
  cases found : state.files[index]? with
  | none =>
      decide
  | some file =>
      exact inRange file (List.mem_of_getElem? found)

theorem ramfsRead_outcome
    (inRange : state.FilesInRange)
    (count_lt : count < 2 ^ 32)
    (handle : Int)
    (buf : Nat) :
    Outcome (FileOperations.readTransfer handle buf count state .ramfsOps) buf
      state (ramfsRead handle buf count state) := by
  simp only [FileOperations.readTransfer, ramfsRead]
  cases ramfsFileOf handle state with
  | none =>
      exact outcome_error (by decide) (by decide)
  | some index =>
      have size := inRange.fileAt index
      simp only
      split
      · exact ⟨.discarded buf 0 state, .done Transfer.noConfusion (by decide)⟩
      · refine ⟨⟨rfl, rfl, rfl⟩, .done Transfer.noConfusion ?_⟩
        simp only [Transfer.length, toRead]
        split <;> omega

theorem devfsRead_outcome
    (sound : state.keyboard.Sound)
    (count_lt : count < 2 ^ 32)
    (handle : Int)
    (buf : Nat) :
    Outcome (FileOperations.readTransfer handle buf count state .devfsOps) buf
      state (devfsRead handle buf count state) := by
  simp only [FileOperations.readTransfer, devfsRead]
  by_cases closed : devfsDeviceOf handle state = 0
  · rw [closed]
    exact outcome_error (by decide) (by decide)
  rw [if_neg closed]
  split
  · obtain ⟨length, bound, reads⟩ := consoleRead_eq sound buf count 0
    have few : state.keyboard.waiting < kbufSize := Nat.mod_lt _ (by decide)
    simp only [kbufSize] at few
    rw [reads, Nat.zero_add]
    exact ⟨⟨rfl, rfl, rfl⟩, .done Transfer.noConfusion
      (show length < 2 ^ 32 by omega)⟩
  · split
    · exact ⟨.discarded buf 0 state, .done Transfer.noConfusion (by decide)⟩
    · split
      · exact ⟨⟨rfl, rfl, rfl⟩, .done Transfer.noConfusion count_lt⟩
      · exact outcome_error (by decide) (by decide)

theorem devfsWrite_outcome
    (count_lt : count < 2 ^ 32)
    (handle : Int)
    (buf : Nat) :
    Outcome (FileOperations.writeTransfer handle count state .devfsOps) buf
      state (devfsWrite handle buf count state) := by
  simp only [FileOperations.writeTransfer, devfsWrite]
  by_cases closed : devfsDeviceOf handle state = 0
  · rw [closed]
    exact outcome_error (by decide) (by decide)
  rw [if_neg closed]
  split
  · exact ⟨⟨rfl, rfl, rfl⟩, .done Transfer.noConfusion count_lt⟩
  · by_cases isNull : devfsDeviceOf handle state = deviceNull
    · rw [if_pos isNull, if_pos (Or.inl isNull)]
      exact ⟨.discarded buf count state, .done Transfer.noConfusion count_lt⟩
    · rw [if_neg isNull]
      simp only [isNull, false_or]
      split
      · exact ⟨.discarded buf count state, .done Transfer.noConfusion count_lt⟩
      · exact outcome_error (by decide) (by decide)

theorem FileOperations.read_outcome
    (ops : FileOperations)
    (sound : state.keyboard.Sound)
    (inRange : state.FilesInRange)
    (count_lt : count < 2 ^ 32)
    (handle : Int)
    (buf : Nat) :
    Outcome (ops.readTransfer handle buf count state) buf state
      (ops.read handle buf count state) := by
  cases ops with
  | ramfsOps => exact ramfsRead_outcome inRange count_lt handle buf
  | devfsOps => exact devfsRead_outcome sound count_lt handle buf

theorem FileOperations.write_outcome
    (ops : FileOperations)
    (count_lt : count < 2 ^ 32)
    (handle : Int)
    (buf : Nat) :
    Outcome (ops.writeTransfer handle count state) buf state
      (ops.write handle buf count state) := by
  cases ops with
  | ramfsOps => exact outcome_error (by decide) (by decide)
  | devfsOps => exact devfsWrite_outcome count_lt handle buf

theorem vfsRead_outcome
    (sound : state.keyboard.Sound)
    (inRange : state.FilesInRange)
    (count_lt : count < 2 ^ 32)
    (fd : Int)
    (buf : Nat) :
    Outcome (readTransfer fd buf count state) buf state
      (vfsRead fd buf count state) := by
  by_cases bad : BadFd fd state
  · simp only [readTransfer, readsFrom, vfsRead, if_pos bad]
    exact outcome_error (by decide) (by decide)
  by_cases noAccess : (state.openFiles fd.toNat).flags &&& oRdonly = 0 ∧
      (state.openFiles fd.toNat).flags &&& oRdwr = 0
  · simp only [readTransfer, readsFrom, vfsRead, if_neg bad, if_pos noAccess]
    exact outcome_error (by decide) (by decide)
  simp only [readTransfer, readsFrom, vfsRead, if_neg bad, if_neg noAccess]
  cases (state.openFiles fd.toNat).fs with
  | none =>
      exact outcome_error (by decide) (by decide)
  | some fs =>
      exact (fs.ops.read_outcome sound inRange count_lt _ buf).advance fd.toNat

theorem vfsWrite_outcome
    (count_lt : count < 2 ^ 32)
    (fd : Int)
    (buf : Nat) :
    Outcome (writeTransfer fd count state) buf state
      (vfsWrite fd buf count state) := by
  by_cases bad : BadFd fd state
  · have notWritable : ¬ Writable fd state := fun writable => writable.1 bad
    simp only [writeTransfer, vfsWrite, if_pos bad, if_neg notWritable]
    exact outcome_error (by decide) (by decide)
  by_cases noAccess : (state.openFiles fd.toNat).flags &&& oWronly = 0 ∧
      (state.openFiles fd.toNat).flags &&& oRdwr = 0
  · have notWritable : ¬ Writable fd state :=
      fun writable => writable.2 noAccess
    simp only [writeTransfer, vfsWrite, if_neg bad, if_pos noAccess,
      if_neg notWritable]
    exact outcome_error (by decide) (by decide)
  have writable : Writable fd state := ⟨bad, noAccess⟩
  simp only [writeTransfer, vfsWrite, if_neg bad, if_neg noAccess,
    if_pos writable]
  split
  · exact ⟨⟨rfl, rfl, rfl⟩, .done Transfer.noConfusion count_lt⟩
  · cases (state.openFiles fd.toNat).fs with
    | none =>
        exact outcome_error (by decide) (by decide)
    | some fs =>
        exact (fs.ops.write_outcome count_lt _ buf).advance fd.toNat

end Calls

/-! ## When the results are right -/

theorem toRead_small_iff
    {pos size count : Nat}
    (inside : pos < size)
    (size_lt : size < 2 ^ 32)
    (count_lt : count < 2 ^ 32) :
    toRead pos size count < 2 ^ 31 ↔
      count < 2 ^ 31 ∨ pos + count < 2 ^ 32 ∧ size - pos < 2 ^ 31 := by
  by_cases fits : pos + count < 2 ^ 32
  · rw [toRead_of_lt inside fits, readLength]
    omega
  · have whole := toRead_of_wrap inside size_lt count_lt
      (Nat.le_of_not_lt fits)
    rw [whole.1]
    omega

namespace FileOperations

/-- Fewer than `2 ^ 31` bytes are read. -/
def ReadFits (handle : Int) (count : Nat) (state : VfsState) :
    FileOperations → Prop
  | ramfsOps => ∀ index, ramfsFileOf handle state = some index →
      let pos := (state.ramfsHandles handle.toNat).pos
      let size := (state.fileAt index).size
      count < 2 ^ 31 ∨ size ≤ pos ∨ pos + count < 2 ^ 32 ∧ size - pos < 2 ^ 31
  | devfsOps => devfsDeviceOf handle state = deviceZero → count < 2 ^ 31

/-- Fewer than `2 ^ 31` bytes are written. -/
def WriteFits (handle : Int) (count : Nat) (state : VfsState) :
    FileOperations → Prop
  | ramfsOps => True
  | devfsOps => devfsDeviceOf handle state ∈
      [deviceConsole, deviceNull, deviceZero] → count < 2 ^ 31

theorem readTransfer_small_iff
    {state : VfsState} {count : Nat}
    (sound : state.keyboard.Sound)
    (inRange : state.FilesInRange)
    (count_lt : count < 2 ^ 32)
    (ops : FileOperations)
    (handle : Int)
    (buf : Nat) :
    (ops.readTransfer handle buf count state).length < 2 ^ 31 ↔
      ops.ReadFits handle count state := by
  cases ops with
  | ramfsOps =>
      simp only [readTransfer, ReadFits]
      cases ramfsFileOf handle state with
      | none =>
          simp [Transfer.length]
      | some index =>
          have size := inRange.fileAt index
          simp only [Option.some.injEq, forall_eq']
          split
          · rename_i atEnd
            exact iff_of_true (by decide) (Or.inr (Or.inl atEnd))
          · rename_i notAtEnd
            rw [or_iff_right notAtEnd]
            exact toRead_small_iff (Nat.lt_of_not_le notAtEnd) size count_lt
  | devfsOps =>
      simp only [readTransfer, ReadFits]
      split
      · rename_i isConsole
        obtain ⟨length, bound, reads⟩ := consoleRead_eq sound buf count 0
        have few : state.keyboard.waiting < kbufSize :=
          Nat.mod_lt _ (by decide)
        simp only [kbufSize] at few
        rw [reads, isConsole]
        refine iff_of_true ?_ fun isZero => absurd isZero (by decide)
        simp only [Transfer.length]
        omega
      · split
        · rename_i isNull
          rw [isNull]
          exact iff_of_true (by decide) fun isZero => absurd isZero (by decide)
        · split
          · rename_i isZero
            simp [Transfer.length, isZero]
          · rename_i notZero
            simp [Transfer.length, notZero]

theorem writeTransfer_small_iff
    (ops : FileOperations) (handle : Int) (count : Nat) (state : VfsState) :
    (ops.writeTransfer handle count state).length < 2 ^ 31 ↔
      ops.WriteFits handle count state := by
  cases ops with
  | ramfsOps =>
      exact iff_of_true (show 0 < 2 ^ 31 by decide) trivial
  | devfsOps =>
      simp only [writeTransfer, WriteFits, List.mem_cons, List.not_mem_nil,
        or_false]
      split
      · rename_i isConsole
        simp [Transfer.length, isConsole]
      · rename_i notConsole
        split
        · rename_i isDevice
          simp [Transfer.length, isDevice]
        · rename_i notDevice
          simp [Transfer.length, notConsole, notDevice]

end FileOperations

/-- A read that is let through moves fewer than `2 ^ 31` bytes. -/
def ReadFits (fd : Int) (count : Nat) (state : VfsState) : Prop :=
  ∀ fs, readsFrom fd state = some fs →
    fs.ops.ReadFits (state.openFiles fd.toNat).privateData count state

/-- A write that is let through moves fewer than `2 ^ 31` bytes. -/
def WriteFits (fd : Int) (count : Nat) (state : VfsState) : Prop :=
  Writable fd state →
    if fd = 1 ∨ fd = 2 then
      count < 2 ^ 31
    else
      ∀ fs, (state.openFiles fd.toNat).fs = some fs →
        fs.ops.WriteFits (state.openFiles fd.toNat).privateData count state

section Fits

variable {state : VfsState} {count : Nat}

theorem readTransfer_small_iff
    (sound : state.keyboard.Sound)
    (inRange : state.FilesInRange)
    (count_lt : count < 2 ^ 32)
    (fd : Int)
    (buf : Nat) :
    (readTransfer fd buf count state).length < 2 ^ 31 ↔
      ReadFits fd count state := by
  rw [readTransfer, ReadFits]
  cases readsFrom fd state with
  | none =>
      simp [Transfer.length]
  | some fs =>
      simp only [Option.some.injEq, forall_eq']
      exact fs.ops.readTransfer_small_iff sound inRange count_lt _ buf

theorem writeTransfer_small_iff (fd : Int) (count : Nat) (state : VfsState) :
    (writeTransfer fd count state).length < 2 ^ 31 ↔
      WriteFits fd count state := by
  simp only [writeTransfer, WriteFits]
  by_cases writable : Writable fd state
  · rw [if_pos writable, forall_prop_of_true writable]
    split
    · rfl
    · cases (state.openFiles fd.toNat).fs with
      | none =>
          simp [Transfer.length]
      | some fs =>
          simp only [Option.some.injEq, forall_eq']
          exact fs.ops.writeTransfer_small_iff _ count state
  · simp [writable, Transfer.length]

end Fits

/-! ## Runs -/

section Runs

variable {state : VfsState}

theorem FileOperations.open_keyboard
    (ops : FileOperations) (path : List UInt8) (flags : Nat)
    (state : VfsState) :
    (ops.open path flags state).2.keyboard = state.keyboard := by
  rcases ops.open_effect state path flags with
    result | ⟨_, _, _, _, result⟩ | ⟨_, _, _, _, result⟩
  · rw [result]
  · rw [result]
    rfl
  · rw [result]
    rfl

theorem FileOperations.close_keyboard
    (ops : FileOperations) (handle : Int) (state : VfsState) :
    (ops.close handle state).2.keyboard = state.keyboard := by
  rcases ops.close_effect state handle with
    result | ⟨_, _, result⟩ | ⟨_, result⟩
  · rw [result]
  · rw [result]
    rfl
  · rw [result]
    rfl

theorem FileOperations.read_sound
    (ops : FileOperations)
    (sound : state.keyboard.Sound)
    (handle : Int)
    (buf count : Nat) :
    (ops.read handle buf count state).2.keyboard.Sound := by
  cases ops with
  | ramfsOps =>
      simp only [FileOperations.read, ramfsRead]
      split
      · exact sound
      · split <;> exact sound
  | devfsOps =>
      simp only [FileOperations.read, devfsRead]
      split
      · exact sound
      · split
        · obtain ⟨length, _, reads⟩ := consoleRead_eq sound buf count 0
          rw [reads]
          exact takeKeys_sound sound buf length 0
        · split
          · exact sound
          · split <;> exact sound

theorem FileOperations.write_keyboard
    (ops : FileOperations) (handle : Int) (buf count : Nat)
    (state : VfsState) :
    (ops.write handle buf count state).2.keyboard = state.keyboard := by
  obtain ⟨_, result⟩ := ops.write_effect state handle buf count
  rw [result]
  rfl

theorem FileOperations.seek_keyboard
    (ops : FileOperations) (handle offset whence : Int) (state : VfsState) :
    (ops.seek handle offset whence state).2.keyboard = state.keyboard := by
  rcases ops.seek_effect state handle offset whence with
    result | ⟨_, _, _, result⟩
  · rw [result]
  · rw [result]
    rfl

theorem FileOperations.ioctl_keyboard
    (ops : FileOperations) (handle request : Int) (argp : Nat)
    (state : VfsState) :
    (ops.ioctl handle request argp state).2.keyboard = state.keyboard := by
  obtain ⟨_, _, _, result⟩ := ops.ioctl_effect state handle request argp
  rw [result]
  rfl

theorem FileOperations.stat_keyboard
    (ops : FileOperations) (path : List UInt8) (stat : Nat)
    (state : VfsState) :
    (ops.stat path stat state).2.keyboard = state.keyboard := by
  obtain ⟨_, _, result⟩ := ops.stat_effect state path stat
  rw [result]
  rfl

/-- No call puts a 0 into the ring buffer. -/
theorem backendsKeep_sound :
    BackendsKeep fun state => state.keyboard.Sound where
  descriptor := fun _ _ sound => sound
  screen := fun _ sound => sound
  «open» := fun ops path flags sound => by
    rwa [ops.open_keyboard]
  close := fun ops handle sound => by
    rwa [ops.close_keyboard]
  read := fun ops handle buf count sound => ops.read_sound sound handle buf count
  write := fun ops handle buf count sound => by
    rwa [ops.write_keyboard]
  seek := fun ops handle offset whence sound => by
    rwa [ops.seek_keyboard]
  ioctl := fun ops handle request argp sound => by
    rwa [ops.ioctl_keyboard]
  stat := fun ops path target sound => by
    rwa [ops.stat_keyboard]

variable {initial : VfsState} {run : VfsRun}

theorem VfsReachable.keyboard_sound
    (sound : initial.keyboard.Sound)
    (reached : VfsReachable initial run) :
    run.state.keyboard.Sound :=
  backendsKeep_sound.reachable
    (fun _ sc sound => sound.keyboardInputHandler sc) sound reached

/-- The files are those of the beginning. -/
theorem VfsReachable.files
    (reached : VfsReachable initial run) :
    run.state.files = initial.files := by
  induction reached with
  | init =>
      rfl
  | @call request run _ inductionHypothesis =>
      exact (request.perform_sameFiles run.state).files.trans
        inductionHypothesis
  | key _ _ inductionHypothesis =>
      exact inductionHypothesis

end Runs

/-! ## The system calls -/

/-- `SYSCALL_READ`: the word for `eax`. -/
def syscallRead
    (arg1 arg2 arg3 : Nat) (state : VfsState) : Nat × VfsState :=
  if arg2 = 0 then
    (toWord einval, state)
  else
    let (bytesRead, state) := vfsRead (toInt arg1) arg2 arg3 state
    (toWord bytesRead, state)

/-- `SYSCALL_WRITE`: the word for `eax`. -/
def syscallWrite
    (arg1 arg2 arg3 : Nat) (state : VfsState) : Nat × VfsState :=
  if arg2 = 0 then
    (toWord einval, state)
  else
    let (bytesWritten, state) := vfsWrite (toInt arg1) arg2 arg3 state
    (toWord bytesWritten, state)

section Boot

variable {modules : List ModuleInfo} {ramfsNode devfsNode : Nat}
variable {before : VfsState}

theorem bootVfsInit_keyboard :
    (bootVfsInit modules ramfsNode devfsNode before).keyboard =
      before.keyboard := by
  obtain ⟨fsList, boot⟩ := bootVfsInit_tables modules ramfsNode devfsNode before
  rw [boot]
  rfl

theorem bootVfsInit_filesInRange
    (sizes : ∀ module ∈ modules, module.size < 2 ^ 32) :
    (bootVfsInit modules ramfsNode devfsNode before).FilesInRange := by
  obtain ⟨fsList, boot⟩ := bootVfsInit_tables modules ramfsNode devfsNode before
  rw [boot]
  intro file member
  obtain ⟨module, isModule, rfl⟩ := List.mem_map.mp member
  exact sizes module (List.mem_of_mem_take isModule)

/--
A transfer does what is said of it; its result has the right sign, and so has
`eax`, exactly when fewer than `2 ^ 31` bytes are moved.
-/
theorem transferResults_iff
    {run : VfsRun}
    (sound : before.keyboard.Sound)
    (sizes : ∀ module ∈ modules, module.size < 2 ^ 32)
    (reached : VfsReachable
      (bootVfsInit modules ramfsNode devfsNode before) run)
    (fd : Int)
    (buf : Nat)
    {count : Nat}
    (count_lt : count < 2 ^ 32) :
    (Performed (readTransfer fd buf count run.state) buf run.state
        (vfsRead fd buf count run.state).2 ∧
      (SignRight (readTransfer fd buf count run.state)
        (vfsRead fd buf count run.state).1 ↔ ReadFits fd count run.state)) ∧
    (Performed (writeTransfer fd count run.state) buf run.state
        (vfsWrite fd buf count run.state).2 ∧
      (SignRight (writeTransfer fd count run.state)
        (vfsWrite fd buf count run.state).1 ↔ WriteFits fd count run.state)) ∧
    (buf ≠ 0 → ∀ arg1, toInt arg1 = fd →
      toInt (syscallRead arg1 buf count run.state).1 =
          (vfsRead fd buf count run.state).1 ∧
        toInt (syscallWrite arg1 buf count run.state).1 =
          (vfsWrite fd buf count run.state).1) := by
  have keyboard : run.state.keyboard.Sound := by
    refine reached.keyboard_sound ?_
    rw [bootVfsInit_keyboard]
    exact sound
  have inRange : run.state.FilesInRange := by
    rw [VfsState.FilesInRange, reached.files]
    exact bootVfsInit_filesInRange sizes
  have reads := vfsRead_outcome keyboard inRange count_lt fd buf
  have writes := @vfsWrite_outcome run.state _ count_lt fd buf
  refine ⟨⟨reads.performed, ?_⟩, ⟨writes.performed, ?_⟩, ?_⟩
  · rw [reads.result.signRight_iff]
    exact readTransfer_small_iff keyboard inRange count_lt fd buf
  · rw [writes.result.signRight_iff]
    exact writeTransfer_small_iff fd count run.state
  · rintro notNull arg1 rfl
    simp only [syscallRead, syscallWrite, if_neg notNull]
    exact ⟨reads.result.toInt_toWord, writes.result.toInt_toWord⟩

end Boot

/-- `/dev/zero` has been opened. -/
def demoZero : VfsRun :=
  VfsCall.run (.open (some (cstr "/dev/zero")) oRdwr)
    ⟨bootVfsInit [] 16 32 .cleared, fun _ => none⟩

theorem demoZero_reachable :
    VfsReachable (bootVfsInit [] 16 32 .cleared) demoZero :=
  .call _ .init

/-- Four bytes are read from it. -/
theorem transferResults_demoZero :
    SignRight (.cleared 4) (vfsRead 3 0x2000 4 demoZero.state).1 := by
  have sound : VfsState.cleared.keyboard.Sound :=
    ⟨by decide, by decide, fun _ below => absurd below (by simp [
      VfsState.cleared, Keyboard.waiting])⟩
  have results := transferResults_iff sound (List.forall_mem_nil _)
    demoZero_reachable 3 0x2000 (show 4 < 2 ^ 32 by decide)
  exact results.1.2.mpr fun fs isOpen => by
    cases isOpen
    exact fun _ => by decide

/-- `2 ^ 31` bytes are, but the result says that it was an error. -/
theorem not_signRight_zero :
    ∃ run, VfsReachable (bootVfsInit [] 16 32 .cleared) run ∧
      ¬ BadFd 3 run.state ∧
      ¬ SignRight (readTransfer 3 0x2000 0x80000000 run.state)
        (vfsRead 3 0x2000 0x80000000 run.state).1 := by
  refine ⟨demoZero, demoZero_reachable, by decide, fun right => ?_⟩
  have transfer : readTransfer 3 0x2000 0x80000000 demoZero.state =
      .cleared 0x80000000 := rfl
  have negative : (vfsRead 3 0x2000 0x80000000 demoZero.state).1 < 0 := by
    decide
  rw [right.negative, transfer] at negative
  cases negative

end MatrixOS
