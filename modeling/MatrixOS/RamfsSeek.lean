import MatrixOS.RamfsRead
import MatrixOS.TransferResults

namespace MatrixOS

open ByteMemory

/-!
# Seeking in a file of ramfs

The base and the signed offset are added as words and the sum is cut off at the
end of the file.  A sum below 0 is a large word, and so it ends there as well.
-/

/-- No handle of ramfs is behind the end of its file. -/
def PositionsInside (state : VfsState) : Prop :=
  ∀ handle index, (state.ramfsHandles handle).file = some index →
    (state.ramfsHandles handle).pos ≤ (state.fileAt index).size

/-- What a seek counts from. -/
def seekBase (whence : Int) (pos size : Nat) : Nat :=
  if whence = 0 then 0 else if whence = 1 then pos else size

/-- Where a seek ends. -/
def seekEnd (offset whence : Int) (pos size : Nat) : Nat :=
  min size (wrap32 (seekBase whence pos size + toWord offset))

/-- The three values of `whence`. -/
def IsWhence (whence : Int) : Prop :=
  whence = 0 ∨ whence = 1 ∨ whence = 2

/-! ## What does not move a handle -/

/-- The files and the handles of ramfs, and the descriptors, are the same. -/
structure SameRamfs (before after : VfsState) : Prop where
  files : after.files = before.files
  ramfsHandles : after.ramfsHandles = before.ramfsHandles
  openFiles : after.openFiles = before.openFiles

section Same

variable (state : VfsState)

theorem SameRamfs.refl : SameRamfs state state :=
  ⟨rfl, rfl, rfl⟩

theorem devfsRead_sameRamfs (handle : Int) (buf count : Nat) :
    SameRamfs state (devfsRead handle buf count state).2 := by
  obtain ⟨mem, _, ⟨keyboard, result⟩ | ⟨isRamfs, _⟩⟩ :=
    FileOperations.devfsOps.read_effect state handle buf count
  · exact result ▸ ⟨rfl, rfl, rfl⟩
  · cases isRamfs

namespace FileOperations

variable (ops : FileOperations)

theorem write_sameRamfs (handle : Int) (buf count : Nat) :
    SameRamfs state (ops.write handle buf count state).2 := by
  obtain ⟨screen, result⟩ := ops.write_effect state handle buf count
  rw [result]
  exact ⟨rfl, rfl, rfl⟩

theorem ioctl_sameRamfs (handle request : Int) (argp : Nat) :
    SameRamfs state (ops.ioctl handle request argp state).2 := by
  obtain ⟨screen, mem, _, result⟩ := ops.ioctl_effect state handle request argp
  rw [result]
  exact ⟨rfl, rfl, rfl⟩

theorem stat_sameRamfs (path : List UInt8) (target : Nat) :
    SameRamfs state (ops.stat path target state).2 := by
  obtain ⟨mem, _, result⟩ := ops.stat_effect state path target
  rw [result]
  exact ⟨rfl, rfl, rfl⟩

end FileOperations

end Same

/-! ## Positions -/

section Positions

variable {state : VfsState}

theorem PositionsInside.withRamfsHandle
    (inside : PositionsInside state)
    {handle : Nat} {entry : RamfsPrivate}
    (fits : ∀ index, entry.file = some index →
      entry.pos ≤ (state.fileAt index).size) :
    PositionsInside (state.withRamfsHandle handle entry) := by
  intro other index isOpen
  rw [VfsState.withRamfsHandle_ramfsHandles] at isOpen ⊢
  by_cases same : other = handle
  · subst same
    rw [Function.update_self] at isOpen ⊢
    exact fits index isOpen
  · rw [Function.update_of_ne same] at isOpen ⊢
    exact inside other index isOpen

theorem ramfsFileOf_eq_some
    {handle : Int} {index : Nat}
    (found : ramfsFileOf handle state = some index) :
    (state.ramfsHandles handle.toNat).file = some index := by
  rw [ramfsFileOf] at found
  split at found
  · cases found
  · exact found

/-- A read ends in the file, even where the sum wraps around. -/
theorem ramfsRead_inside
    (inside : PositionsInside state)
    (handle : Int)
    (buf count : Nat) :
    PositionsInside (ramfsRead handle buf count state).2 := by
  rw [ramfsRead]
  cases found : ramfsFileOf handle state with
  | none =>
      exact inside
  | some index =>
      simp only
      split
      · exact inside
      · rename_i notAtEnd
        refine PositionsInside.withRamfsHandle inside fun other isOpen => ?_
        obtain rfl := Option.some.inj
          (isOpen.symm.trans (ramfsFileOf_eq_some found))
        change wrap32 _ ≤ (state.fileAt other).size
        split
        · exact (Nat.mod_le _ _).trans (by omega)
        · omega

theorem ramfsSeek_inside
    (inside : PositionsInside state)
    (handle offset whence : Int) :
    PositionsInside (ramfsSeek handle offset whence state).2 := by
  rw [ramfsSeek]
  cases found : ramfsFileOf handle state with
  | none =>
      exact inside
  | some index =>
      simp only
      split
      · exact inside
      · refine inside.withRamfsHandle fun other isOpen => ?_
        obtain rfl := Option.some.inj
          (isOpen.symm.trans (ramfsFileOf_eq_some found))
        change (if _ then _ else _) ≤ (state.fileAt other).size
        split <;> omega

theorem PositionsInside.of_sameRamfs
    {next : VfsState}
    (inside : PositionsInside state)
    (same : SameRamfs state next) :
    PositionsInside next := by
  intro handle index
  rw [same.ramfsHandles, VfsState.fileAt, same.files]
  exact inside handle index

/-- A handle is opened at the start of its file. -/
theorem FileOperations.open_inside
    (inside : PositionsInside state)
    (ops : FileOperations)
    (path : List UInt8)
    (flags : Nat) :
    PositionsInside (ops.open path flags state).2 := by
  rcases ops.open_effect state path flags with
    result | ⟨_, handle, file, _, result⟩ | ⟨_, handle, device, _, result⟩
  · rwa [result]
  · rw [result]
    exact inside.withRamfsHandle fun _ _ => Nat.zero_le _
  · rw [result]
    exact inside.of_sameRamfs ⟨rfl, rfl, rfl⟩

theorem FileOperations.close_inside
    (inside : PositionsInside state)
    (ops : FileOperations)
    (handle : Int) :
    PositionsInside (ops.close handle state).2 := by
  rcases ops.close_effect state handle with
    result | ⟨_, _, result⟩ | ⟨_, result⟩
  · rwa [result]
  · rw [result]
    exact inside.withRamfsHandle fun _ isOpen => by cases isOpen
  · rw [result]
    exact inside.of_sameRamfs ⟨rfl, rfl, rfl⟩

/-- No call takes a handle behind the end of its file. -/
theorem backendsKeep_inside : BackendsKeep PositionsInside where
  descriptor := fun _ _ inside => inside
  screen := fun _ inside => inside
  «open» := fun ops path flags inside => ops.open_inside inside path flags
  close := fun ops handle inside => ops.close_inside inside handle
  read := fun ops handle buf count inside => by
    cases ops with
    | ramfsOps => exact ramfsRead_inside inside handle buf count
    | devfsOps =>
        exact inside.of_sameRamfs (devfsRead_sameRamfs _ handle buf count)
  write := fun ops handle buf count inside =>
    inside.of_sameRamfs (ops.write_sameRamfs _ handle buf count)
  seek := fun ops handle offset whence inside => by
    cases ops with
    | ramfsOps => exact ramfsSeek_inside inside handle offset whence
    | devfsOps => exact inside
  ioctl := fun ops handle request argp inside =>
    inside.of_sameRamfs (ops.ioctl_sameRamfs _ handle request argp)
  stat := fun ops path target inside =>
    inside.of_sameRamfs (ops.stat_sameRamfs _ path target)

theorem positionsInside_bootVfsInit
    (modules : List ModuleInfo) (ramfsNode devfsNode : Nat)
    (before : VfsState) :
    PositionsInside (bootVfsInit modules ramfsNode devfsNode before) := by
  obtain ⟨fsList, boot⟩ := bootVfsInit_tables modules ramfsNode devfsNode before
  rw [boot]
  intro handle index isOpen
  cases isOpen

end Positions

/-! ## The end of a seek -/

section Seek

variable {state : VfsState} {offset whence : Int}

theorem toWord_lt (value : Int) : toWord value < 2 ^ 32 := by
  rw [toWord]
  omega

theorem ramfsSeek_eq
    {handle : Int} {index : Nat}
    (isOpen : ramfsFileOf handle state = some index)
    (isWhence : IsWhence whence) :
    ramfsSeek handle offset whence state =
      let target := seekEnd offset whence (state.ramfsHandles handle.toNat).pos
        (state.fileAt index).size
      (toInt target, state.withRamfsHandle handle.toNat ⟨some index, target⟩) := by
  have file := ramfsFileOf_eq_some isOpen
  have cut : ∀ target, (if (state.fileAt index).size < target then
      (state.fileAt index).size else target) =
        min (state.fileAt index).size target := by
    intro target
    split <;> omega
  rcases isWhence with rfl | rfl | rfl
  · simp [ramfsSeek, isOpen, seekEnd, seekBase, cut, file,
      wrap32_of_lt (toWord_lt offset)]
  · simp [ramfsSeek, isOpen, seekEnd, seekBase, cut, file]
  · simp [ramfsSeek, isOpen, seekEnd, seekBase, cut, file]

theorem vfsSeek_of_openOn
    {fd : Nat}
    (isOpen : state.OpenOn .ramfsOps fd) :
    vfsSeek fd offset whence state =
      ramfsSeek (state.openFiles fd).privateData offset whence state := by
  obtain ⟨inTable, used, fs, isFs, isRamfs⟩ := isOpen
  have good : ¬ BadFd fd state := by
    simp only [BadFd, Int.toNat_natCast]
    omega
  simp only [vfsSeek, if_neg good, Int.toNat_natCast, isFs, isRamfs,
    FileOperations.seek]

/-- Where a signed sum that is cut off at the end of the file is. -/
theorem seekEnd_of_nonneg
    {pos size : Nat}
    (base : seekBase whence pos size < 2 ^ 31)
    (high : offset < 2 ^ 31)
    (nonneg : 0 ≤ seekBase whence pos size + offset) :
    (seekEnd offset whence pos size : Int) =
      min (size : Int) (seekBase whence pos size + offset) := by
  have sum : (wrap32 (seekBase whence pos size + toWord offset) : Int) =
      seekBase whence pos size + offset := by
    rw [wrap32, toWord]
    omega
  rw [seekEnd]
  omega

theorem seekEnd_of_neg
    {pos size : Nat}
    (size_lt : size < 2 ^ 31)
    (low : -2 ^ 31 ≤ offset)
    (negative : seekBase whence pos size + offset < 0) :
    seekEnd offset whence pos size = size := by
  have sum : 2 ^ 31 ≤ wrap32 (seekBase whence pos size + toWord offset) := by
    rw [wrap32, toWord]
    omega
  rw [seekEnd]
  omega

end Seek

/-- The position of a descriptor of ramfs. -/
def VfsState.ramfsPos (state : VfsState) (fd : Nat) : Nat :=
  (state.ramfsHandles (state.openFiles fd).privateData.toNat).pos

theorem VfsState.ramfsPos_withRamfsHandle
    (state : VfsState) (fd : Nat) (entry : RamfsPrivate) :
    (state.withRamfsHandle (state.openFiles fd).privateData.toNat
      entry).ramfsPos fd = entry.pos := by
  have found := Function.update_self (state.openFiles fd).privateData.toNat
    entry state.ramfsHandles
  rw [ramfsPos, withRamfsHandle_ramfsHandles]
  exact congrArg RamfsPrivate.pos found

/-- What a seek has to do, where `target` is the signed sum. -/
structure SeeksRight
    (state : VfsState) (fd size : Nat) (target : Int)
    (outcome : Int × VfsState) : Prop where
  inside : 0 ≤ target → target ≤ size →
    (outcome.2.ramfsPos fd : Int) = target ∧ outcome.1 = target
  behind : size < target → outcome.2.ramfsPos fd = size ∧ outcome.1 = size
  before : target < 0 →
    outcome.2.ramfsPos fd = state.ramfsPos fd ∧ outcome.1 < 0 ∨
      outcome.2.ramfsPos fd = 0

section Runs

variable {modules : List ModuleInfo} {ramfsNode devfsNode : Nat}
variable {before : VfsState} {run : VfsRun} {fd index : Nat}

/--
A seek is right exactly when the signed sum is not negative, or the file is
empty.
-/
theorem seeksRight_iff
    (reached : VfsReachable
      (bootVfsInit modules ramfsNode devfsNode before) run)
    (isOpen : run.state.OpenOn .ramfsOps fd)
    (file : ramfsFileOf (run.state.openFiles fd).privateData run.state =
      some index)
    (size : (run.state.fileAt index).size < 2 ^ 31)
    {offset whence : Int}
    (isWhence : IsWhence whence)
    (low : -2 ^ 31 ≤ offset)
    (high : offset < 2 ^ 31) :
    SeeksRight run.state fd (run.state.fileAt index).size
        (seekBase whence (run.state.ramfsPos fd) (run.state.fileAt index).size +
          offset)
        (vfsSeek fd offset whence run.state) ↔
      0 ≤ seekBase whence (run.state.ramfsPos fd)
          (run.state.fileAt index).size + offset ∨
        (run.state.fileAt index).size = 0 := by
  have inside : PositionsInside run.state :=
    backendsKeep_inside.reachable (fun _ _ inside => inside)
      (positionsInside_bootVfsInit modules ramfsNode devfsNode before) reached
  have pos_le := inside _ index (ramfsFileOf_eq_some file)
  change run.state.ramfsPos fd ≤ _ at pos_le
  have base : seekBase whence (run.state.ramfsPos fd)
      (run.state.fileAt index).size ≤ (run.state.fileAt index).size := by
    rw [seekBase]
    split
    · omega
    · split <;> omega
  let target := seekEnd offset whence (run.state.ramfsPos fd)
    (run.state.fileAt index).size
  have seek : vfsSeek fd offset whence run.state =
      (toInt target, run.state.withRamfsHandle
        (run.state.openFiles fd).privateData.toNat ⟨some index, target⟩) := by
    rw [vfsSeek_of_openOn isOpen]
    exact ramfsSeek_eq file isWhence
  have moved : (vfsSeek fd offset whence run.state).2.ramfsPos fd = target := by
    rw [seek]
    exact run.state.ramfsPos_withRamfsHandle fd _
  have target_le : target ≤ (run.state.fileAt index).size := Nat.min_le_left _ _
  have result : (vfsSeek fd offset whence run.state).1 = target := by
    rw [seek]
    exact toInt_of_lt (by omega)
  constructor
  · intro right
    by_contra! wrong
    obtain ⟨negative, notEmpty⟩ := wrong
    have atEnd : target = _ := seekEnd_of_neg size low negative
    rcases right.before negative with ⟨_, failed⟩ | start
    · omega
    · omega
  · intro condition
    by_cases nonneg : 0 ≤ seekBase whence (run.state.ramfsPos fd)
        (run.state.fileAt index).size + offset
    · have value : (target : Int) = _ :=
        seekEnd_of_nonneg (by omega) high nonneg
      refine ⟨fun _ _ => ?_, fun _ => ?_, fun _ => ?_⟩
      · omega
      · omega
      · omega
    · have empty := condition.resolve_left nonneg
      refine ⟨fun _ => ?_, fun _ => ?_, fun _ => Or.inr ?_⟩
      · omega
      · omega
      · omega

end Runs

/-- A file of 16 bytes has been opened. -/
def demoFile : VfsRun :=
  VfsCall.run (.open (some (cstr "a")) oRdonly)
    ⟨bootVfsInit [⟨cstr "a", 0x1000, 16⟩] 16 32 .cleared, fun _ => none⟩

theorem demoFile_reachable :
    VfsReachable (bootVfsInit [⟨cstr "a", 0x1000, 16⟩] 16 32 .cleared)
      demoFile :=
  .call _ .init

theorem demoFile_openOn : demoFile.state.OpenOn .ramfsOps 3 :=
  ⟨by decide, by decide, _, rfl, rfl⟩

/-- Four bytes ahead. -/
theorem seeksRight_demoFile :
    SeeksRight demoFile.state 3 16 (seekBase 1 (demoFile.state.ramfsPos 3) 16 + 4)
      (vfsSeek 3 4 1 demoFile.state) :=
  (seeksRight_iff demoFile_reachable demoFile_openOn rfl
    (show (demoFile.state.fileAt 0).size < 2 ^ 31 by decide)
    (Or.inr (Or.inl rfl)) (show (-2 ^ 31 : Int) ≤ 4 by decide)
    (show (4 : Int) < 2 ^ 31 by decide)).mpr (Or.inl (show (0 : Int) ≤ 4 by decide))

/-- One byte back, from the beginning, is the end of the file. -/
theorem not_seeksRight :
    ∃ run, VfsReachable
        (bootVfsInit [⟨cstr "a", 0x1000, 16⟩] 16 32 .cleared) run ∧
      run.state.OpenOn .ramfsOps 3 ∧
      ramfsFileOf (run.state.openFiles 3).privateData run.state = some 0 ∧
      (run.state.fileAt 0).size = 16 ∧
      ¬ SeeksRight run.state 3 16 (seekBase 1 (run.state.ramfsPos 3) 16 + (-1))
        (vfsSeek 3 (-1) 1 run.state) := by
  refine ⟨demoFile, demoFile_reachable, demoFile_openOn, rfl, rfl,
    fun right => ?_⟩
  rcases right.before (by decide) with ⟨_, failed⟩ | start
  · exact absurd failed (by decide)
  · exact absurd start (by decide)

end MatrixOS
