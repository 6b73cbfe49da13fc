import MatrixOS.VfsRuns

namespace MatrixOS

open ByteMemory

/-!
# Calls that fail

An error is returned before anything has been changed, as long as no count or
size is large enough to become negative itself.
-/

/-- An outcome that is an error leaves the state as it was. -/
def FailsClean (state : VfsState) (outcome : Int × VfsState) : Prop :=
  outcome.1 < 0 → outcome.2 = state

/-- The files are not longer than an `int` can say. -/
def VfsState.FilesSmall (state : VfsState) : Prop :=
  ∀ file ∈ state.files, file.size < 2 ^ 31

/-- The number of bytes that a call asks for is not negative as an `int`. -/
def VfsCall.CountSmall : VfsCall → Prop
  | .read _ _ count => count < 2 ^ 31
  | .write _ _ count => count < 2 ^ 31
  | _ => True

section Outcomes

variable {state next : VfsState} {result : Int}

theorem failsClean_same : FailsClean state (result, state) :=
  fun _ => rfl

theorem failsClean_done (done : 0 ≤ result) :
    FailsClean state (result, next) := by
  intro failed
  have negative : result < 0 := failed
  omega

theorem VfsState.FilesSmall.fileAt
    (small : state.FilesSmall)
    (index : Nat) :
    (state.fileAt index).size < 2 ^ 31 := by
  rw [VfsState.fileAt, List.getD_eq_getElem?_getD]
  cases found : state.files[index]? with
  | none =>
      decide
  | some file =>
      exact small file (List.mem_of_getElem? found)

theorem consoleRead_le (buf room readCount : Nat) (state : VfsState) :
    (consoleRead buf room readCount state).1 ≤ readCount + room := by
  induction room generalizing readCount state with
  | zero =>
      exact Nat.le_refl _
  | succ room inductionHypothesis =>
      simp only [consoleRead]
      split
      · split
        · exact Nat.add_le_add_left (Nat.succ_le_succ (Nat.zero_le _)) _
        · have rest := inductionHypothesis (readCount + 1)
          exact (rest _).trans (by omega)
      · exact Nat.le_add_right _ _

end Outcomes

/-! ## The file systems -/

section Backends

variable (state : VfsState) (handle : Int)

theorem ramfsRead_failsClean
    (files : state.FilesSmall)
    (buf : Nat)
    {count : Nat}
    (small : count < 2 ^ 31) :
    FailsClean state (ramfsRead handle buf count state) := by
  rw [ramfsRead]
  cases ramfsFileOf handle state with
  | none =>
      exact failsClean_same
  | some index =>
      have size := files.fileAt index
      simp only
      split
      · exact failsClean_same
      · apply failsClean_done
        split
        · exact toInt_nonneg (by omega)
        · exact toInt_nonneg small

theorem ramfsSeek_failsClean
    (files : state.FilesSmall)
    (offset whence : Int) :
    FailsClean state (ramfsSeek handle offset whence state) := by
  rw [ramfsSeek]
  cases ramfsFileOf handle state with
  | none =>
      exact failsClean_same
  | some index =>
      have size := files.fileAt index
      simp only
      split
      · exact failsClean_same
      · rename_i target _
        apply failsClean_done
        apply toInt_nonneg
        split <;> omega

theorem devfsRead_failsClean
    (buf : Nat)
    {count : Nat}
    (small : count < 2 ^ 31) :
    FailsClean state (devfsRead handle buf count state) := by
  simp only [devfsRead]
  split
  · exact failsClean_same
  · split
    · have room := consoleRead_le buf count 0 state
      exact failsClean_done (toInt_nonneg (by omega))
    · split
      · exact failsClean_same
      · split
        · exact failsClean_done (toInt_nonneg small)
        · exact failsClean_same

theorem devfsWrite_failsClean
    (buf : Nat)
    {count : Nat}
    (small : count < 2 ^ 31) :
    FailsClean state (devfsWrite handle buf count state) := by
  simp only [devfsWrite]
  split
  · exact failsClean_same
  · split
    · exact failsClean_done (toInt_nonneg small)
    · split
      · exact failsClean_same
      · split <;> exact failsClean_same

theorem devfsIoctl_failsClean
    (request : Int)
    (argp : Nat) :
    FailsClean state (devfsIoctl handle request argp state) := by
  simp only [devfsIoctl]
  split
  · exact failsClean_same
  · split
    · exact failsClean_done (Int.le_refl 0)
    · split
      · exact failsClean_done (Int.le_refl 0)
      · exact failsClean_same

theorem ramfsStat_failsClean (path : List UInt8) (stat : Nat) :
    FailsClean state (ramfsStat path stat state) := by
  rw [ramfsStat]
  cases ramfsFindFile path state with
  | none => exact failsClean_same
  | some index => exact failsClean_done (Int.le_refl 0)

theorem devfsStat_failsClean (path : List UInt8) (stat : Nat) :
    FailsClean state (devfsStat path stat state) := by
  simp only [devfsStat]
  split
  · exact failsClean_same
  · exact failsClean_done (Int.le_refl 0)

end Backends

namespace FileOperations

variable (ops : FileOperations) (state : VfsState) (handle : Int)

theorem read_failsClean
    (files : state.FilesSmall)
    (buf : Nat)
    {count : Nat}
    (small : count < 2 ^ 31) :
    FailsClean state (ops.read handle buf count state) := by
  cases ops with
  | ramfsOps => exact ramfsRead_failsClean state handle files buf small
  | devfsOps => exact devfsRead_failsClean state handle buf small

theorem write_failsClean
    (buf : Nat)
    {count : Nat}
    (small : count < 2 ^ 31) :
    FailsClean state (ops.write handle buf count state) := by
  cases ops with
  | ramfsOps => exact failsClean_same
  | devfsOps => exact devfsWrite_failsClean state handle buf small

theorem seek_failsClean
    (files : state.FilesSmall)
    (offset whence : Int) :
    FailsClean state (ops.seek handle offset whence state) := by
  cases ops with
  | ramfsOps => exact ramfsSeek_failsClean state handle files offset whence
  | devfsOps => exact failsClean_same

theorem ioctl_failsClean (request : Int) (argp : Nat) :
    FailsClean state (ops.ioctl handle request argp state) := by
  cases ops with
  | ramfsOps => exact failsClean_same
  | devfsOps => exact devfsIoctl_failsClean state handle request argp

theorem stat_failsClean (path : List UInt8) (stat : Nat) :
    FailsClean state (ops.stat path stat state) := by
  cases ops with
  | ramfsOps => exact ramfsStat_failsClean state path stat
  | devfsOps => exact devfsStat_failsClean state path stat

end FileOperations

/-! ## The calls -/

section Calls

variable (state : VfsState) (fd : Int)

/-- The position of a descriptor moves after a transfer that has not failed. -/
theorem failsClean_advance
    {index : Nat} {result : Int} {next : VfsState}
    (clean : FailsClean state (result, next)) :
    FailsClean state (result, advance index result next) := by
  intro failed
  have notDone : ¬ 0 < result := Int.not_lt.mpr (Int.le_of_lt failed)
  change advance index result next = state
  rw [advance, if_neg notDone]
  exact clean failed

theorem vfsOpen_failsClean (path : Option (List UInt8)) (flags : Nat) :
    FailsClean state (vfsOpen path flags state) := by
  rcases vfsOpen_cases path flags state with
    ⟨_, unchanged⟩ | ⟨_, _, fd, _, _, _, _, result⟩
  · exact fun _ => unchanged
  · rw [result]
    exact failsClean_done (Int.natCast_nonneg fd)

theorem vfsClose_failsClean : FailsClean state (vfsClose fd state) := by
  simp only [vfsClose]
  split
  · exact failsClean_same
  · split <;> exact failsClean_done (Int.le_refl 0)

theorem vfsRead_failsClean
    (files : state.FilesSmall)
    (buf : Nat)
    {count : Nat}
    (small : count < 2 ^ 31) :
    FailsClean state (vfsRead fd buf count state) := by
  simp only [vfsRead]
  split
  · exact failsClean_same
  · split
    · exact failsClean_same
    · cases (state.openFiles fd.toNat).fs with
      | none =>
          exact failsClean_same
      | some fs =>
          exact failsClean_advance state
            (fs.ops.read_failsClean state _ files buf small)

theorem vfsWrite_failsClean
    (buf : Nat)
    {count : Nat}
    (small : count < 2 ^ 31) :
    FailsClean state (vfsWrite fd buf count state) := by
  simp only [vfsWrite]
  split
  · exact failsClean_same
  · split
    · exact failsClean_same
    · split
      · exact failsClean_done (toInt_nonneg small)
      · cases (state.openFiles fd.toNat).fs with
        | none =>
            exact failsClean_same
        | some fs =>
            exact failsClean_advance state
              (fs.ops.write_failsClean state _ buf small)

theorem vfsSeek_failsClean
    (files : state.FilesSmall)
    (offset whence : Int) :
    FailsClean state (vfsSeek fd offset whence state) := by
  simp only [vfsSeek]
  split
  · exact failsClean_same
  · cases (state.openFiles fd.toNat).fs with
    | none => exact failsClean_same
    | some fs => exact fs.ops.seek_failsClean state _ files offset whence

theorem vfsIoctl_failsClean (request : Int) (argp : Nat) :
    FailsClean state (vfsIoctl fd request argp state) := by
  simp only [vfsIoctl]
  split
  · exact failsClean_same
  · cases (state.openFiles fd.toNat).fs with
    | none => exact failsClean_same
    | some fs => exact fs.ops.ioctl_failsClean state _ request argp

theorem vfsStat_failsClean (path : Option (List UInt8)) (stat : Nat) :
    FailsClean state (vfsStat path stat state) := by
  cases path with
  | none =>
      exact failsClean_same
  | some path =>
      simp only [vfsStat]
      split
      · exact failsClean_same
      · cases vfsResolveFs path state with
        | none => exact failsClean_same
        | some fs => exact fs.ops.stat_failsClean state path stat

end Calls

/-- A call that returns an error has changed nothing. -/
theorem perform_failed
    {state : VfsState} {request : VfsCall}
    (files : state.FilesSmall)
    (small : request.CountSmall)
    (failed : (request.perform state).1 < 0) :
    (request.perform state).2 = state := by
  have clean : FailsClean state (request.perform state) := by
    cases request with
    | «open» path flags => exact vfsOpen_failsClean state path flags
    | close fd => exact vfsClose_failsClean state fd
    | read fd buf count => exact vfsRead_failsClean state fd files buf small
    | write fd buf count => exact vfsWrite_failsClean state fd buf small
    | seek fd offset whence =>
        exact vfsSeek_failsClean state fd files offset whence
    | ioctl fd request argp => exact vfsIoctl_failsClean state fd request argp
    | stat path target => exact vfsStat_failsClean state path target
  exact clean failed

/-- A file cannot be opened for writing. -/
theorem perform_failed_readOnly :
    ∃ state : VfsState, (VfsCall.perform (.open (some (cstr "a")) oWronly)
      state).2 = state ∧ state.files ≠ [] := by
  have small : VfsState.FilesSmall
      (bootVfsInit [⟨cstr "a", 0x1000, 16⟩] 16 32 .cleared) := by
    intro file member
    obtain rfl := List.mem_singleton.mp member
    decide
  exact ⟨_, perform_failed small trivial (by decide), by decide⟩

end MatrixOS
