import MatrixOS.VfsRuns

namespace MatrixOS

open ByteMemory

/-!
# Access modes

A transfer is refused when the descriptor has neither of the two access bits.
With one of them both directions are let through, and ramfs alone refuses the
one that is missing.
-/

/-- A transfer that the flags do not allow is refused without an effect. -/
def AccessEnforced (state : VfsState) (fd : Int) (flags : Nat) : Prop :=
  ∀ buf count,
    (flags &&& oRdonly = 0 → vfsRead fd buf count state = (eacces, state)) ∧
    (flags &&& oWronly = 0 → vfsWrite fd buf count state = (eacces, state))

/-- The path names a device. -/
def UnderDev (path : List UInt8) : Prop :=
  cstr "/dev/" <+: path

instance : DecidablePred UnderDev :=
  fun _ => inferInstanceAs (Decidable (_ <+: _))

theorem strncmp_dev (path : List UInt8) :
    strncmp path (cstr "/dev/") 5 = 0 ↔ UnderDev path :=
  strncmp_length_eq_zero_iff (by decide)

/-- What a run knows of a descriptor it has opened. -/
structure OpenedWith
    (state : VfsState) (fd : Nat) (path : List UInt8) (flags : Nat) : Prop where
  behind : 3 ≤ fd
  inTable : fd < maxOpenFiles
  used : (state.openFiles fd).refCount ≠ 0
  flags_eq : (state.openFiles fd).flags = flags
  device : UnderDev path → ∃ fs, (state.openFiles fd).fs = some fs ∧
    fs.ops = .devfsOps
  file : ¬ UnderDev path → flags &&& oWronly = 0 ∧
    ∃ fs, (state.openFiles fd).fs = some fs ∧ fs.ops = .ramfsOps

/-- The run's record of its descriptors is right. -/
def RecordRight (run : VfsRun) : Prop :=
  ∀ fd path flags, run.opened fd = some (path, flags) →
    OpenedWith run.state fd path flags

section Step

variable {state next : VfsState} {fd : Nat} {path : List UInt8} {flags : Nat}

theorem OpenedWith.of_sameTables
    (opened : OpenedWith state fd path flags)
    (same : SameTables state next) :
    OpenedWith next fd path flags where
  behind := opened.behind
  inTable := opened.inTable
  used := by
    rw [same.refCount]
    exact opened.used
  flags_eq := by
    rw [same.flags]
    exact opened.flags_eq
  device := by
    rw [same.fs]
    exact opened.device
  file := by
    rw [same.fs]
    exact opened.file

theorem OpenedWith.of_entry
    (opened : OpenedWith state fd path flags)
    (same : next.openFiles fd = state.openFiles fd) :
    OpenedWith next fd path flags where
  behind := opened.behind
  inTable := opened.inTable
  used := by
    rw [same]
    exact opened.used
  flags_eq := by
    rw [same]
    exact opened.flags_eq
  device := by
    rw [same]
    exact opened.device
  file := by
    rw [same]
    exact opened.file

/-- A path is resolved to the file system of its directory. -/
theorem vfsResolveFs_ops
    {fs : Filesystem}
    (known : ∀ fs ∈ state.fsList, fs.Known)
    (resolved : vfsResolveFs path state = some fs) :
    fs.ops = if UnderDev path then .devfsOps else .ramfsOps := by
  have isKnown := known fs (vfsFindRegistered_mem resolved)
  have sameName := List.find?_some resolved
  simp only [decide_eq_true_eq, strncmp_dev] at sameName
  split at sameName
  · rename_i underDev
    rw [if_pos underDev]
    rcases isKnown with rfl | rfl
    · exact absurd sameName (by decide)
    · rfl
  · rename_i elsewhere
    rw [if_neg elsewhere]
    rcases isKnown with rfl | rfl
    · rfl
    · exact absurd sameName (by decide)

/-- No file of ramfs is opened for writing. -/
theorem ramfsOpen_flags
    (readOnly : ∀ file ∈ state.files, file.mode = 0o444)
    (done : 0 ≤ (ramfsOpen path flags state).1) :
    flags &&& oWronly = 0 := by
  by_contra writes
  rw [ramfsOpen] at done
  split at done
  · exact absurd done (show ¬ 0 ≤ enoent by decide)
  · rename_i index found
    obtain ⟨bound, _⟩ := List.findIdx?_eq_some_iff_getElem.mp found
    have mode : (state.fileAt index).mode = 0o444 := by
      rw [VfsState.fileAt, List.getD_eq_getElem _ _ bound]
      exact readOnly _ (List.getElem_mem bound)
    rw [if_pos ⟨writes, by rw [mode]; rfl⟩] at done
    exact absurd done (show ¬ 0 ≤ eacces by decide)

/-- A descriptor that has just been opened. -/
theorem vfsOpen_openedWith
    (invariant : VfsInvariant state)
    (done : 0 ≤ (vfsOpen (some path) flags state).1) :
    OpenedWith (vfsOpen (some path) flags state).2
      (vfsOpen (some path) flags state).1.toNat path flags := by
  rcases vfsOpen_cases (some path) flags state with
    ⟨failed, _⟩ | ⟨name, fs, fd, same, resolved, found, opened, result⟩
  · exact absurd failed (Int.not_lt.mpr done)
  · obtain rfl := Option.some.inj same
    obtain ⟨⟨behind, inTable, _⟩, _⟩ := findFreeFd_eq_some_iff.mp found
    have isOps := vfsResolveFs_ops invariant.known resolved
    rw [result]
    refine ⟨behind, inTable, ?_, ?_, ?_, ?_⟩
    · simp
    · simp
    · intro underDev
      rw [if_pos underDev] at isOps
      exact ⟨fs, by simp, isOps⟩
    · intro elsewhere
      rw [if_neg elsewhere] at isOps
      rw [isOps] at opened
      exact ⟨ramfsOpen_flags invariant.readOnly opened, fs, by simp, isOps⟩

/-- Opening leaves the other descriptors alone. -/
theorem vfsOpen_openFiles
    {name : Option (List UInt8)} {other : Nat}
    (different : 0 ≤ (vfsOpen name flags state).1 →
      other ≠ (vfsOpen name flags state).1.toNat) :
    (vfsOpen name flags state).2.openFiles other = state.openFiles other := by
  rcases vfsOpen_cases name flags state with
    ⟨_, unchanged⟩ | ⟨text, fs, fd, _, _, _, opened, result⟩
  · rw [unchanged]
  · rw [result] at different ⊢
    rcases fs.ops.open_cases text flags state with ⟨failed, _⟩ | ⟨_, took⟩
    · exact absurd failed (Int.not_lt.mpr opened)
    · have apart : other ≠ fd := different (Int.natCast_nonneg fd)
      rw [VfsState.withOpenFile_openFiles, Function.update_of_ne apart,
        took.openFiles]

theorem FileOperations.close_openFiles
    (ops : FileOperations) (handle : Int) :
    (ops.close handle state).2.openFiles = state.openFiles := by
  rcases ops.close_effect state handle with
    result | ⟨_, _, result⟩ | ⟨_, result⟩
  · rw [result]
  · rw [result]
    rfl
  · rw [result]
    rfl

/-- Closing fails without an effect or leaves the other descriptors alone. -/
theorem vfsClose_openFiles
    (fd : Int)
    {other : Nat}
    (different : (vfsClose fd state).1 = 0 → other ≠ fd.toNat) :
    (vfsClose fd state).2.openFiles other = state.openFiles other := by
  by_cases bad : BadFd fd state
  · rw [vfsClose, if_pos bad]
  · simp only [vfsClose, if_neg bad] at different ⊢
    split at different
    · rename_i still
      rw [if_pos still, VfsState.withOpenFile_openFiles,
        Function.update_of_ne (different rfl)]
    · rename_i last
      rw [if_neg last, VfsState.withOpenFile_openFiles,
        Function.update_of_ne (different rfl)]
      split
      · rw [VfsState.withOpenFile_openFiles,
          Function.update_of_ne (different rfl)]
      · rw [FileOperations.close_openFiles, VfsState.withOpenFile_openFiles,
          Function.update_of_ne (different rfl)]

end Step

/-! ## Runs -/

/-- The call has opened or closed the descriptor. -/
def VfsCall.Changes (fd : Nat) (result : Int) : VfsCall → Prop
  | .open (some _) _ => result = fd
  | .close other => result = 0 ∧ fd = other.toNat
  | _ => False

/-- An entry of the record is that of the call, or older. -/
theorem VfsCall.record_eq_some
    {request : VfsCall} {opened : Nat → Option (List UInt8 × Nat)}
    {result : Int} {fd : Nat} {entry : List UInt8 × Nat}
    (recorded : request.record opened result fd = some entry) :
    (request = .open (some entry.1) entry.2 ∧ result = fd) ∨
    (opened fd = some entry ∧ ¬ request.Changes fd result) := by
  cases request with
  | «open» name flags =>
      cases name with
      | none =>
          exact Or.inr ⟨recorded, id⟩
      | some path =>
          change (if 0 ≤ result then
              Function.update opened result.toNat (some (path, flags))
            else opened) fd = some entry at recorded
          by_cases same : result = fd
          · rw [if_pos (by omega), same, Int.toNat_natCast,
              Function.update_self] at recorded
            cases recorded
            exact Or.inl ⟨rfl, same⟩
          · refine Or.inr ⟨?_, same⟩
            split at recorded
            · rwa [Function.update_of_ne (by omega)] at recorded
            · exact recorded
  | close other =>
      change (if result = 0 then Function.update opened other.toNat none
        else opened) fd = some entry at recorded
      by_cases done : result = 0
      · rw [if_pos done] at recorded
        by_cases same : fd = other.toNat
        · rw [same, Function.update_self] at recorded
          cases recorded
        · rw [Function.update_of_ne same] at recorded
          exact Or.inr ⟨recorded, fun changes => same changes.2⟩
      · rw [if_neg done] at recorded
        exact Or.inr ⟨recorded, fun changes => done changes.1⟩
  | _ => exact Or.inr ⟨recorded, id⟩

/-- A fact about a recorded descriptor that only its own calls can end. -/
structure RecordKept
    (Right : VfsState → Nat → List UInt8 → Nat → Prop) : Prop where
  opened : ∀ {state path flags fd}, VfsInvariant state →
    (vfsOpen (some path) flags state).1 = (fd : Nat) →
      Right (vfsOpen (some path) flags state).2 fd path flags
  perform : ∀ {state fd path flags} (request : VfsCall), VfsInvariant state →
    Right state fd path flags →
      ¬ request.Changes fd (request.perform state).1 →
        Right (request.perform state).2 fd path flags
  key : ∀ {state fd path flags} keyboard, Right state fd path flags →
    Right (state.withKeyboard keyboard) fd path flags

section Runs

variable {initial state : VfsState} {run : VfsRun}
variable {Right : VfsState → Nat → List UInt8 → Nat → Prop}

theorem RecordKept.reachable
    (kept : RecordKept Right)
    (start : VfsInvariant initial)
    (reached : VfsReachable initial run) :
    ∀ fd path flags, run.opened fd = some (path, flags) →
      Right run.state fd path flags := by
  induction reached with
  | init =>
      intro fd path flags opened
      cases opened
  | call request earlier inductionHypothesis =>
      have invariant := earlier.invariant start
      intro fd path flags recorded
      rcases VfsCall.record_eq_some recorded with
        ⟨rfl, isFd⟩ | ⟨older, unchanged⟩
      · exact kept.opened invariant isFd
      · exact kept.perform request invariant
          (inductionHypothesis fd path flags older) unchanged
  | key sc _ inductionHypothesis =>
      intro fd path flags opened
      exact kept.key _ (inductionHypothesis fd path flags opened)

/-- A call keeps the tables, or opens or closes another descriptor. -/
theorem VfsCall.perform_entry
    {request : VfsCall} {fd : Nat}
    (unchanged : ¬ request.Changes fd (request.perform state).1) :
    SameTables state (request.perform state).2 ∨
    ((request.perform state).2.openFiles fd = state.openFiles fd ∧
      ((∃ name flags, request = .open name flags) ∨
        ∃ other, request = .close other ∧
          ((vfsClose other state).1 = 0 → fd ≠ other.toNat))) := by
  cases request with
  | «open» name flags =>
      refine Or.inr ⟨vfsOpen_openFiles fun done same => ?_,
        Or.inl ⟨name, flags, rfl⟩⟩
      cases name with
      | none =>
          exact absurd done (show ¬ 0 ≤ einval by decide)
      | some path =>
          have different : (vfsOpen (some path) flags state).1 ≠ fd := unchanged
          omega
  | close other =>
      have different : (vfsClose other state).1 = 0 → fd ≠ other.toNat :=
        fun done same => unchanged ⟨done, same⟩
      exact Or.inr ⟨vfsClose_openFiles other different,
        Or.inr ⟨other, rfl, different⟩⟩
  | read other buf count =>
      exact Or.inl (vfsRead_sameTables state other buf count)
  | write other buf count =>
      exact Or.inl (vfsWrite_sameTables state other buf count)
  | seek other offset whence =>
      exact Or.inl (vfsSeek_sameTables state other offset whence)
  | ioctl other request argp =>
      exact Or.inl (vfsIoctl_sameTables state other request argp)
  | stat path target =>
      exact Or.inl (vfsStat_sameTables state path target)

theorem openedWith_kept : RecordKept OpenedWith where
  opened := by
    intro state path flags fd invariant isFd
    have opened := vfsOpen_openedWith invariant
      (isFd ▸ Int.natCast_nonneg fd : 0 ≤ (vfsOpen (some path) flags state).1)
    rwa [isFd] at opened
  perform := by
    intro state fd path flags request _ right unchanged
    rcases VfsCall.perform_entry unchanged with same | ⟨same, _⟩
    · exact right.of_sameTables same
    · exact right.of_entry same
  key := fun keyboard right => right.of_sameTables (.withKeyboard _ keyboard)

theorem VfsReachable.recordRight
    (start : VfsInvariant initial)
    (reached : VfsReachable initial run) :
    RecordRight run :=
  openedWith_kept.reachable start reached

end Runs

/-! ## Which transfers are refused -/

theorem and_oRdonly (flags : Nat) : flags &&& oRdonly = flags % 2 :=
  Nat.and_one_is_mod flags

theorem and_oWronly (flags : Nat) : flags &&& oWronly = flags / 2 % 2 * 2 := by
  have bit := Nat.and_two_pow flags 1
  rwa [Nat.toNat_testBit] at bit

theorem and_oRdwr (flags : Nat) : flags &&& oRdwr = flags % 4 :=
  Nat.and_two_pow_sub_one_eq_mod flags 2

/-- Neither or both of the access bits, or a path that names no device. -/
def ModesKept (path : List UInt8) (flags : Nat) : Prop :=
  flags &&& oRdwr = 0 ∨ flags &&& oRdwr = oRdwr ∨ ¬ UnderDev path

theorem devfsRead_ne_eacces (handle : Int) (buf : Nat) (state : VfsState) :
    (devfsRead handle buf 0 state).1 ≠ eacces := by
  simp only [devfsRead, consoleRead]
  split
  · exact show ebadf ≠ eacces by decide
  · split
    · exact show toInt 0 ≠ eacces by decide
    · split
      · exact show (0 : Int) ≠ eacces by decide
      · split
        · exact show toInt 0 ≠ eacces by decide
        · exact show eio ≠ eacces by decide

theorem devfsWrite_ne_eacces (handle : Int) (buf : Nat) (state : VfsState) :
    (devfsWrite handle buf 0 state).1 ≠ eacces := by
  simp only [devfsWrite]
  split
  · exact show ebadf ≠ eacces by decide
  · split
    · exact show toInt 0 ≠ eacces by decide
    · split
      · exact show toInt 0 ≠ eacces by decide
      · split
        · exact show toInt 0 ≠ eacces by decide
        · exact show eio ≠ eacces by decide

section Enforced

variable {state : VfsState} {fd : Nat} {path : List UInt8} {flags : Nat}

theorem OpenedWith.not_bad (opened : OpenedWith state fd path flags) :
    ¬ BadFd fd state := by
  have used := opened.used
  have inTable := opened.inTable
  simp only [BadFd, Int.toNat_natCast]
  omega

/-- Without any access bit every transfer is refused. -/
theorem OpenedWith.refused
    (opened : OpenedWith state fd path flags)
    (noMode : flags &&& oRdwr = 0) :
    AccessEnforced state fd flags := by
  have bits := and_oRdwr flags
  intro buf count
  constructor
  · intro noRead
    simp only [vfsRead, if_neg opened.not_bad, Int.toNat_natCast,
      opened.flags_eq, noRead, noMode, and_self, if_true]
  · intro noWrite
    simp only [vfsWrite, if_neg opened.not_bad, Int.toNat_natCast,
      opened.flags_eq, noWrite, noMode, and_self, if_true]

/-- ramfs itself refuses to write. -/
theorem OpenedWith.file_enforced
    (opened : OpenedWith state fd path flags)
    (elsewhere : ¬ UnderDev path) :
    AccessEnforced state fd flags := by
  obtain ⟨noWrite, fs, isFs, isRamfs⟩ := opened.file elsewhere
  by_cases noMode : flags &&& oRdwr = 0
  · exact opened.refused noMode
  · intro buf count
    have notStandard : ¬ ((fd : Int) = 1 ∨ (fd : Int) = 2) := by
      have behind := opened.behind
      omega
    constructor
    · intro noRead
      rw [and_oRdonly] at noRead
      rw [and_oWronly] at noWrite
      rw [and_oRdwr] at noMode
      omega
    · intro _
      simp only [vfsWrite, if_neg opened.not_bad, Int.toNat_natCast,
        opened.flags_eq, noMode, and_false, if_false, if_neg notStandard, isFs,
        isRamfs]
      rfl

/-- A device is read or written with the other access bit. -/
theorem OpenedWith.not_enforced
    (opened : OpenedWith state fd path flags)
    (broken : ¬ ModesKept path flags) :
    ¬ AccessEnforced state fd flags := by
  intro enforced
  simp only [ModesKept, not_or, not_not] at broken
  obtain ⟨someMode, notBoth, underDev⟩ := broken
  obtain ⟨fs, isFs, isDevfs⟩ := opened.device underDev
  obtain ⟨reads, writes⟩ := enforced 0 0
  by_cases noRead : flags &&& oRdonly = 0
  · have refused := congrArg Prod.fst (reads noRead)
    simp only [vfsRead, if_neg opened.not_bad, Int.toNat_natCast,
      opened.flags_eq, someMode, and_false, if_false, isFs, isDevfs] at refused
    exact devfsRead_ne_eacces _ _ _ refused
  · have noWrite : flags &&& oWronly = 0 := by
      rw [and_oRdonly] at noRead
      rw [and_oRdwr] at someMode notBoth
      rw [and_oWronly]
      simp only [oRdwr] at notBoth
      omega
    have notStandard : ¬ ((fd : Int) = 1 ∨ (fd : Int) = 2) := by
      have behind := opened.behind
      omega
    have refused := congrArg Prod.fst (writes noWrite)
    simp only [vfsWrite, if_neg opened.not_bad, Int.toNat_natCast,
      opened.flags_eq, someMode, and_false, if_false, if_neg notStandard, isFs,
      isDevfs] at refused
    exact devfsWrite_ne_eacces _ _ _ refused

theorem OpenedWith.enforced
    (opened : OpenedWith state fd path flags)
    (kept : ModesKept path flags) :
    AccessEnforced state fd flags := by
  rcases kept with noMode | both | elsewhere
  · exact opened.refused noMode
  · rw [and_oRdwr, oRdwr] at both
    intro buf count
    constructor
    · intro noRead
      rw [and_oRdonly] at noRead
      omega
    · intro noWrite
      rw [and_oWronly] at noWrite
      omega
  · exact opened.file_enforced elsewhere

end Enforced

/--
In every state of a run the transfers that the flags of a descriptor do not
allow are refused exactly when the modes of its path are kept.
-/
theorem accessEnforced_iff
    {modules : List ModuleInfo} {ramfsNode devfsNode : Nat}
    {before : VfsState} {run : VfsRun}
    (reached : VfsReachable
      (bootVfsInit modules ramfsNode devfsNode before) run)
    {fd : Nat} {path : List UInt8} {flags : Nat}
    (opened : run.opened fd = some (path, flags)) :
    AccessEnforced run.state fd flags ↔ ModesKept path flags := by
  have right := reached.recordRight
    (vfsInvariant_bootVfsInit modules ramfsNode devfsNode before)
  have openedWith := right fd path flags opened
  constructor
  · intro enforced
    by_contra broken
    exact openedWith.not_enforced broken enforced
  · exact openedWith.enforced

/-- The zero device opened for reading and writing. -/
theorem accessEnforced_zero :
    ∃ run : VfsRun, run.opened 3 = some (cstr "/dev/zero", oRdwr) ∧
      AccessEnforced run.state 3 oRdwr := by
  have reached : VfsReachable (bootVfsInit [] 16 32 .cleared) _ :=
    .call (.open (some (cstr "/dev/zero")) oRdwr) .init
  exact ⟨_, rfl, (@accessEnforced_iff [] 16 32 .cleared _ reached 3 _ _
    rfl).mpr (Or.inr (Or.inl rfl))⟩

/-- The console opened for writing is read. -/
theorem console_read_not_refused :
    ∃ run : VfsRun,
      VfsReachable (bootVfsInit [] 16 32 .cleared) run ∧
      run.opened 3 = some (cstr "/dev/console", oWronly) ∧
      (vfsRead 3 0 0 run.state).1 = 0 ∧
      ¬ AccessEnforced run.state 3 oWronly := by
  have reached : VfsReachable (bootVfsInit [] 16 32 .cleared)
      ((VfsCall.open (some (cstr "/dev/console")) oWronly).run _) :=
    .call _ .init
  refine ⟨_, reached, rfl, rfl, fun enforced => ?_⟩
  have refused := congrArg Prod.fst ((enforced 0 0).1 rfl)
  exact absurd refused (show (0 : Int) ≠ eacces by decide)

end MatrixOS
