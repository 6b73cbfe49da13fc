import MatrixOS.VfsTables

namespace MatrixOS

open ByteMemory Set

/-!
# Runs of the file system calls

The calls in any order and with any arguments, with keys pressed in between.
A run remembers with which path and flags each descriptor was opened.
-/

inductive VfsCall where
  | «open» (path : Option (List UInt8)) (flags : Nat)
  | close (fd : Int)
  | read (fd : Int) (buf count : Nat)
  | write (fd : Int) (buf count : Nat)
  | seek (fd offset whence : Int)
  | ioctl (fd request : Int) (argp : Nat)
  | stat (path : Option (List UInt8)) (target : Nat)

namespace VfsCall

def perform : VfsCall → VfsState → Int × VfsState
  | .open path flags => vfsOpen path flags
  | .close fd => vfsClose fd
  | .read fd buf count => vfsRead fd buf count
  | .write fd buf count => vfsWrite fd buf count
  | .seek fd offset whence => vfsSeek fd offset whence
  | .ioctl fd request argp => vfsIoctl fd request argp
  | .stat path target => vfsStat path target

/-- The path and the flags of every descriptor after a call. -/
def record
    (opened : Nat → Option (List UInt8 × Nat)) (result : Int) :
    VfsCall → Nat → Option (List UInt8 × Nat)
  | .open (some path) flags =>
      if 0 ≤ result then
        Function.update opened result.toNat (some (path, flags))
      else
        opened
  | .close fd =>
      if result = 0 then Function.update opened fd.toNat none else opened
  | _ => opened

end VfsCall

/-- The file systems, and how every descriptor was opened. -/
structure VfsRun where
  state : VfsState
  opened : Nat → Option (List UInt8 × Nat)

def VfsCall.run (request : VfsCall) (run : VfsRun) : VfsRun where
  state := (request.perform run.state).2
  opened := request.record run.opened (request.perform run.state).1

inductive VfsReachable (initial : VfsState) : VfsRun → Prop where
  | init : VfsReachable initial ⟨initial, fun _ => none⟩
  | call (request : VfsCall) {run : VfsRun} :
      VfsReachable initial run → VfsReachable initial (request.run run)
  | key (sc : UInt8) {run : VfsRun} :
      VfsReachable initial run →
        VfsReachable initial
          ⟨run.state.withKeyboard
            (keyboardInputHandler sc run.state.keyboard), run.opened⟩

/-! ## Opening -/

section Open

variable {state : VfsState}

theorem vfsFindRegistered_mem
    {name : List UInt8} {fs : Filesystem}
    (found : vfsFindRegistered name state = some fs) :
    fs ∈ state.fsList :=
  List.mem_of_find?_eq_some found

theorem findFreeFd_eq_some_iff {fd : Nat} :
    findFreeFd state = some fd ↔
      IsLeast {fd | 3 ≤ fd ∧ fd < maxOpenFiles ∧
        (state.openFiles fd).refCount = 0} fd := by
  have size : 3 + (maxOpenFiles - 3) = maxOpenFiles := rfl
  simp only [findFreeFd, List.find?_range'_eq_some, decide_eq_true_eq,
    List.mem_range'_1, size, IsLeast, mem_lowerBounds, mem_ofPred_eq,
    Bool.not_eq_eq_eq_not, Bool.not_true, decide_eq_false_iff_not]
  constructor
  · rintro ⟨free, ⟨behind, inTable⟩, lower⟩
    refine ⟨⟨behind, inTable, free⟩, fun other candidate => ?_⟩
    by_contra below
    exact lower other candidate.1 (by omega) candidate.2.2
  · rintro ⟨⟨behind, inTable, free⟩, least⟩
    refine ⟨free, ⟨behind, inTable⟩, fun other above below isFree => ?_⟩
    have := least other ⟨above, by omega, isFree⟩
    omega

/-- Opening fails without an effect or fills a free descriptor. -/
theorem vfsOpen_cases
    (path : Option (List UInt8)) (flags : Nat) (state : VfsState) :
    ((vfsOpen path flags state).1 < 0 ∧ (vfsOpen path flags state).2 = state) ∨
    ∃ name fs fd,
      path = some name ∧
      vfsResolveFs name state = some fs ∧
      findFreeFd state = some fd ∧
      0 ≤ (fs.ops.open name flags state).1 ∧
      vfsOpen path flags state =
        ((fd : Int), (fs.ops.open name flags state).2.withOpenFile fd
          ⟨some fs, (fs.ops.open name flags state).1, 0, flags, 1⟩) := by
  cases path with
  | none =>
      exact Or.inl ⟨show einval < 0 by decide, rfl⟩
  | some name =>
      simp only [vfsOpen]
      split
      · exact Or.inl ⟨show enoent < 0 by decide, rfl⟩
      · rename_i fs resolved
        split
        · exact Or.inl ⟨show emfile < 0 by decide, rfl⟩
        · rename_i fd free
          rcases fs.ops.open_cases name flags state with
            ⟨failed, unchanged⟩ | ⟨done, _⟩
          · rw [if_pos failed]
            exact Or.inl ⟨failed, unchanged⟩
          · rw [if_neg (Int.not_lt.mpr done)]
            exact Or.inr ⟨name, fs, fd, rfl, resolved, free, done, rfl⟩

theorem TablesAgree.vfsOpen
    (tables : TablesAgree state)
    (known : ∀ fs ∈ state.fsList, fs.Known)
    (path : Option (List UInt8))
    (flags : Nat) :
    TablesAgree (vfsOpen path flags state).2 := by
  rcases vfsOpen_cases path flags state with
    ⟨_, unchanged⟩ | ⟨name, fs, fd, _, resolved, found, done, result⟩
  · rw [unchanged]
    exact tables
  · obtain ⟨⟨behind, inTable, free⟩, _⟩ := findFreeFd_eq_some_iff.mp found
    rw [result]
    rcases fs.ops.open_cases name flags state with ⟨failed, _⟩ | ⟨_, took⟩
    · exact absurd failed (Int.not_lt.mpr done)
    · exact tables.take (known fs (vfsFindRegistered_mem resolved)) took behind
        inTable free flags

end Open

/-! ## Closing -/

section Close

variable {state : VfsState}

/-- `close` of a file system does not look at the descriptors. -/
theorem FileOperations.close_withOpenFile
    (ops : FileOperations) (handle : Int) (fd : Nat) (fh : FileHandle) :
    (ops.close handle (state.withOpenFile fd fh)).2 =
      (ops.close handle state).2.withOpenFile fd fh := by
  cases ops with
  | ramfsOps =>
      have sameFile : ramfsFileOf handle (state.withOpenFile fd fh) =
        ramfsFileOf handle state := rfl
      simp only [FileOperations.close, ramfsClose, sameFile]
      split <;> rfl
  | devfsOps =>
      have sameDevice : devfsDeviceOf handle (state.withOpenFile fd fh) =
        devfsDeviceOf handle state := rfl
      simp only [FileOperations.close, devfsClose, sameDevice]
      split <;> rfl

theorem VfsState.withOpenFile_withOpenFile
    (fd : Nat) (first second : FileHandle) :
    (state.withOpenFile fd first).withOpenFile fd second =
      state.withOpenFile fd second := by
  simp [VfsState.withOpenFile]

/-- Closing a descriptor that is open on a file system. -/
theorem vfsClose_of_open
    {fd : Nat} {fs : Filesystem}
    (inTable : fd < maxOpenFiles)
    (once : (state.openFiles fd).refCount = 1)
    (isOpen : (state.openFiles fd).fs = some fs) :
    vfsClose fd state =
      (0, (fs.ops.close (state.openFiles fd).privateData state).2.withOpenFile
        fd FileHandle.clear) := by
  have good : ¬ BadFd fd state := by
    simp only [BadFd, Int.toNat_natCast, once]
    omega
  simp only [vfsClose, if_neg good, Int.toNat_natCast, once, isOpen,
    FileOperations.close_withOpenFile, VfsState.withOpenFile_withOpenFile]
  rfl

/-- A close is refused, releases a file system's handle, or takes one
reference off a standard descriptor. -/
theorem TablesAgree.vfsClose_cases
    (tables : TablesAgree state)
    (fd : Int) :
    vfsClose fd state = (ebadf, state) ∨
      (∃ (index : Nat) (fs : Filesystem), fd = index ∧
        state.OpenOn fs.ops index ∧
        vfsClose fd state =
          (0, (fs.ops.close (state.openFiles index).privateData
            state).2.withOpenFile index FileHandle.clear)) ∨
      ∃ (index : Nat) (handle : FileHandle), fd = index ∧ index < 3 ∧
        handle.fs = none ∧ vfsClose fd state = (0, state.withOpenFile index handle) := by
  by_cases bad : BadFd fd state
  · exact Or.inl (by rw [vfsClose, if_pos bad])
  have good := bad
  simp only [BadFd, not_or, Int.not_lt, Int.not_le] at bad
  obtain ⟨low, high, used⟩ := bad
  obtain ⟨index, rfl⟩ := Int.eq_ofNat_of_zero_le low
  refine Or.inr ?_
  by_cases behind : 3 ≤ index
  · have inTable : index < maxOpenFiles := by omega
    obtain ⟨once, fs, isOpen, _⟩ := tables.opened index behind inTable used
    exact Or.inl ⟨index, fs, rfl, ⟨inTable, used, fs, isOpen, rfl⟩,
      vfsClose_of_open inTable once isOpen⟩
  · have noFs := tables.standard index (by omega)
    refine Or.inr ?_
    simp only [vfsClose, if_neg good, Int.toNat_natCast, noFs]
    split
    · exact ⟨index, _, rfl, by omega, rfl, rfl⟩
    · rw [VfsState.withOpenFile_withOpenFile]
      exact ⟨index, FileHandle.clear, rfl, by omega, rfl, rfl⟩

theorem TablesAgree.vfsClose
    (tables : TablesAgree state)
    (fd : Int) :
    TablesAgree (vfsClose fd state).2 := by
  rcases tables.vfsClose_cases fd with
    refused | ⟨index, fs, rfl, openOn, closed⟩ |
      ⟨index, handle, rfl, below, noFs, closed⟩
  · rw [refused]
    exact tables
  · rw [closed]
    exact tables.give openOn (FileOperations.close_gave
      ((tables.handles fs.ops).mapsTo openOn))
  · rw [closed]
    exact tables.standardEntry below noFs

end Close

/-! ## Every call -/

/-- What holds of the file systems between calls. -/
structure VfsInvariant (state : VfsState) : Prop where
  tables : TablesAgree state
  known : ∀ fs ∈ state.fsList, fs.Known
  readOnly : ∀ file ∈ state.files, file.mode = 0o444

/-- The files and the registered file systems stay. -/
structure SameFiles (before after : VfsState) : Prop where
  files : after.files = before.files
  fsList : after.fsList = before.fsList

theorem SameTables.sameFiles
    {before after : VfsState}
    (same : SameTables before after) :
    SameFiles before after :=
  ⟨same.files, same.fsList⟩

section Keep

variable (state : VfsState)

theorem FileOperations.close_sameFiles
    (ops : FileOperations) (handle : Int) :
    SameFiles state (ops.close handle state).2 := by
  rcases ops.close_effect state handle with
    result | ⟨_, _, result⟩ | ⟨_, result⟩
  all_goals
    rw [result]
    exact ⟨rfl, rfl⟩

theorem vfsClose_sameFiles (fd : Int) :
    SameFiles state (vfsClose fd state).2 := by
  simp only [vfsClose]
  split
  · exact ⟨rfl, rfl⟩
  · split
    · exact ⟨rfl, rfl⟩
    · cases (state.openFiles fd.toNat).fs with
      | none =>
          exact ⟨rfl, rfl⟩
      | some fs =>
          have kept := fs.ops.close_sameFiles state
            (state.openFiles fd.toNat).privateData
          simp only [FileOperations.close_withOpenFile,
            VfsState.withOpenFile_withOpenFile]
          exact ⟨kept.files, kept.fsList⟩

theorem vfsOpen_sameFiles (path : Option (List UInt8)) (flags : Nat) :
    SameFiles state (vfsOpen path flags state).2 := by
  rcases vfsOpen_cases path flags state with
    ⟨_, unchanged⟩ | ⟨name, fs, fd, _, _, _, done, result⟩
  · rw [unchanged]
    exact ⟨rfl, rfl⟩
  · rw [result]
    rcases fs.ops.open_cases name flags state with ⟨failed, _⟩ | ⟨_, took⟩
    · exact absurd failed (Int.not_lt.mpr done)
    · exact ⟨took.files, took.fsList⟩

end Keep

variable {initial state : VfsState} {run : VfsRun}

theorem VfsInvariant.of_sameFiles
    (invariant : VfsInvariant state)
    {next : VfsState}
    (same : SameFiles state next)
    (tables : TablesAgree next) :
    VfsInvariant next where
  tables := tables
  known := by
    rw [same.fsList]
    exact invariant.known
  readOnly := by
    rw [same.files]
    exact invariant.readOnly

/-- No call changes the files. -/
theorem VfsCall.perform_sameFiles (request : VfsCall) (state : VfsState) :
    SameFiles state (request.perform state).2 := by
  cases request with
  | «open» path flags => exact vfsOpen_sameFiles state path flags
  | close fd => exact vfsClose_sameFiles state fd
  | read fd buf count => exact (vfsRead_sameTables state fd buf count).sameFiles
  | write fd buf count =>
      exact (vfsWrite_sameTables state fd buf count).sameFiles
  | seek fd offset whence =>
      exact (vfsSeek_sameTables state fd offset whence).sameFiles
  | ioctl fd request argp =>
      exact (vfsIoctl_sameTables state fd request argp).sameFiles
  | stat path target => exact (vfsStat_sameTables state path target).sameFiles

/-- Every call keeps the invariant. -/
theorem VfsInvariant.perform
    (invariant : VfsInvariant state)
    (request : VfsCall) :
    VfsInvariant (request.perform state).2 := by
  apply invariant.of_sameFiles (request.perform_sameFiles state)
  cases request with
  | «open» path flags =>
      exact invariant.tables.vfsOpen invariant.known path flags
  | close fd =>
      exact invariant.tables.vfsClose fd
  | read fd buf count =>
      exact (vfsRead_sameTables state fd buf count).agree invariant.tables
  | write fd buf count =>
      exact (vfsWrite_sameTables state fd buf count).agree invariant.tables
  | seek fd offset whence =>
      exact (vfsSeek_sameTables state fd offset whence).agree invariant.tables
  | ioctl fd request argp =>
      exact (vfsIoctl_sameTables state fd request argp).agree invariant.tables
  | stat path target =>
      exact (vfsStat_sameTables state path target).agree invariant.tables

/-! ## What the file systems keep -/

/-- The file systems keep a property that does not look at the descriptors. -/
structure BackendsKeep (Keeps : VfsState → Prop) : Prop where
  descriptor : ∀ {state} fd fh, Keeps state → Keeps (state.withOpenFile fd fh)
  screen : ∀ {state} screen, Keeps state → Keeps (state.withScreen screen)
  «open» : ∀ {state} (ops : FileOperations) path flags,
    Keeps state → Keeps (ops.open path flags state).2
  close : ∀ {state} (ops : FileOperations) handle,
    Keeps state → Keeps (ops.close handle state).2
  read : ∀ {state} (ops : FileOperations) handle buf count,
    Keeps state → Keeps (ops.read handle buf count state).2
  write : ∀ {state} (ops : FileOperations) handle buf count,
    Keeps state → Keeps (ops.write handle buf count state).2
  seek : ∀ {state} (ops : FileOperations) handle offset whence,
    Keeps state → Keeps (ops.seek handle offset whence state).2
  ioctl : ∀ {state} (ops : FileOperations) handle request argp,
    Keeps state → Keeps (ops.ioctl handle request argp state).2
  stat : ∀ {state} (ops : FileOperations) path target,
    Keeps state → Keeps (ops.stat path target state).2

namespace BackendsKeep

variable {Keeps : VfsState → Prop} {fd : Int}

theorem advance
    (keep : BackendsKeep Keeps)
    {index : Nat} {result : Int}
    (holds : Keeps state) :
    Keeps (advance index result state) := by
  rw [MatrixOS.advance]
  split
  · exact keep.descriptor index _ holds
  · exact holds

theorem vfsClose
    (keep : BackendsKeep Keeps)
    (holds : Keeps state) :
    Keeps (vfsClose fd state).2 := by
  simp only [MatrixOS.vfsClose]
  split
  · exact holds
  · split
    · exact keep.descriptor _ _ holds
    · apply keep.descriptor
      cases (state.openFiles fd.toNat).fs with
      | none => exact keep.descriptor _ _ holds
      | some fs => exact keep.close fs.ops _ (keep.descriptor _ _ holds)

theorem vfsRead
    (keep : BackendsKeep Keeps)
    (buf count : Nat)
    (holds : Keeps state) :
    Keeps (vfsRead fd buf count state).2 := by
  simp only [MatrixOS.vfsRead]
  split
  · exact holds
  · split
    · exact holds
    · cases (state.openFiles fd.toNat).fs with
      | none => exact holds
      | some fs => exact keep.advance (keep.read fs.ops _ buf count holds)

theorem vfsWrite
    (keep : BackendsKeep Keeps)
    (buf count : Nat)
    (holds : Keeps state) :
    Keeps (vfsWrite fd buf count state).2 := by
  simp only [MatrixOS.vfsWrite]
  split
  · exact holds
  · split
    · exact holds
    · split
      · exact keep.screen _ holds
      · cases (state.openFiles fd.toNat).fs with
        | none => exact holds
        | some fs => exact keep.advance (keep.write fs.ops _ buf count holds)

/-- Every call keeps it. -/
theorem perform
    (keep : BackendsKeep Keeps)
    (request : VfsCall)
    (holds : Keeps state) :
    Keeps (request.perform state).2 := by
  cases request with
  | «open» path flags =>
      rcases vfsOpen_cases path flags state with
        ⟨_, unchanged⟩ | ⟨name, fs, fd, _, _, _, _, result⟩
      · rw [VfsCall.perform, unchanged]
        exact holds
      · rw [VfsCall.perform, result]
        exact keep.descriptor fd _ (keep.open fs.ops name flags holds)
  | close fd => exact keep.vfsClose holds
  | read fd buf count => exact keep.vfsRead buf count holds
  | write fd buf count => exact keep.vfsWrite buf count holds
  | seek fd offset whence =>
      simp only [VfsCall.perform, vfsSeek]
      split
      · exact holds
      · cases (state.openFiles fd.toNat).fs with
        | none => exact holds
        | some fs => exact keep.seek fs.ops _ offset whence holds
  | ioctl fd request argp =>
      simp only [VfsCall.perform, vfsIoctl]
      split
      · exact holds
      · cases (state.openFiles fd.toNat).fs with
        | none => exact holds
        | some fs => exact keep.ioctl fs.ops _ request argp holds
  | stat path target =>
      cases path with
      | none =>
          exact holds
      | some path =>
          simp only [VfsCall.perform, vfsStat]
          split
          · exact holds
          · cases vfsResolveFs path state with
            | none => exact holds
            | some fs => exact keep.stat fs.ops path target holds

/-- It holds in every state of a run when keys keep it as well. -/
theorem reachable
    (keep : BackendsKeep Keeps)
    (key : ∀ state sc, Keeps state →
      Keeps (state.withKeyboard (keyboardInputHandler sc state.keyboard)))
    (start : Keeps initial)
    (reached : VfsReachable initial run) :
    Keeps run.state := by
  induction reached with
  | init => exact start
  | call request _ inductionHypothesis =>
      exact keep.perform request inductionHypothesis
  | key sc _ inductionHypothesis => exact key _ sc inductionHypothesis

end BackendsKeep

theorem vfsRegisterFs_fsList
    {newFs : Nat} {name : List UInt8} {ops : FileOperations} {fs : Filesystem}
    (member : fs ∈ (vfsRegisterFs newFs name ops state).2.fsList) :
    fs = ⟨strncpy name (maxFsName - 1), ops⟩ ∨ fs ∈ state.fsList := by
  rw [vfsRegisterFs] at member
  split at member
  · exact Or.inr member
  · exact List.mem_cons.mp member

section Boot

variable (modules : List ModuleInfo) (ramfsNode devfsNode : Nat)
variable (before : VfsState)

/-- `boot_vfs_init` has registered no other file system. -/
theorem bootVfsInit_known :
    ∀ fs ∈ (bootVfsInit modules ramfsNode devfsNode before).fsList,
      fs.Known := by
  intro fs member
  rcases vfsRegisterFs_fsList member with isDevfs | earlier
  · exact Or.inr isDevfs
  · rcases vfsRegisterFs_fsList earlier with isRamfs | noOther
    · exact Or.inl isRamfs
    · cases noOther

theorem vfsRegisterFs_tables
    (newFs : Nat) (name : List UInt8) (ops : FileOperations)
    (state : VfsState) :
    ∃ fsList, (vfsRegisterFs newFs name ops state).2 =
      { state with fsList := fsList } := by
  rw [vfsRegisterFs]
  split
  · exact ⟨state.fsList, rfl⟩
  · exact ⟨_, rfl⟩

/-- `boot_vfs_init` leaves the tables empty. -/
theorem bootVfsInit_tables :
    ∃ fsList, bootVfsInit modules ramfsNode devfsNode before =
      { vfsInit before with
        files := (modules.take maxRamfsFiles).map RamfsFile.ofModule
        ramfsHandles := fun _ => ⟨none, 0⟩
        devfsHandles := fun _ => ⟨0, 0⟩
        fsList := fsList } := by
  rw [bootVfsInit, devfsInit, ramfsInit]
  obtain ⟨first, ramfs⟩ := vfsRegisterFs_tables ramfsNode (cstr "ramfs")
    .ramfsOps { vfsInit before with
      files := (modules.take maxRamfsFiles).map RamfsFile.ofModule
      ramfsHandles := fun _ => ⟨none, 0⟩ }
  obtain ⟨second, devfs⟩ := vfsRegisterFs_tables devfsNode (cstr "devfs")
    .devfsOps { vfsInit before with
      files := (modules.take maxRamfsFiles).map RamfsFile.ofModule
      ramfsHandles := fun _ => ⟨none, 0⟩
      devfsHandles := fun _ => ⟨0, 0⟩
      fsList := first }
  refine ⟨second, ?_⟩
  rw [ramfs]
  exact devfs

theorem vfsInit_fs (fd : Nat) :
    ((vfsInit before).openFiles fd).fs = none := by
  simp only [vfsInit]
  split
  · rfl
  · split <;> rfl

theorem vfsInit_refCount
    {fd : Nat}
    (behind : 3 ≤ fd) :
    ((vfsInit before).openFiles fd).refCount = 0 := by
  have notFirst : fd ≠ 0 := by omega
  have notOther : ¬ (fd = 1 ∨ fd = 2) := by omega
  simp [vfsInit, notFirst, notOther, FileHandle.clear]

/-- After `boot_vfs_init` no descriptor is on a file system. -/
theorem vfsInvariant_bootVfsInit :
    VfsInvariant (bootVfsInit modules ramfsNode devfsNode before) := by
  have known := bootVfsInit_known modules ramfsNode devfsNode before
  obtain ⟨fsList, boot⟩ := bootVfsInit_tables modules ramfsNode devfsNode before
  rw [boot] at known ⊢
  refine ⟨⟨fun fd _ => vfsInit_fs before fd, ?_, ?_⟩, known, ?_⟩
  · intro fd behind _ used
    exact absurd (vfsInit_refCount before behind) used
  · intro ops
    have noDescriptor : {fd | VfsState.OpenOn { vfsInit before with
        files := (modules.take maxRamfsFiles).map RamfsFile.ofModule
        ramfsHandles := fun _ => ⟨none, 0⟩
        devfsHandles := fun _ => ⟨0, 0⟩
        fsList := fsList } ops fd} = ∅ := by
      ext fd
      simp [VfsState.OpenOn, vfsInit_fs]
    have noHandle : {handle | VfsState.InUse { vfsInit before with
        files := (modules.take maxRamfsFiles).map RamfsFile.ofModule
        ramfsHandles := fun _ => ⟨none, 0⟩
        devfsHandles := fun _ => ⟨0, 0⟩
        fsList := fsList } ops handle} = ∅ := by
      ext handle
      cases ops <;> simp [VfsState.InUse, ramfsFileOf, devfsDeviceOf]
    rw [noDescriptor, noHandle]
    exact bijOn_empty _
  · intro file member
    obtain ⟨_, _, rfl⟩ := List.mem_map.mp member
    rfl

end Boot

theorem VfsReachable.invariant
    (start : VfsInvariant initial)
    (reached : VfsReachable initial run) :
    VfsInvariant run.state := by
  induction reached with
  | init =>
      exact start
  | call request _ inductionHypothesis =>
      exact inductionHypothesis.perform request
  | @key sc run _ inductionHypothesis =>
      have same := SameTables.withKeyboard run.state
        (keyboardInputHandler sc run.state.keyboard)
      exact inductionHypothesis.of_sameFiles same.sameFiles
        (same.agree inductionHypothesis.tables)

/-! ## Free descriptors can be opened -/

/-- The path names a file that may be opened with the flags, or a device. -/
def FileOperations.Permits
    (path : List UInt8) (flags : Nat) (state : VfsState) :
    FileOperations → Prop
  | ramfsOps => ∃ file, ramfsFindFile path state = some file ∧
      ¬ (flags &&& oWronly ≠ 0 ∧ (state.fileAt file).mode &&& 0o222 = 0)
  | devfsOps => devfsResolveDevice path ≠ -1

theorem findRamfsHandle_of_free
    {index : Nat}
    (bound : index < maxOpenFiles)
    (free : ¬ state.InUse .ramfsOps index) :
    ∃ handle, findRamfsHandle state = some handle := by
  apply Option.isSome_iff_exists.mp
  rw [findRamfsHandle, List.find?_isSome]
  refine ⟨index, List.mem_range.mpr bound, ?_⟩
  simpa [VfsState.InUse, ramfsFileOf, bound] using free

theorem findDevfsHandle_of_free
    {index : Nat}
    (bound : index < maxOpenFiles)
    (free : ¬ state.InUse .devfsOps index) :
    ∃ handle, findDevfsHandle state = some handle := by
  apply Option.isSome_iff_exists.mp
  rw [findDevfsHandle, List.find?_isSome]
  refine ⟨index, List.mem_range.mpr bound, ?_⟩
  simpa [VfsState.InUse, devfsDeviceOf, bound] using free

section Free

variable {fd : Nat}

/-- With a free descriptor the handle tables are not full. -/
theorem TablesAgree.open_ne_emfile
    (tables : TablesAgree state)
    (found : findFreeFd state = some fd)
    (ops : FileOperations) (path : List UInt8) (flags : Nat) :
    (ops.open path flags state).1 ≠ emfile := by
  obtain ⟨⟨_, inTable, free⟩, _⟩ := findFreeFd_eq_some_iff.mp found
  obtain ⟨index, bound, unused⟩ := tables.exists_free_handle inTable free ops
  cases ops with
  | ramfsOps =>
      obtain ⟨handle, isFree⟩ := findRamfsHandle_of_free bound unused
      simp only [FileOperations.open, ramfsOpen, isFree]
      split
      · exact show enoent ≠ emfile by decide
      · split
        · exact show eacces ≠ emfile by decide
        · intro isEmfile
          have : (handle : Int) = -3 := isEmfile
          omega
  | devfsOps =>
      obtain ⟨handle, isFree⟩ := findDevfsHandle_of_free bound unused
      simp only [FileOperations.open, devfsOpen, isFree]
      split
      · exact show enoent ≠ emfile by decide
      · intro isEmfile
        have : (handle : Int) = -3 := isEmfile
        omega

/-- With a free descriptor a permitted path gets a handle. -/
theorem TablesAgree.open_of_permits
    (tables : TablesAgree state)
    (found : findFreeFd state = some fd)
    {ops : FileOperations} {path : List UInt8} {flags : Nat}
    (permits : ops.Permits path flags state) :
    0 ≤ (ops.open path flags state).1 := by
  obtain ⟨⟨_, inTable, free⟩, _⟩ := findFreeFd_eq_some_iff.mp found
  obtain ⟨index, bound, unused⟩ := tables.exists_free_handle inTable free ops
  cases ops with
  | ramfsOps =>
      obtain ⟨handle, isFree⟩ := findRamfsHandle_of_free bound unused
      obtain ⟨file, isFile, allowed⟩ := permits
      simp only [FileOperations.open, ramfsOpen, isFile, if_neg allowed, isFree]
      exact Int.natCast_nonneg handle
  | devfsOps =>
      obtain ⟨handle, isFree⟩ := findDevfsHandle_of_free bound unused
      have isDevice : devfsResolveDevice path ≠ -1 := permits
      simp only [FileOperations.open, devfsOpen, if_neg isDevice, isFree]
      exact Int.natCast_nonneg handle

end Free

/-- The file systems of a cleared machine. -/
def VfsState.cleared : VfsState where
  mem := fun _ => 0
  keyboard := ⟨fun _ => 0, 0, 0⟩
  screen := ⟨fun _ => 0, 0, 7, 0, 0⟩
  files := []
  filesAddr := 0
  ramfsHandles := fun _ => ⟨none, 0⟩
  devfsHandles := fun _ => ⟨0, 0⟩
  fsList := []
  openFiles := fun _ => FileHandle.clear

end MatrixOS
