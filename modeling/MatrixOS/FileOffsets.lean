import MatrixOS.RamfsSeek
import MatrixOS.SequentialReads

namespace MatrixOS

open ByteMemory

/-!
# The two file offsets

A descriptor has a position, and so has its handle of ramfs.  `vfs_read` moves
both, `vfs_seek` the second one only.
-/

/-- The position of the descriptor is that of its handle. -/
def Synced (state : VfsState) (fd : Nat) : Prop :=
  (state.openFiles fd).pos = state.ramfsPos fd

instance (state : VfsState) (fd : Nat) : Decidable (Synced state fd) :=
  inferInstanceAs (Decidable (_ = _))

/-- It is for every descriptor that is open on ramfs. -/
def OffsetsAgree (state : VfsState) : Prop :=
  ∀ fd, state.OpenOn .ramfsOps fd → Synced state fd

namespace VfsCall

/-- The count is a word. -/
def CountInRange : VfsCall → Prop
  | .read _ _ count => count < 2 ^ 32
  | .write _ _ count => count < 2 ^ 32
  | _ => True

/--
A read of ramfs moves fewer than `2 ^ 31` bytes, and a seek ends where the
handle already is.
-/
def KeepsOffsets (state : VfsState) : VfsCall → Prop
  | .read fd _ count => ∀ fs, readsFrom fd state = some fs →
      fs.ops = .ramfsOps →
        FileOperations.ramfsOps.ReadFits
          (state.openFiles fd.toNat).privateData count state
  | .seek fd offset whence =>
      state.OpenOn .ramfsOps fd.toNat → IsWhence whence → ∀ index,
        ramfsFileOf (state.openFiles fd.toNat).privateData state = some index →
          seekEnd offset whence (state.ramfsPos fd.toNat)
            (state.fileAt index).size = state.ramfsPos fd.toNat
  | _ => True

end VfsCall

/-- What holds of the file systems between the calls of a run. -/
structure PositionsRight (state : VfsState) : Prop where
  invariant : VfsInvariant state
  inside : PositionsInside state
  inRange : state.FilesInRange

section Own

variable {state : VfsState} {fd buf count : Nat}

theorem TablesAgree.openRamfs
    (tables : TablesAgree state)
    (isOpen : state.OpenOn .ramfsOps fd) :
    ∃ (handle index : Nat), (state.openFiles fd).privateData = handle ∧
      handle < maxOpenFiles ∧
      ramfsFileOf (state.openFiles fd).privateData state = some index := by
  have inUse : state.InUse .ramfsOps (state.openFiles fd).privateData :=
    (tables.handles .ramfsOps).mapsTo isOpen
  obtain ⟨low, high⟩ := inUse.range
  obtain ⟨index, isFile⟩ := Option.ne_none_iff_exists'.mp inUse
  exact ⟨(state.openFiles fd).privateData.toNat, index, by omega, by omega,
    isFile⟩

theorem OpenOn.not_bad
    {ops : FileOperations}
    (isOpen : state.OpenOn ops fd) :
    ¬ BadFd fd state := by
  obtain ⟨inTable, used, _⟩ := isOpen
  simp only [BadFd, Int.toNat_natCast]
  omega

/-- The handle moves by what is read, the descriptor by what is returned. -/
theorem synced_advance_iff
    {length : Nat} {next : VfsState}
    (entry : RamfsPrivate)
    (handle : next = (state.withMem next.mem).withRamfsHandle
      (state.openFiles fd).privateData.toNat entry)
    (moved : entry.pos = wrap32 (state.ramfsPos fd + length))
    (synced : Synced state fd)
    (pos_lt : state.ramfsPos fd < 2 ^ 32)
    (length_lt : length < 2 ^ 32) :
    Synced (advance fd (toInt length) next) fd ↔ length < 2 ^ 31 := by
  have fh : next.openFiles fd = state.openFiles fd := by
    rw [handle]
    rfl
  have ramfsPos : next.ramfsPos fd = entry.pos := by
    rw [handle]
    exact (state.withMem next.mem).ramfsPos_withRamfsHandle fd entry
  have start : (state.openFiles fd).pos = state.ramfsPos fd := synced
  rw [Synced, advance]
  by_cases positive : 0 < toInt length
  · have small : length < 2 ^ 31 := by
      by_contra large
      have negative := toInt_neg length_lt (Nat.le_of_not_lt large)
      omega
    have word : toWord (toInt length) = length := by
      rw [toInt_of_lt small, toWord]
      omega
    rw [if_pos positive]
    refine iff_of_true ?_ small
    have sameHandle : ((next.withOpenFile fd { next.openFiles fd with
        pos := wrap32 ((next.openFiles fd).pos + toWord (toInt length)) }).ramfsPos
          fd) = next.ramfsPos fd := by
      simp [VfsState.ramfsPos, VfsState.withOpenFile]
    rw [sameHandle, ramfsPos, moved, VfsState.withOpenFile_openFiles,
      Function.update_self, word, fh, start]
  · rw [if_neg positive, fh, start, ramfsPos, moved]
    by_cases small : length < 2 ^ 31
    · have none : length = 0 := by
        rw [toInt_of_lt small] at positive
        omega
      rw [none, Nat.add_zero, wrap32_of_lt pos_lt]
      exact iff_of_true rfl (by decide)
    · refine iff_of_false (fun same => ?_) small
      rw [wrap32] at same
      omega

theorem PositionsRight.openRamfs
    (right : PositionsRight state)
    {handle index : Nat}
    (inTable : handle < maxOpenFiles)
    (file : ramfsFileOf handle state = some index) :
    OpenRamfs state handle index := by
  have isFile := ramfsFileOf_eq_some file
  rw [Int.toNat_natCast] at isFile
  have size := right.inRange.fileAt index
  have pos_le := right.inside handle index isFile
  exact ⟨inTable, isFile, by omega, size⟩

/-- A read keeps the two positions together when its result is right. -/
theorem synced_vfsRead_iff
    (right : PositionsRight state)
    (isOpen : state.OpenOn .ramfsOps fd)
    (synced : Synced state fd)
    (buf : Nat)
    (count_lt : count < 2 ^ 32) :
    Synced (vfsRead fd buf count state).2 fd ↔
      VfsCall.KeepsOffsets state (.read fd buf count) := by
  obtain ⟨handle, index, isHandle, inTable, file⟩ :=
    right.invariant.tables.openRamfs isOpen
  rw [isHandle] at file
  have openRamfs := right.openRamfs inTable file
  have pos : state.ramfsPos fd = (state.ramfsHandles handle).pos := by
    rw [VfsState.ramfsPos, isHandle, Int.toNat_natCast]
  have good := OpenOn.not_bad isOpen
  obtain ⟨_, _, fs, isFs, isRamfs⟩ := isOpen
  simp only [VfsCall.KeepsOffsets, readsFrom, vfsRead, if_neg good,
    Int.toNat_natCast]
  split
  · exact iff_of_true synced fun _ isSome => by cases isSome
  simp only [isFs, Option.some.injEq, forall_eq', isRamfs, forall_true_left,
    FileOperations.read, FileOperations.ReadFits, isHandle, file,
    Int.toNat_natCast]
  by_cases atEnd : (state.fileAt index).size ≤ (state.ramfsHandles handle).pos
  · rw [openRamfs.ramfsRead_end atEnd]
    exact iff_of_true synced (Or.inr (Or.inl atEnd))
  · have inside := Nat.lt_of_not_le atEnd
    rw [openRamfs.ramfsRead_inside inside rfl, or_iff_right atEnd,
      ← toRead_small_iff inside openRamfs.size count_lt]
    refine synced_advance_iff ⟨some index, wrap32 ((state.ramfsHandles handle).pos +
      toRead (state.ramfsHandles handle).pos (state.fileAt index).size count)⟩
      ?_ ?_ synced ?_ ?_
    · rw [isHandle]
      rfl
    · rw [pos]
    · rw [pos]
      exact openRamfs.pos
    · exact (toRead_le _ _ _).trans_lt count_lt

/-- A seek does when the handle ends where it was. -/
theorem synced_vfsSeek_iff
    (tables : TablesAgree state)
    (isOpen : state.OpenOn .ramfsOps fd)
    (synced : Synced state fd)
    (offset whence : Int) :
    Synced (vfsSeek fd offset whence state).2 fd ↔
      VfsCall.KeepsOffsets state (.seek fd offset whence) := by
  obtain ⟨handle, index, _, _, file⟩ := tables.openRamfs isOpen
  simp only [VfsCall.KeepsOffsets, Int.toNat_natCast, isOpen, forall_true_left,
    file, Option.some.injEq, forall_eq']
  rw [vfsSeek_of_openOn isOpen]
  by_cases isWhence : IsWhence whence
  · have start : (state.openFiles fd).pos = state.ramfsPos fd := synced
    rw [ramfsSeek_eq file isWhence, forall_prop_of_true isWhence, Synced,
      VfsState.ramfsPos_withRamfsHandle]
    change (state.openFiles fd).pos = _ ↔ _
    rw [start]
    exact eq_comm
  · have refused : ramfsSeek (state.openFiles fd).privateData offset whence
        state = (einval, state) := by
      simp only [IsWhence, not_or] at isWhence
      simp only [ramfsSeek, file, if_neg isWhence.1, if_neg isWhence.2.1,
        if_neg isWhence.2.2]
    rw [refused]
    exact iff_of_true synced fun isOne => absurd isOne isWhence

/-- ramfs refuses writes and requests. -/
theorem vfsWrite_of_openOn
    (tables : TablesAgree state)
    (isOpen : state.OpenOn .ramfsOps fd)
    (buf count : Nat) :
    (vfsWrite fd buf count state).2 = state := by
  have good := OpenOn.not_bad isOpen
  obtain ⟨_, _, fs, isFs, isRamfs⟩ := isOpen
  have behind : ¬ ((fd : Int) = 1 ∨ (fd : Int) = 2) := by
    intro standard
    have noFs := tables.standard fd (by omega)
    rw [isFs] at noFs
    cases noFs
  simp only [vfsWrite, if_neg good, Int.toNat_natCast, if_neg behind, isFs,
    isRamfs]
  split <;> rfl

theorem vfsIoctl_of_openOn
    (isOpen : state.OpenOn .ramfsOps fd)
    (request : Int)
    (argp : Nat) :
    (vfsIoctl fd request argp state).2 = state := by
  have good := OpenOn.not_bad isOpen
  obtain ⟨_, _, fs, isFs, isRamfs⟩ := isOpen
  simp only [vfsIoctl, if_neg good, Int.toNat_natCast, isFs, isRamfs,
    FileOperations.ioctl, ramfsIoctl]

end Own

/-! ## The other descriptors -/

section Others

variable {state next : VfsState} {fd : Nat}

/-- A handle that is not touched stays together with its descriptor. -/
theorem synced_of_untouched
    {handle : Nat} {file : RamfsFile}
    (isHandle : (state.openFiles fd).privateData = handle)
    (untouched : Untouched fd handle file state next) :
    Synced next fd ↔ Synced state fd := by
  have same : next.ramfsPos fd = state.ramfsPos fd := by
    rw [VfsState.ramfsPos, VfsState.ramfsPos, untouched.openFiles, isHandle,
      Int.toNat_natCast, untouched.ramfsHandles]
  rw [Synced, Synced, untouched.openFiles, same]

theorem storesApart_clear (request : VfsCall) :
    request.StoresApart RamfsFile.clear := by
  have apart : ∀ buf count, BufferApart RamfsFile.clear buf count :=
    fun _ _ _ _ _ inside => absurd inside (Nat.not_lt_zero _)
  cases request with
  | read other buf count => exact apart _ _
  | ioctl other request argp => exact apart _ _
  | stat path target => exact apart _ _
  | _ => trivial

/-- A call moves no descriptor that it does not name. -/
theorem synced_perform_iff
    (tables : TablesAgree state)
    (isOpen : state.OpenOn .ramfsOps fd)
    {request : VfsCall}
    (notNamed : ¬ request.Names fd) :
    Synced (request.perform state).2 fd ↔ Synced state fd := by
  obtain ⟨handle, _, isHandle, _, _⟩ := tables.openRamfs isOpen
  have holder : Holder state fd handle := ⟨tables, isOpen, isHandle⟩
  exact synced_of_untouched isHandle
    (holder.untouched notNamed (storesApart_clear request))

/-- A closed descriptor is not open on a file system. -/
theorem vfsClose_not_openOn
    (tables : TablesAgree state)
    (ops : FileOperations) :
    ¬ (vfsClose fd state).2.OpenOn ops fd := by
  intro isOpen
  by_cases bad : BadFd fd state
  · rw [vfsClose, if_pos bad] at isOpen
    exact OpenOn.not_bad isOpen bad
  simp only [vfsClose, if_neg bad, Int.toNat_natCast] at isOpen
  simp only [BadFd, Int.toNat_natCast, not_or] at bad
  split at isOpen
  · rename_i still
    obtain ⟨_, _, fs, isFs, _⟩ := isOpen
    simp only [VfsState.withOpenFile_openFiles, Function.update_self] at isFs
    by_cases behind : 3 ≤ fd
    · have once := (tables.opened fd behind (by omega) bad.2.2).1
      omega
    · rw [tables.standard fd (by omega)] at isFs
      cases isFs
  · have used := isOpen.2.1
    rw [VfsState.withOpenFile_openFiles, Function.update_self] at used
    exact used rfl

theorem ramfsOpen_pos
    {path : List UInt8} {flags : Nat}
    (done : 0 ≤ (ramfsOpen path flags state).1) :
    ((ramfsOpen path flags state).2.ramfsHandles
      (ramfsOpen path flags state).1.toNat).pos = 0 := by
  rw [ramfsOpen] at done ⊢
  split at done
  · exact absurd done (show ¬ 0 ≤ enoent by decide)
  · split at done
    · exact absurd done (show ¬ 0 ≤ eacces by decide)
    · rename_i allowed
      rw [if_neg allowed]
      split at done
      · exact absurd done (show ¬ 0 ≤ emfile by decide)
      · simp

/-- A descriptor on ramfs that has not been open before is at the beginning. -/
theorem synced_vfsOpen
    (path : Option (List UInt8))
    (flags : Nat)
    (isOpen : (vfsOpen path flags state).2.OpenOn .ramfsOps fd)
    (notOpen : ¬ state.OpenOn .ramfsOps fd) :
    Synced (vfsOpen path flags state).2 fd := by
  rcases vfsOpen_cases path flags state with
    ⟨_, unchanged⟩ | ⟨name, fs, free, _, _, _, done, result⟩
  · rw [unchanged] at isOpen
    exact absurd isOpen notOpen
  · rw [result] at isOpen ⊢
    by_cases same : fd = free
    · subst same
      obtain ⟨_, _, other, isFs, isRamfs⟩ := isOpen
      simp only [VfsState.withOpenFile_openFiles, Function.update_self,
        Option.some.injEq] at isFs
      subst isFs
      rw [isRamfs, FileOperations.open] at done ⊢
      have pos := ramfsOpen_pos done
      simpa [Synced, VfsState.ramfsPos, VfsState.withOpenFile] using pos.symm
    · refine absurd ?_ notOpen
      rcases fs.ops.open_cases name flags state with ⟨failed, _⟩ | ⟨_, took⟩
      · exact absurd failed (Int.not_lt.mpr done)
      · simpa [VfsState.OpenOn, same, took.openFiles] using isOpen

end Others

/-! ## Every call -/

section Step

variable {state : VfsState}

theorem PositionsRight.perform
    (right : PositionsRight state)
    (request : VfsCall) :
    PositionsRight (request.perform state).2 := by
  refine ⟨right.invariant.perform request,
    backendsKeep_inside.perform request right.inside, ?_⟩
  rw [VfsState.FilesInRange, (request.perform_sameFiles state).files]
  exact right.inRange

/-- With the tables as they were, only the named descriptor has to be checked. -/
theorem offsetsAgree_iff_named
    (tables : TablesAgree state)
    (agree : OffsetsAgree state)
    (request : VfsCall)
    (named : Int)
    (same : SameTables state (request.perform state).2)
    (onlyNamed : ∀ fd : Nat, request.Names fd → named = fd) :
    OffsetsAgree (request.perform state).2 ↔
      ∀ fd : Nat, named = fd → state.OpenOn .ramfsOps fd →
        Synced (request.perform state).2 fd := by
  constructor
  · intro after fd _ isOpen
    exact after fd ((same.openOn_iff _ fd).mpr isOpen)
  · intro ofNamed fd isOpen
    have wasOpen := (same.openOn_iff _ fd).mp isOpen
    by_cases names : request.Names fd
    · exact ofNamed fd (onlyNamed fd names) wasOpen
    · exact (synced_perform_iff tables wasOpen names).mpr (agree fd wasOpen)

theorem readsFrom_openOn
    {fd : Int} {fs : Filesystem}
    (reads : readsFrom fd state = some fs) :
    ∃ index : Nat, fd = index ∧ state.OpenOn fs.ops index := by
  simp only [readsFrom] at reads
  split at reads
  · cases reads
  · rename_i good
    split at reads
    · cases reads
    · simp only [BadFd, not_or, Int.not_lt, Int.not_le] at good
      exact ⟨fd.toNat, by omega, by omega, good.2.2, fs, reads, rfl⟩

theorem openOn_behind
    {ops : FileOperations} {fd : Nat}
    (tables : TablesAgree state)
    (isOpen : state.OpenOn ops fd) :
    3 ≤ fd := by
  by_contra standard
  obtain ⟨_, _, fs, isFs, _⟩ := isOpen
  rw [tables.standard fd (by omega)] at isFs
  cases isFs

theorem OffsetsAgree.vfsOpen
    (tables : TablesAgree state)
    (agree : OffsetsAgree state)
    (path : Option (List UInt8))
    (flags : Nat) :
    OffsetsAgree (vfsOpen path flags state).2 := by
  intro fd isOpen
  by_cases wasOpen : state.OpenOn .ramfsOps fd
  · have notNamed : ¬ VfsCall.Names fd (.open path flags) := id
    exact (synced_perform_iff tables wasOpen notNamed).mpr (agree fd wasOpen)
  · exact synced_vfsOpen path flags isOpen wasOpen

theorem OffsetsAgree.vfsClose
    (tables : TablesAgree state)
    (agree : OffsetsAgree state)
    (other : Int) :
    OffsetsAgree (vfsClose other state).2 := by
  intro fd isOpen
  have notNamed : ¬ VfsCall.Names fd (.close other) := by
    intro named
    obtain rfl : other = fd := named
    exact vfsClose_not_openOn tables _ isOpen
  have kept : (MatrixOS.vfsClose other state).2.openFiles fd =
      state.openFiles fd := by
    refine vfsClose_openFiles other fun done same => notNamed ?_
    by_cases bad : BadFd other state
    · rw [MatrixOS.vfsClose, if_pos bad] at done
      exact absurd done (show ebadf ≠ 0 by decide)
    · simp only [BadFd, not_or, Int.not_lt] at bad
      change other = fd
      omega
  have wasOpen : state.OpenOn .ramfsOps fd := by
    rwa [VfsState.OpenOn, kept] at isOpen
  exact (synced_perform_iff tables wasOpen notNamed).mpr (agree fd wasOpen)

/-- From offsets that agree a call leads to offsets that agree. -/
theorem offsetsAgree_perform_iff
    (right : PositionsRight state)
    (agree : OffsetsAgree state)
    {request : VfsCall}
    (inRange : request.CountInRange) :
    OffsetsAgree (request.perform state).2 ↔ request.KeepsOffsets state := by
  have tables := right.invariant.tables
  cases request with
  | «open» path flags =>
      exact iff_of_true (agree.vfsOpen tables path flags) trivial
  | close fd =>
      exact iff_of_true (agree.vfsClose tables fd) trivial
  | read fd buf count =>
      rw [offsetsAgree_iff_named tables agree (.read fd buf count) fd
        (vfsRead_sameTables state fd buf count) fun _ named => named]
      constructor
      · intro ofNamed fs reads isRamfs
        obtain ⟨index, rfl, isOpen⟩ := readsFrom_openOn reads
        rw [isRamfs] at isOpen
        exact (synced_vfsRead_iff right isOpen (agree index isOpen) buf
          inRange).mp (ofNamed index rfl isOpen) fs reads isRamfs
      · rintro keeps index rfl isOpen
        exact (synced_vfsRead_iff right isOpen (agree index isOpen) buf
          inRange).mpr keeps
  | write fd buf count =>
      rw [offsetsAgree_iff_named tables agree (.write fd buf count) fd
        (vfsWrite_sameTables state fd buf count) fun _ named => named]
      refine iff_of_true ?_ trivial
      rintro index rfl isOpen
      rw [VfsCall.perform, vfsWrite_of_openOn tables isOpen]
      exact agree index isOpen
  | seek fd offset whence =>
      rw [offsetsAgree_iff_named tables agree (.seek fd offset whence) fd
        (vfsSeek_sameTables state fd offset whence) fun _ named => named]
      constructor
      · intro ofNamed isOpen
        have behind := openOn_behind tables isOpen
        obtain ⟨index, rfl⟩ := Int.eq_ofNat_of_zero_le
          (show 0 ≤ fd by omega)
        rw [Int.toNat_natCast] at isOpen
        exact (synced_vfsSeek_iff tables isOpen (agree index isOpen) offset
          whence).mp (ofNamed index rfl isOpen) isOpen
      · rintro keeps index rfl isOpen
        exact (synced_vfsSeek_iff tables isOpen (agree index isOpen) offset
          whence).mpr keeps
  | ioctl fd request argp =>
      rw [offsetsAgree_iff_named tables agree (.ioctl fd request argp) fd
        (vfsIoctl_sameTables state fd request argp) fun _ named => named]
      refine iff_of_true ?_ trivial
      rintro index rfl isOpen
      rw [VfsCall.perform, vfsIoctl_of_openOn isOpen]
      exact agree index isOpen
  | stat path target =>
      rw [offsetsAgree_iff_named tables agree (.stat path target) 0
        (vfsStat_sameTables state path target) fun _ named => absurd named id]
      refine iff_of_true ?_ trivial
      rintro index - isOpen
      exact (synced_perform_iff tables isOpen id).mpr (agree index isOpen)

end Step

/-! ## Runs -/

/-- A state of a run in which every call is permitted where it is made. -/
inductive VfsReachableBy
    (permitted : VfsState → VfsCall → Prop) (initial : VfsState) :
    VfsState → Prop where
  | init : VfsReachableBy permitted initial initial
  | call (request : VfsCall) {state : VfsState} :
      VfsReachableBy permitted initial state →
        permitted state request →
          VfsReachableBy permitted initial (request.perform state).2
  | key (sc : UInt8) {state : VfsState} :
      VfsReachableBy permitted initial state →
        VfsReachableBy permitted initial
          (state.withKeyboard (keyboardInputHandler sc state.keyboard))

/-- A call that keeps the two positions of every descriptor together. -/
def VfsCall.Steady (state : VfsState) (request : VfsCall) : Prop :=
  request.CountInRange ∧ request.KeepsOffsets state

section Runs

variable {modules : List ModuleInfo} {ramfsNode devfsNode : Nat}
variable {before state : VfsState}

theorem positionsRight_bootVfsInit
    (sizes : ∀ module ∈ modules, module.size < 2 ^ 32) :
    PositionsRight (bootVfsInit modules ramfsNode devfsNode before) :=
  ⟨vfsInvariant_bootVfsInit modules ramfsNode devfsNode before,
    positionsInside_bootVfsInit modules ramfsNode devfsNode before,
    bootVfsInit_filesInRange sizes⟩

theorem offsetsAgree_bootVfsInit :
    OffsetsAgree (bootVfsInit modules ramfsNode devfsNode before) := by
  intro fd isOpen
  have tables := (vfsInvariant_bootVfsInit modules ramfsNode devfsNode
    before).tables
  have behind := openOn_behind tables isOpen
  have used := isOpen.2.1
  obtain ⟨fsList, boot⟩ := bootVfsInit_tables modules ramfsNode devfsNode before
  rw [boot] at used
  exact absurd (vfsInit_refCount before behind) used

theorem VfsReachableBy.offsetsAgree
    (sizes : ∀ module ∈ modules, module.size < 2 ^ 32)
    (reached : VfsReachableBy VfsCall.Steady
      (bootVfsInit modules ramfsNode devfsNode before) state) :
    PositionsRight state ∧ OffsetsAgree state := by
  induction reached with
  | init =>
      exact ⟨positionsRight_bootVfsInit sizes, offsetsAgree_bootVfsInit⟩
  | call request _ steady inductionHypothesis =>
      obtain ⟨right, agree⟩ := inductionHypothesis
      exact ⟨right.perform request,
        (offsetsAgree_perform_iff right agree steady.1).mpr steady.2⟩
  | @key sc state _ inductionHypothesis =>
      obtain ⟨right, agree⟩ := inductionHypothesis
      have same := SameTables.withKeyboard state
        (keyboardInputHandler sc state.keyboard)
      exact ⟨⟨right.invariant.of_sameFiles same.sameFiles
        (same.agree right.invariant.tables), right.inside, right.inRange⟩, agree⟩

/--
In a run without reads of `2 ^ 31` bytes and without seeks that move a handle
the positions agree; the next such call is the first to separate them.
-/
theorem reachable_offsetsAgree
    (sizes : ∀ module ∈ modules, module.size < 2 ^ 32)
    (reached : VfsReachableBy VfsCall.Steady
      (bootVfsInit modules ramfsNode devfsNode before) state) :
    OffsetsAgree state ∧
      ∀ request : VfsCall, request.CountInRange →
        (OffsetsAgree (request.perform state).2 ↔
          request.KeepsOffsets state) := by
  obtain ⟨right, agree⟩ := reached.offsetsAgree sizes
  exact ⟨agree, fun _ inRange => offsetsAgree_perform_iff right agree inRange⟩

end Runs

/-- A file is opened and four of its bytes are read. -/
theorem reachable_offsetsAgree_read :
    ∃ state : VfsState, state.OpenOn .ramfsOps 3 ∧ state.ramfsPos 3 = 4 ∧
      OffsetsAgree state := by
  have opened : VfsReachableBy VfsCall.Steady
      (bootVfsInit [⟨cstr "a", 0x1000, 16⟩] 16 32 .cleared) demoFile.state :=
    .call (.open (some (cstr "a")) oRdonly) .init ⟨trivial, trivial⟩
  have steady : VfsCall.Steady demoFile.state (.read 3 0x2000 4) :=
    ⟨show 4 < 2 ^ 32 by decide, fun _ _ _ _ _ =>
      Or.inl (show 4 < 2 ^ 31 by decide)⟩
  have agree := reachable_offsetsAgree (by simp) (opened.call _ steady)
  exact ⟨_, ⟨by decide, by decide, _, rfl, rfl⟩, rfl, agree.1⟩

/-- After a seek the descriptor is still at the beginning. -/
theorem not_offsetsAgree :
    ∃ run, VfsReachable
        (bootVfsInit [⟨cstr "a", 0x1000, 16⟩] 16 32 .cleared) run ∧
      ¬ OffsetsAgree run.state := by
  refine ⟨_, demoFile_reachable.call (.seek 3 4 0), fun agree => ?_⟩
  have synced := agree 3 ⟨by decide, by decide, _, rfl, rfl⟩
  exact absurd synced (by decide)

end MatrixOS
